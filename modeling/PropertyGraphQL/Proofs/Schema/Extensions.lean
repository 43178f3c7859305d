/-
Extensions, taken into the definitions that they extend.

What an extension says may as well stand in the definition. That the two are
apart in the document does not count, as only their name is concerned. What
stands between them under the name defines no entity, hence does nothing
(`define_idle`), or it defines the entity again, and then neither document is
accepted (`refused_again`). Labels of the extension move ahead of fields of
the definition, but fields do not look at labels
(`foldlM_addField_withLabels`).

A root is different: it may have several definitions, whose operations
replace each other, and of a definition only the fields of an object type
count. So the operations of the extension move ahead of what stands between
(`foldlM_define_root`), which is harmless as long as none of them is declared
there too and both are definitions of the same kind
(`SchemaDocument.Unopposed`). Otherwise the two documents may give different
operations.
-/
import PropertyGraphQL.Proofs.Data.Decidable
import PropertyGraphQL.Proofs.Schema.Roots

namespace PropertyGraphQL

/-- A definition with what another says behind it. -/
def TypeBody.extendedBy (more : EntityBody) : TypeBody → TypeBody
  | .object interfaces fields => .object (interfaces ++ more.interfaces) (fields ++ more.fields)
  | .interface interfaces fields =>
      .interface (interfaces ++ more.interfaces) (fields ++ more.fields)
  | body => body

def TypeDefinition.extendedBy (d : TypeDefinition) (more : EntityBody) : TypeDefinition :=
  { d with body := d.body.extendedBy more }

namespace SchemaDocument

/-- An extension that is the first one behind a definition of its name, with what stands between
the two. -/
structure FirstExtension (d : TypeDefinition) (between : SchemaDocument)
    (extension : TypeDefinition) : Prop where
  name : extension.name = d.name
  definition : d.isExtension = false
  isExtension : extension.isExtension = true
  first : ∀ other, .type other ∈ between → other.name = d.name →
    other.body.entity?.isSome = true → other.isExtension = false

/-- An extension of the same kind as the definition, of whose operations none is declared by
another definition of the name between the two. -/
structure Unopposed (d : TypeDefinition) (between : SchemaDocument) (extension : TypeDefinition) :
    Prop where
  kind : d.body.entity?.map (·.isInterface) = extension.body.entity?.map (·.isInterface)
  names : ∀ other, .type other ∈ between → other.name = d.name →
    other.body.operationNames.Disjoint extension.body.operationNames

/-- A document with an extension behind a definition, and one that has the extension in the
definition, with the places of its own. -/
inductive TakenIn (d : TypeDefinition) (between : SchemaDocument) (extension : TypeDefinition) :
    SchemaDocument → SchemaDocument → Prop
  | intro {before after merged : SchemaDocument} {body more : EntityBody}
      (hbody : d.body.entity? = some body) (hmore : extension.body.entity? = some more)
      (hfirst : FirstExtension d between extension)
      (hmerged : merged.unplaced
        = unplaced (before ++ .type (d.extendedBy more) :: between ++ after)) :
      TakenIn d between extension (before ++ .type d :: between ++ .type extension :: after) merged

end SchemaDocument

-- ================================================================= labels

namespace EntityType

/-- A type with other labels. -/
def withLabels (labels : List String) (t : EntityType) : EntityType := { t with labels }

/-- A property is added alike whatever the labels. -/
theorem addProperty_withLabels (t : EntityType) (labels : List String) (p : PropertyField) :
    (t.withLabels labels).addProperty p = withLabels labels <$> t.addProperty p := by
  have hfields : (t.withLabels labels).hasField p.name = t.hasField p.name := rfl
  unfold addProperty
  rw [hfields]
  split
  · rfl
  · rfl

/-- A relationship is merged alike whatever the labels. -/
theorem mergeRelationship_withLabels (t : EntityType) (labels : List String)
    (r : RelationshipField) :
    (t.withLabels labels).mergeRelationship r = withLabels labels <$> t.mergeRelationship r := by
  have hproperties : (t.withLabels labels).properties = t.properties := rfl
  have hexisting : (t.withLabels labels).relationship? r.name = t.relationship? r.name := rfl
  unfold mergeRelationship
  rw [hproperties, hexisting]
  split
  · rfl
  · cases t.relationship? r.name with
    | none => rfl
    | some existing =>
      dsimp only
      split
      · rfl
      · rfl

/-- What identifies the nodes does not depend on labels. -/
theorem registerIdProperty_withLabels (t : EntityType) (labels : List String) (field : String) :
    ((t.withLabels labels).registerIdProperty field).2
      = (t.registerIdProperty field).2.withLabels labels := by
  have hid : (t.withLabels labels).idProperty = t.idProperty := rfl
  unfold registerIdProperty
  rw [hid]
  cases t.idProperty with
  | none => rfl
  | some key => rfl

/-- Labels are added according to the name and the labels that are there. -/
theorem addLabels_congr {t t' : EntityType} (hname : t'.name = t.name)
    (hlabels : t'.labels = t.labels) (labels : List String) :
    labels.foldl addLabel t' = t'.withLabels (labels.foldl addLabel t).labels := by
  induction labels generalizing t t' with
  | nil =>
    rw [List.foldl_nil, List.foldl_nil, ← hlabels]
    rfl
  | cons label rest ih =>
    rw [List.foldl_cons, List.foldl_cons]
    by_cases hknown : label = t.name ∨ label ∈ t.labels
    · have hknown' : label = t'.name ∨ label ∈ t'.labels := by
        rwa [hname, hlabels]
      rw [addLabel, if_pos hknown', addLabel, if_pos hknown]
      exact ih hname hlabels
    · have hknown' : ¬ (label = t'.name ∨ label ∈ t'.labels) := by
        rwa [hname, hlabels]
      rw [addLabel, if_neg hknown', addLabel, if_neg hknown]
      exact ih hname (congrArg (· ++ [label]) hlabels)

end EntityType

namespace Vocabulary

variable {v : Vocabulary}

/-- An extended entity has the interfaces and fields of both. -/
theorem entity?_extendedBy {body : TypeBody} {b : EntityBody} (h : body.entity? = some b)
    (more : EntityBody) :
    (body.extendedBy more).entity?
      = some ⟨b.isInterface, b.interfaces ++ more.interfaces, b.fields ++ more.fields⟩ := by
  cases body with
  | object interfaces fields =>
    cases h
    rfl
  | interface interfaces fields =>
    cases h
    rfl
  | _ => cases h

theorem atPlace_map {α β : Type} (place : Position) (f : α → β) (x : Except ModelError α) :
    atPlace place (f <$> x) = f <$> atPlace place x := by
  cases x <;> rfl

/-- A field is added alike whatever the labels. -/
theorem addField_withLabels (v : Vocabulary) (t : EntityType) (labels : List String)
    (f : FieldDefinition) :
    v.addField (t.withLabels labels) f = EntityType.withLabels labels <$> v.addField t f := by
  unfold addField
  rw [map_bind]
  congr 1
  funext custom
  split
  · unfold addProperty
    dsimp only
    rw [map_bind]
    congr 1
    funext default
    rw [EntityType.addProperty_withLabels, atPlace_map, bind_map_left, map_bind]
    congr 1
    funext t₁
    rw [map_pure, EntityType.registerIdProperty_withLabels,
      apply_ite (EntityType.withLabels labels)]
  · unfold addRelationship
    dsimp only
    rw [map_bind]
    congr 1
    funext relationship
    rw [EntityType.mergeRelationship_withLabels, atPlace_map]

/-- What fields add to a type does not depend on its labels, and they stay as they are. -/
theorem foldlM_addField_withLabels (v : Vocabulary) (t : EntityType) (labels : List String)
    (fields : List FieldDefinition) :
    fields.foldlM v.addField (t.withLabels labels)
      = EntityType.withLabels labels <$> fields.foldlM v.addField t := by
  induction fields generalizing t with
  | nil => rfl
  | cons f rest ih =>
    rw [List.foldlM_cons, List.foldlM_cons, addField_withLabels, bind_map_left, map_bind]
    congr 1
    funext t₁
    exact ih t₁

-- ========================================================== one after the other

/-- A type that is defined with what an extension says is the extended type. -/
theorem declare_extendedBy (v : Vocabulary) (t? : Option EntityType) {d extension : TypeDefinition}
    (hd : d.isExtension = false) (hextension : extension.isExtension = true)
    (b more : EntityBody) :
    v.declare t? (d.extendedBy more)
        ⟨b.isInterface, b.interfaces ++ more.interfaces, b.fields ++ more.fields⟩
      = v.declare t? d b >>= fun t => v.declare (some t) extension more := by
  -- where the type is there already both fail, as the definition is no extension
  cases t? with
  | some t =>
    have hagain : (d.extendedBy more).isExtension = false := hd
    unfold declare
    rw [hd, hagain]
    rfl
  | none =>
    let start := b.interfaces.foldl EntityType.addLabel
      { EntityType.blank d.name with isInterface := b.isInterface, description := d.description }
    have hboth : v.declare none (d.extendedBy more)
          ⟨b.isInterface, b.interfaces ++ more.interfaces, b.fields ++ more.fields⟩
        = (b.fields ++ more.fields).foldlM v.addField
            (more.interfaces.foldl EntityType.addLabel start) := by
      unfold declare
      rw [Option.isSome_none, Bool.and_false, List.foldl_append]
      rfl
    have hfirst : v.declare none d b = b.fields.foldlM v.addField start := by
      unfold declare
      rw [Option.isSome_none, Bool.and_false]
      rfl
    have hsecond (t : EntityType) : v.declare (some t) extension more
        = more.fields.foldlM v.addField (more.interfaces.foldl EntityType.addLabel t) := by
      unfold declare
      rw [hextension]
      rfl
    -- labels and fields do not touch each other, so all labels may be added first
    rw [hboth, hfirst, EntityType.addLabels_congr rfl rfl more.interfaces, List.foldlM_append,
      foldlM_addField_withLabels, bind_map_left]
    cases hfold : b.fields.foldlM v.addField start with
    | error e => rfl
    | ok t =>
      have hname : t.name = start.name := (foldlM_addField hfold).1
      have hlabels : t.labels = start.labels := by
        have hsame := v.foldlM_addField_withLabels start start.labels b.fields
        have hstart : start.withLabels start.labels = start := rfl
        rw [hstart, hfold] at hsame
        have hkept : t = t.withLabels start.labels := Except.ok.inj hsame
        have hlabels := congrArg EntityType.labels hkept
        exact hlabels
      show more.fields.foldlM v.addField _ = v.declare (some t) extension more
      rw [hsecond, EntityType.addLabels_congr hname hlabels]

/-- An extended root has the operations of both, if they are of the same kind. -/
theorem operations_extendedBy (v : Vocabulary) {body body' : TypeBody} {b more : EntityBody}
    (hb : body.entity? = some b) (hmore : body'.entity? = some more)
    (hkind : b.isInterface = more.isInterface) :
    v.operations (body.extendedBy more) = do
      let ops ← v.operations body
      let ops' ← v.operations body'
      return ops ++ ops' := by
  -- objects declare their fields, and interfaces nothing
  cases body with
  | object interfaces fields =>
    cases body' with
    | object interfaces' fields' =>
      cases hb
      cases hmore
      exact List.mapM_append
    | interface interfaces' fields' =>
      cases hb
      cases hmore
      cases hkind
    | _ => cases hmore
  | interface interfaces fields =>
    cases body' with
    | object interfaces' fields' =>
      cases hb
      cases hmore
      cases hkind
    | interface interfaces' fields' => rfl
    | _ => cases hmore
  | _ => cases hb

/-- To take an extension right behind a definition into it changes nothing. -/
theorem define_extendedBy (c : Catalog) {d extension : TypeDefinition} {b more : EntityBody}
    (hname : extension.name = d.name) (hd : d.isExtension = false)
    (hextension : extension.isExtension = true) (hb : d.body.entity? = some b)
    (hmore : extension.body.entity? = some more) (hquery : d.name ≠ v.queryRoot)
    (hmutation : d.name ≠ v.mutationRoot) :
    v.define c (.type (d.extendedBy more))
      = v.define c (.type d) >>= fun c => v.define c (.type extension) := by
  have hname' : (d.extendedBy more).name = d.name := rfl
  have hbody : (d.extendedBy more).body = d.body.extendedBy more := rfl
  rw [define_type, define_type, hname', hbody]
  simp only [define_type, hname, if_neg hquery, if_neg hmutation, entity?_extendedBy hb, hb, hmore]
  rw [v.declare_extendedBy _ hd hextension]
  cases v.declare (c.type? d.name) d b with
  | error e => rfl
  | ok t =>
    have htype : Catalog.type? { c with types := c.types.insert d.name t } d.name = some t :=
      Dict.get?_insert_self _ _ _
    have hagain (t' : EntityType) :
        (c.types.insert d.name t).insert d.name t' = c.types.insert d.name t' :=
      Dict.insert_insert_self _ _ _ _
    show _ <$> v.declare (some t) extension more
      = _ <$> v.declare (Catalog.type? { c with types := c.types.insert d.name t } d.name)
          extension more
    rw [htype]
    simp only [hagain]

-- ============================================================= what lies between

/-- A definition of no entity does nothing. -/
theorem define_idle (v : Vocabulary) (c : Catalog) {d : TypeDefinition}
    (h : d.body.entity? = none) : v.define c (.type d) = .ok c := by
  have hops : v.operations d.body = .ok [] := by
    cases hbody : d.body with
    | object interfaces fields =>
      rw [hbody] at h
      cases h
    | _ => rfl
  rw [define_type, hops, h]
  split
  · rfl
  · split
    · rfl
    · rfl

/-- Definitions of no entity do nothing, however many. -/
theorem foldlM_define_idle (v : Vocabulary) (c : Catalog) {ds : SchemaDocument} {name : String}
    (hnamed : ∀ item ∈ ds, item.isNamed name = true)
    (hidle : ∀ other, .type other ∈ ds → other.body.entity? = none) :
    ds.foldlM v.define c = .ok c := by
  induction ds with
  | nil => rfl
  | cons item rest ih =>
    obtain ⟨hitem, hrest⟩ := List.forall_mem_cons.mp hnamed
    cases item with
    | roots query mutation => cases hitem
    | directive => cases hitem
    | type d =>
      rw [List.foldlM_cons, v.define_idle c (hidle d List.mem_cons_self)]
      exact ih hrest fun other hother => hidle other (List.mem_cons_of_mem _ hother)

/-- A type that is there stays there. -/
theorem type?_isSome_define {c c' : Catalog} {item : SchemaItem} {name : String}
    (h : v.define c item = .ok c') (ht : (c.type? name).isSome = true) :
    (c'.type? name).isSome = true := by
  cases defines_of_define h with
  | @entity d body t hquery hmutation hbody hdeclare =>
    rw [Catalog.type?, Dict.get?_insert]
    split
    · rfl
    · exact ht
  | _ => exact ht

/-- An entity that is there may not be defined again. -/
theorem refused_again {d : TypeDefinition} (hquery : d.name ≠ v.queryRoot)
    (hmutation : d.name ≠ v.mutationRoot) (hd : d.isExtension = false)
    (hbody : d.body.entity?.isSome = true) {ds : SchemaDocument} (hmem : .type d ∈ ds)
    {c : Catalog} (ht : (c.type? d.name).isSome = true) :
    ∃ e, ds.foldlM v.define c = .error e := by
  induction ds generalizing c with
  | nil => cases hmem
  | cons item rest ih =>
    rw [List.foldlM_cons]
    cases hitem : v.define c item with
    | error e => exact ⟨e, rfl⟩
    | ok c₁ =>
      rcases List.mem_cons.mp hmem with rfl | hmem
      · obtain ⟨b, hb⟩ := Option.isSome_iff_exists.mp hbody
        obtain ⟨t, ht⟩ := Option.isSome_iff_exists.mp ht
        have hfails : ∃ e, v.declare (some t) d b = .error e := by
          unfold declare
          rw [hd]
          exact ⟨_, rfl⟩
        obtain ⟨e, he⟩ := hfails
        rw [define_type, if_neg hquery, if_neg hmutation, hb, ht] at hitem
        dsimp only at hitem
        rw [he] at hitem
        cases hitem
      · exact ih hmem (type?_isSome_define hitem ht)

/-- Definitions among which an entity is defined again behind the first one are rejected. -/
theorem refused_behind {d other : TypeDefinition} {ds : SchemaDocument}
    (hquery : other.name ≠ v.queryRoot) (hmutation : other.name ≠ v.mutationRoot)
    (hname : d.name = other.name) (hbody : d.body.entity?.isSome = true)
    (hother : other.isExtension = false) (hbody' : other.body.entity?.isSome = true)
    (hmem : .type other ∈ ds) (c : Catalog) :
    ∃ e, (SchemaItem.type d :: ds).foldlM v.define c = .error e := by
  rw [List.foldlM_cons]
  cases hdefine : v.define c (.type d) with
  | error e => exact ⟨e, rfl⟩
  | ok c' =>
    have htype : (c'.type? other.name).isSome = true := by
      obtain ⟨b, hb⟩ := Option.isSome_iff_exists.mp hbody
      rw [define_type, hname, if_neg hquery, if_neg hmutation, hb] at hdefine
      obtain ⟨t, -, rfl⟩ := map_eq_ok_iff.mp hdefine
      rw [Catalog.type?, Dict.get?_insert_self]
      rfl
    exact refused_again hquery hmutation hother hbody' hmem htype

-- ================================================================= documents

/-- Of the definitions of a root, an unopposed extension may be taken into one before it. -/
theorem endAlike_root {d extension : TypeDefinition} {between : SchemaDocument}
    {b more : EntityBody} (hroot : v.IsRoot d.name)
    (hb : d.body.entity? = some b) (hmore : extension.body.entity? = some more)
    (hname : extension.name = d.name) (h : SchemaDocument.Unopposed d between extension)
    (c : Catalog) :
    v.EndAlike d.name
      ((SchemaItem.type d :: between.named d.name ++ [SchemaItem.type extension]).foldlM v.define c)
      ((SchemaItem.type (d.extendedBy more) :: between.named d.name).foldlM v.define c) := by
  have hkind : b.isInterface = more.isInterface := by
    have hsame := h.kind
    rw [hb, hmore] at hsame
    exact Option.some.inj hsame
  have hmerged := v.operations_extendedBy hb hmore hkind
  have hleft : ∀ item ∈ SchemaItem.type d :: between.named d.name ++ [SchemaItem.type extension],
      item.isNamed d.name = true := by
    intro item hitem
    rcases List.mem_append.mp hitem with hitem | hitem
    · rcases List.mem_cons.mp hitem with rfl | hitem
      · exact decide_eq_true rfl
      · exact (List.mem_filter.mp hitem).2
    · cases List.mem_singleton.mp hitem
      exact decide_eq_true hname
  have hright : ∀ item ∈ SchemaItem.type (d.extendedBy more) :: between.named d.name,
      item.isNamed d.name = true := by
    intro item hitem
    rcases List.mem_cons.mp hitem with rfl | hitem
    · exact decide_eq_true rfl
    · exact (List.mem_filter.mp hitem).2
  have hlast : v.operationsOf [.type extension]
      = (· ++ []) <$> v.operations extension.body := rfl
  have hbody : (d.extendedBy more).body = d.body.extendedBy more := rfl
  rw [foldlM_define_root hroot hleft, foldlM_define_root hroot hright, List.cons_append,
    operationsOf, operationsOf, operationsOf_append, hlast, hbody, hmerged]
  -- If a part is rejected, both are, though maybe on account of different parts.
  cases v.operations d.body with
  | error e => exact .failed
  | ok ops =>
    cases hadded : v.operations extension.body with
    | error e =>
      cases v.operationsOf (between.named d.name) with
      | error e' => exact .failed
      | ok others => exact .failed
    | ok added =>
      cases hothers : v.operationsOf (between.named d.name) with
      | error e => exact .failed
      | ok others =>
        refine .made (v.agreeOn_addOperations d.name c ?_)
        intro operations key
        have hapart : (Dict.keys others).Disjoint (Dict.keys added) := by
          intro key hkey hkey'
          obtain ⟨other, hmem, hdeclared⟩ := mem_keys_operationsOf hothers hkey
          obtain ⟨hbetween, hnamed⟩ := List.mem_filter.mp hmem
          rw [keys_operations hadded] at hkey'
          exact h.names other hbetween (of_decide_eq_true hnamed) hdeclared hkey'
        show (operations.insertAll (ops ++ (others ++ (added ++ [])))).get? key = _
        rw [List.append_nil, List.append_assoc, operations.insertAll_append ops (others ++ added),
          operations.insertAll_append ops (added ++ others)]
        exact Dict.get?_insertAll_comm _ hapart key

/-- Of the definitions of a type, an extension may be taken into the one that it extends. -/
theorem endAlike_type {d extension : TypeDefinition} {between : SchemaDocument}
    {b more : EntityBody} (hquery : d.name ≠ v.queryRoot) (hmutation : d.name ≠ v.mutationRoot)
    (hb : d.body.entity? = some b) (hmore : extension.body.entity? = some more)
    (h : SchemaDocument.FirstExtension d between extension) (c : Catalog) :
    v.EndAlike d.name
      ((SchemaItem.type d :: between.named d.name ++ [SchemaItem.type extension]).foldlM v.define c)
      ((SchemaItem.type (d.extendedBy more) :: between.named d.name).foldlM v.define c) := by
  -- where nothing between defines the entity, the extension follows its definition
  by_cases hidle : ∀ other, .type other ∈ between.named d.name → other.body.entity? = none
  · have hown : ∀ item ∈ between.named d.name, item.isNamed d.name = true := by simp
    have hbetween (c : Catalog) : (between.named d.name).foldlM v.define c = .ok c :=
      foldlM_define_idle v c hown hidle
    have happend : SchemaItem.type d :: between.named d.name ++ [SchemaItem.type extension]
        = SchemaItem.type d :: (between.named d.name ++ [SchemaItem.type extension]) := rfl
    rw [happend, List.foldlM_cons, List.foldlM_cons,
      define_extendedBy c h.name h.definition h.isExtension hb hmore hquery hmutation, bind_assoc]
    apply EndAlike.of_bind_same
    intro c₁
    rw [List.foldlM_append, hbetween]
    show v.EndAlike d.name (v.define c₁ (.type extension) >>= pure) _
    apply EndAlike.of_bind_same
    intro c₂
    rw [hbetween]
    exact .refl v d.name _
  · -- The entity is defined again: neither is accepted.
    obtain ⟨other, hidle⟩ := not_forall.mp hidle
    obtain ⟨hother, hentity⟩ := Classical.not_imp.mp hidle
    obtain ⟨hbetween, hnamed⟩ := List.mem_filter.mp hother
    have hname : other.name = d.name := of_decide_eq_true hnamed
    have hisEntity : other.body.entity?.isSome = true := Option.isSome_iff_ne_none.mpr hentity
    have hdefinition := h.first other hbetween hname hisEntity
    have hquery' : other.name ≠ v.queryRoot := hname ▸ hquery
    have hmutation' : other.name ≠ v.mutationRoot := hname ▸ hmutation
    have hbody : d.body.entity?.isSome = true := Option.isSome_iff_exists.mpr ⟨b, hb⟩
    have hbody' : (d.extendedBy more).body.entity?.isSome = true :=
      Option.isSome_iff_exists.mpr ⟨_, entity?_extendedBy hb more⟩
    obtain ⟨e, hleft⟩ := refused_behind hquery' hmutation' hname.symm hbody hdefinition hisEntity
      (List.mem_append_left [SchemaItem.type extension] hother) c
    obtain ⟨e', hright⟩ := refused_behind hquery' hmutation'
      (d := d.extendedBy more) hname.symm hbody' hdefinition hisEntity hother c
    rw [List.cons_append, hleft, hright]
    exact .failed

/-- What ends alike by itself does so among further definitions of the name. -/
theorem endAlike_within {name : String} {ds ds' : SchemaDocument} (before : SchemaDocument)
    {after : SchemaDocument} (hafter : ∀ item ∈ after, item.isNamed name = true)
    (h : ∀ c, v.EndAlike name (ds.foldlM v.define c) (ds'.foldlM v.define c)) (c : Catalog) :
    v.EndAlike name ((before ++ (ds ++ after)).foldlM v.define c)
      ((before ++ (ds' ++ after)).foldlM v.define c) := by
  rw [List.foldlM_append, List.foldlM_append]
  apply EndAlike.of_bind_same
  intro c
  rw [List.foldlM_append, List.foldlM_append]
  apply (h c).of_bind
  intro c c' hagree
  exact hagree.foldlM_define hafter

/-- Definitions of entities say nothing of the vocabulary. -/
theorem add_entity (v : Vocabulary) {d : TypeDefinition} (h : d.body.entity?.isSome = true) :
    v.add (.type d) = v := by
  obtain ⟨name, isExtension, description, body, place⟩ := d
  cases body with
  | object interfaces fields => rfl
  | interface interfaces fields => rfl
  | _ => cases h

/-- An extension may be taken into the definition that it extends, one of a root if it is
unopposed. -/
theorem rel_extendedBy {before between after : SchemaDocument} {d extension : TypeDefinition}
    {b more : EntityBody} (hb : d.body.entity? = some b)
    (hmore : extension.body.entity? = some more)
    (h : SchemaDocument.FirstExtension d between extension)
    (hroot : (ofDocument (before ++ .type d :: between ++ .type extension :: after)).IsRoot d.name →
      SchemaDocument.Unopposed d between extension) :
    Option.Rel Catalog.Reordered
      (Catalog.ofDocument (before ++ .type d :: between ++ .type extension :: after)).toOption
      (Catalog.ofDocument (before ++ .type (d.extendedBy more) :: between ++ after)).toOption := by
  -- a type of entities declares no kind of its own, so neither document has another
  have hvocabulary : ofDocument (before ++ .type d :: between ++ .type extension :: after)
      = ofDocument (before ++ .type (d.extendedBy more) :: between ++ after) := by
    have hentity := Option.isSome_iff_exists.mpr ⟨b, hb⟩
    have hentity' := Option.isSome_iff_exists.mpr ⟨more, hmore⟩
    have hentity'' : (d.extendedBy more).body.entity?.isSome = true :=
      Option.isSome_iff_exists.mpr ⟨_, entity?_extendedBy hb more⟩
    simp only [ofDocument, List.foldl_append, List.foldl_cons, add_entity _ hentity,
      add_entity _ hentity', add_entity _ hentity'']
  apply rel_of_names
  · rw [hvocabulary]
    exact ⟨fun name => .refl _ name, rfl, rfl⟩
  · intro name c
    have hmerged : (SchemaItem.type (d.extendedBy more)).isNamed name
        = (SchemaItem.type d).isNamed name := rfl
    have hextension : (SchemaItem.type extension).isNamed name
        = (SchemaItem.type d).isNamed name := by
      rw [SchemaItem.isNamed, SchemaItem.isNamed, h.name]
    -- of another name nothing has moved
    by_cases hname : (SchemaItem.type d).isNamed name = true
    · have hapart : SchemaDocument.named
            (before ++ .type d :: between ++ .type extension :: after) name
          = before.named name ++ ((.type d :: between.named name ++ [.type extension])
            ++ after.named name) := by
        simp [hextension, hname]
      have htogether : SchemaDocument.named
            (before ++ .type (d.extendedBy more) :: between ++ after) name
          = before.named name ++ ((.type (d.extendedBy more) :: between.named name)
            ++ after.named name) := by
        simp [hmerged, hname]
      obtain rfl : d.name = name := of_decide_eq_true hname
      rw [hapart, htogether]
      refine endAlike_within (before.named d.name) (by simp) (fun c => ?_) c
      -- a root has the operations of all its definitions, a type what each adds in turn
      by_cases hisRoot :
          (ofDocument (before ++ .type d :: between ++ .type extension :: after)).IsRoot d.name
      · exact endAlike_root hisRoot hb hmore h.name (hroot hisRoot) c
      · obtain ⟨hquery, hmutation⟩ := not_or.mp hisRoot
        exact endAlike_type hquery hmutation hb hmore h c
    · have hsame : SchemaDocument.named
            (before ++ .type d :: between ++ .type extension :: after) name
          = SchemaDocument.named
            (before ++ .type (d.extendedBy more) :: between ++ after) name := by
        simp [hextension, hmerged, hname]
      rw [hsame]
      exact .refl _ _ _

end Vocabulary

namespace Catalog

/-- **The order of definitions does not count.** Texts whose documents have the same definitions
of every name in the same order, and the same roots, are accepted or rejected alike, and give
the same catalog, up to the order of its entries. So are texts of which one has the interfaces
and fields of an extension in the definition that it extends, provided that an extension of a
root is unopposed. Neither depends on where anything stands in the texts. -/
theorem parse_rearranged :
    (∀ {text text' d d'}, SchemaDocument.parse text = .ok d → SchemaDocument.parse text' = .ok d' →
        d.Rearranged d' → Option.Rel Reordered (parse text).toOption (parse text').toOption)
      ∧ ∀ {text text' d d' definition between extension},
        SchemaDocument.parse text = .ok d → SchemaDocument.parse text' = .ok d' →
        SchemaDocument.TakenIn definition between extension d d' →
        ((Vocabulary.ofDocument d).IsRoot definition.name →
          SchemaDocument.Unopposed definition between extension) →
          Option.Rel Reordered (parse text).toOption (parse text').toOption := by
  have hparse {text : String} {d : SchemaDocument} (hread : SchemaDocument.parse text = .ok d) :
      parse text = ofDocument d := by
    rw [parse, hread]
  constructor
  · intro text text' d d' hread hread' hrearranged
    rw [hparse hread, hparse hread']
    exact rel_of_rearranged hrearranged
  · intro text text' d d' definition between extension hread hread' htaken hroot
    cases htaken with
    | intro hbody hmore hfirst hmerged =>
      have hrel := Vocabulary.rel_extendedBy hbody hmore hfirst hroot
      rw [hparse hread, hparse hread', ← sameSuccess_unplaced d', hmerged, sameSuccess_unplaced]
      exact hrel

-- =============================================================== instances

/-- The queries, with the types that they give. -/
def queryTypes (c : Catalog) : List (String × String) :=
  c.queries.map fun (name, operation) => (name, operation.returnType.name)

/-- Catalogs with different queries do not say the same. -/
theorem not_rel_of_queryTypes {x y : Option Catalog} {types types' : List (String × String)}
    (hx : x.map queryTypes = some types) (hy : y.map queryTypes = some types')
    (hdiffer : ¬ types.Perm types') : ¬ Option.Rel Reordered x y := by
  intro hrel
  cases hrel with
  | none => cases hx
  | some h =>
    cases hx
    cases hy
    exact hdiffer (h.queries.map _)

/-- People, whose dates are declared behind them, and who get a number at last. -/
def numberedText : String :=
  "type Person \x7b born: Date! \x7d scalar Date extend type Person \x7b id: ID! \x7d"

/-- The same, with dates declared first. -/
def datesFirstText : String :=
  "scalar Date type Person \x7b born: Date! \x7d extend type Person \x7b id: ID! \x7d"

/-- The same, with the number among the other fields. -/
def numberWithinText : String :=
  "type Person \x7b born: Date!, id: ID! \x7d scalar Date"

/-- A root with two definitions, extended by an operation of its own. -/
def unopposedText : String :=
  "type Query \x7b a: Int \x7d type Query \x7b b: Int \x7d extend type Query \x7b c: Int \x7d"

/-- The same, with that operation in the first definition. -/
def unopposedWithinText : String :=
  "type Query \x7b a: Int, c: Int \x7d type Query \x7b b: Int \x7d"

/-- A root with two definitions, of which the extension replaces an operation. -/
def opposedText : String :=
  "type Query \x7b a: Int \x7d type Query \x7b b: Int \x7d extend type Query \x7b b: ID \x7d"

/-- The same, with the operation in the first definition, where the second one replaces it. -/
def opposedWithinText : String :=
  "type Query \x7b a: Int, b: ID \x7d type Query \x7b b: Int \x7d"

/-- A root, and an extension that has no operations, since it says that the root is an
interface. -/
def mixedText : String := "type Query \x7b a: Int \x7d extend interface Query \x7b b: Int \x7d"

/-- The same, with the field in the definition. -/
def mixedWithinText : String := "type Query \x7b a: Int, b: Int \x7d"

end Catalog

namespace FieldDefinition

/-- A field with nothing but a type. -/
def ofType (type : TypeReference) (name : String) (place : Position) : FieldDefinition :=
  ⟨name, type, [], [], none, place⟩

def born (place : Position) : FieldDefinition := .ofType (.named "Date" true) "born" place

def number (place : Position) : FieldDefinition := .ofType (.named "ID" true) "id" place

/-- An operation that gives an integer. -/
def int (name : String) (place : Position) : FieldDefinition :=
  .ofType (.named "Int" false) name place

end FieldDefinition

namespace TypeDefinition

def person (fields : List FieldDefinition) (place : Position) : TypeDefinition :=
  ⟨"Person", false, none, .object [] fields, place⟩

def date (place : Position) : TypeDefinition := ⟨"Date", false, none, .scalar, place⟩

def morePerson (fields : List FieldDefinition) (place : Position) : TypeDefinition :=
  ⟨"Person", true, none, .object [] fields, place⟩

def query (fields : List FieldDefinition) (place : Position) : TypeDefinition :=
  ⟨"Query", false, none, .object [] fields, place⟩

def moreQuery (body : TypeBody) (place : Position) : TypeDefinition :=
  ⟨"Query", true, none, body, place⟩

end TypeDefinition

namespace SchemaDocument

open FieldDefinition TypeDefinition

/-- What is read of the texts for people. -/
theorem parse_numbered :
    parse Catalog.numberedText = .ok [.type (person [born ⟨1, 15⟩] ⟨1, 1⟩), .type (date ⟨1, 29⟩),
        .type (morePerson [number ⟨1, 62⟩] ⟨1, 41⟩)]
      ∧ parse Catalog.datesFirstText = .ok [.type (date ⟨1, 1⟩),
        .type (person [born ⟨1, 27⟩] ⟨1, 13⟩), .type (morePerson [number ⟨1, 62⟩] ⟨1, 41⟩)]
      ∧ parse Catalog.numberWithinText = .ok [
        .type (person [born ⟨1, 15⟩, number ⟨1, 28⟩] ⟨1, 1⟩), .type (date ⟨1, 38⟩)] := by
  refine ⟨?_, ?_, ?_⟩
  · decide +kernel
  · decide +kernel
  · decide +kernel

/-- What is read of the texts for a root with an operation of its own. -/
theorem parse_unopposed :
    parse Catalog.unopposedText = .ok [.type (query [int "a" ⟨1, 14⟩] ⟨1, 1⟩),
        .type (query [int "b" ⟨1, 36⟩] ⟨1, 23⟩),
        .type (moreQuery (.object [] [int "c" ⟨1, 65⟩]) ⟨1, 45⟩)]
      ∧ parse Catalog.unopposedWithinText = .ok [
        .type (query [int "a" ⟨1, 14⟩, int "c" ⟨1, 22⟩] ⟨1, 1⟩),
        .type (query [int "b" ⟨1, 44⟩] ⟨1, 31⟩)] := by
  constructor
  · decide +kernel
  · decide +kernel

/-- What is read of the texts for a root whose operation is replaced. -/
theorem parse_opposed :
    parse Catalog.opposedText = .ok [.type (query [int "a" ⟨1, 14⟩] ⟨1, 1⟩),
        .type (query [int "b" ⟨1, 36⟩] ⟨1, 23⟩),
        .type (moreQuery (.object [] [ofType (.named "ID" false) "b" ⟨1, 65⟩]) ⟨1, 45⟩)]
      ∧ parse Catalog.opposedWithinText = .ok [
        .type (query [int "a" ⟨1, 14⟩, ofType (.named "ID" false) "b" ⟨1, 22⟩] ⟨1, 1⟩),
        .type (query [int "b" ⟨1, 43⟩] ⟨1, 30⟩)] := by
  constructor
  · decide +kernel
  · decide +kernel

/-- What is read of the texts for a root that is called an interface. -/
theorem parse_mixed :
    parse Catalog.mixedText = .ok [.type (query [int "a" ⟨1, 14⟩] ⟨1, 1⟩),
        .type (moreQuery (.interface [] [int "b" ⟨1, 48⟩]) ⟨1, 23⟩)]
      ∧ parse Catalog.mixedWithinText = .ok [
        .type (query [int "a" ⟨1, 14⟩, int "b" ⟨1, 22⟩] ⟨1, 1⟩)] := by
  constructor
  · decide +kernel
  · decide +kernel

/-- An extension with none between a definition and it is the first one. -/
theorem firstExtension_of_between {d extension : TypeDefinition} {between : SchemaDocument}
    (hname : extension.name = d.name) (hd : d.isExtension = false)
    (hextension : extension.isExtension = true)
    (hbetween : ∀ other, .type other ∈ between → other.isExtension = false) :
    FirstExtension d between extension :=
  ⟨hname, hd, hextension, fun other hmem _ _ => hbetween other hmem⟩

end SchemaDocument

namespace Catalog

open FieldDefinition TypeDefinition
open SchemaDocument (TakenIn)

/-- The texts are accepted, and all three give the same. So do those with two definitions of
a root. -/
theorem parse_rearranged_people :
    (parse numberedText).toOption.isSome = true
      ∧ Option.Rel Reordered (parse numberedText).toOption (parse datesFirstText).toOption
      ∧ Option.Rel Reordered (parse numberedText).toOption (parse numberWithinText).toOption
      ∧ Option.Rel Reordered (parse unopposedText).toOption
        (parse unopposedWithinText).toOption := by
  obtain ⟨hnumbered, hdatesFirst, hwithin⟩ := SchemaDocument.parse_numbered
  obtain ⟨hrearranged, hextended⟩ := parse_rearranged
  refine ⟨by decide +kernel, ?_, ?_, ?_⟩
  · refine hrearranged hnumbered hdatesFirst ⟨?_, rfl⟩
    intro name
    by_cases hperson : "Person" = name
    · subst hperson
      rfl
    · by_cases hdate : "Date" = name
      · subst hdate
        rfl
      · simp [SchemaDocument.unplaced, SchemaItem.unplaced, TypeDefinition.unplaced,
          SchemaItem.isNamed, person, date, morePerson, hperson, hdate]
  · have hbetween (other : TypeDefinition) (hmem : .type other ∈ [SchemaItem.type (date ⟨1, 29⟩)]) :
        other.isExtension = false := by
      cases List.mem_singleton.mp hmem
      rfl
    have htaken : TakenIn (person [born ⟨1, 15⟩] ⟨1, 1⟩) [.type (date ⟨1, 29⟩)]
        (morePerson [number ⟨1, 62⟩] ⟨1, 41⟩)
        ([] ++ .type (person [born ⟨1, 15⟩] ⟨1, 1⟩) :: [.type (date ⟨1, 29⟩)]
          ++ .type (morePerson [number ⟨1, 62⟩] ⟨1, 41⟩) :: [])
        [.type (person [born ⟨1, 15⟩, number ⟨1, 28⟩] ⟨1, 1⟩), .type (date ⟨1, 38⟩)] :=
      .intro rfl rfl (SchemaDocument.firstExtension_of_between rfl rfl rfl hbetween) rfl
    refine hextended hnumbered hwithin htaken ?_
    -- the type of people is no root
    rintro (hroot | hroot)
    · exact absurd hroot (by decide)
    · exact absurd hroot (by decide)
  · have hbetween (other : TypeDefinition)
        (hmem : .type other ∈ [SchemaItem.type (query [int "b" ⟨1, 36⟩] ⟨1, 23⟩)]) :
        other = query [int "b" ⟨1, 36⟩] ⟨1, 23⟩ := by
      cases List.mem_singleton.mp hmem
      rfl
    have htaken : TakenIn (query [int "a" ⟨1, 14⟩] ⟨1, 1⟩)
        [.type (query [int "b" ⟨1, 36⟩] ⟨1, 23⟩)]
        (moreQuery (.object [] [int "c" ⟨1, 65⟩]) ⟨1, 45⟩)
        ([] ++ .type (query [int "a" ⟨1, 14⟩] ⟨1, 1⟩) ::
          [.type (query [int "b" ⟨1, 36⟩] ⟨1, 23⟩)]
          ++ .type (moreQuery (.object [] [int "c" ⟨1, 65⟩]) ⟨1, 45⟩) :: [])
        [.type (query [int "a" ⟨1, 14⟩, int "c" ⟨1, 22⟩] ⟨1, 1⟩),
          .type (query [int "b" ⟨1, 44⟩] ⟨1, 31⟩)] :=
      .intro rfl rfl (SchemaDocument.firstExtension_of_between rfl rfl rfl
        fun other hmem => hbetween other hmem ▸ rfl) rfl
    obtain ⟨hunopposed, hwithin⟩ := SchemaDocument.parse_unopposed
    -- it is a root, and the definition between declares no field of the extension
    refine hextended hunopposed hwithin htaken fun _ => ⟨rfl, fun other hmem _ => ?_⟩
    cases hbetween other hmem
    exact List.singleton_disjoint.mpr (by decide)

/-- An extension of a root may not always be taken into a definition before it: neither where
both are of the same kind, nor where nothing stands between them. -/
theorem not_parse_rearranged :
    (¬ ∀ {text text' d d' definition between extension},
        SchemaDocument.parse text = .ok d → SchemaDocument.parse text' = .ok d' →
        TakenIn definition between extension d d' →
        definition.body.entity?.map (·.isInterface) = extension.body.entity?.map (·.isInterface) →
          Option.Rel Reordered (parse text).toOption (parse text').toOption)
      ∧ ¬ ∀ {text text' d d' definition extension},
        SchemaDocument.parse text = .ok d → SchemaDocument.parse text' = .ok d' →
        TakenIn definition [] extension d d' →
          Option.Rel Reordered (parse text).toOption (parse text').toOption := by
  constructor
  -- the definition between declares `b` too, and what is taken in comes before it
  · intro h
    obtain ⟨hread, hread'⟩ := SchemaDocument.parse_opposed
    have hbetween (other : TypeDefinition)
        (hmem : .type other ∈ [SchemaItem.type (query [int "b" ⟨1, 36⟩] ⟨1, 23⟩)]) :
        other.isExtension = false := by
      cases List.mem_singleton.mp hmem
      rfl
    have htaken : TakenIn (query [int "a" ⟨1, 14⟩] ⟨1, 1⟩)
        [.type (query [int "b" ⟨1, 36⟩] ⟨1, 23⟩)]
        (moreQuery (.object [] [ofType (.named "ID" false) "b" ⟨1, 65⟩]) ⟨1, 45⟩)
        ([] ++ .type (query [int "a" ⟨1, 14⟩] ⟨1, 1⟩) ::
          [.type (query [int "b" ⟨1, 36⟩] ⟨1, 23⟩)]
          ++ .type (moreQuery (.object [] [ofType (.named "ID" false) "b" ⟨1, 65⟩]) ⟨1, 45⟩) :: [])
        [.type (query [int "a" ⟨1, 14⟩, ofType (.named "ID" false) "b" ⟨1, 22⟩] ⟨1, 1⟩),
          .type (query [int "b" ⟨1, 43⟩] ⟨1, 30⟩)] :=
      .intro rfl rfl (SchemaDocument.firstExtension_of_between rfl rfl rfl hbetween) rfl
    have hextended : (parse opposedText).toOption.map queryTypes
        = some [("a", "Int"), ("b", "ID")] := by
      rw [parse, hread]
      decide
    have hwithin : (parse opposedWithinText).toOption.map queryTypes
        = some [("a", "Int"), ("b", "Int")] := by
      rw [parse, hread']
      decide
    exact not_rel_of_queryTypes hextended hwithin (by decide) (h hread hread' htaken rfl)
  -- an interface declares no operations, whatever its name
  · intro h
    obtain ⟨hread, hread'⟩ := SchemaDocument.parse_mixed
    have htaken : TakenIn (query [int "a" ⟨1, 14⟩] ⟨1, 1⟩) []
        (moreQuery (.interface [] [int "b" ⟨1, 48⟩]) ⟨1, 23⟩)
        ([] ++ .type (query [int "a" ⟨1, 14⟩] ⟨1, 1⟩) :: []
          ++ .type (moreQuery (.interface [] [int "b" ⟨1, 48⟩]) ⟨1, 23⟩) :: [])
        [.type (query [int "a" ⟨1, 14⟩, int "b" ⟨1, 22⟩] ⟨1, 1⟩)] :=
      .intro rfl rfl (SchemaDocument.firstExtension_of_between rfl rfl rfl
        fun other hmem => absurd hmem List.not_mem_nil) rfl
    have hextended : (parse mixedText).toOption.map queryTypes = some [("a", "Int")] := by
      rw [parse, hread]
      decide
    have hwithin : (parse mixedWithinText).toOption.map queryTypes
        = some [("a", "Int"), ("b", "Int")] := by
      rw [parse, hread']
      decide
    exact not_rel_of_queryTypes hextended hwithin (by decide) (h hread hread' htaken)

end Catalog

end PropertyGraphQL
