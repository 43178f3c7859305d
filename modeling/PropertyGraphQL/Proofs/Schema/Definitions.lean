/-
What the definitions of a document make of a catalog.

A definition of a root type adds operations, one of another object or
interface type adds to the type of its name, and all others add nothing
(`Defines`). Taken one after the other they keep the catalog well formed, no
type stands under the name of a root, and the nodes of a type are identified
by the first of its fields that can, over all definitions of the type in the
order of the document (`Gathered`).
-/
import PropertyGraphQL.Proofs.Compile.Success
import PropertyGraphQL.Proofs.Schema.Vocabulary
import PropertyGraphQL.Proofs.Schema.WellFormed

namespace PropertyGraphQL

-- ================================================================= bodies

/-- What is said of an object or interface type. -/
structure EntityBody where
  isInterface : Bool
  interfaces : List String
  fields : List FieldDefinition

/-- An object or interface type. -/
def TypeBody.entity? : TypeBody → Option EntityBody
  | .object interfaces fields => some ⟨false, interfaces, fields⟩
  | .interface interfaces fields => some ⟨true, interfaces, fields⟩
  | _ => none

/-- The fields that a definition adds to the type of a name. -/
def SchemaItem.fieldsOf (name : String) : SchemaItem → List FieldDefinition
  | .type d => if d.name = name then (d.body.entity?.map EntityBody.fields).getD [] else []
  | _ => []

/-- The fields of the type of a name, over its definition and all extensions of it. -/
def SchemaDocument.fieldsOf (d : SchemaDocument) (name : String) : List FieldDefinition :=
  d.flatMap (·.fieldsOf name)

/-- Whether a field can identify nodes: it is required, no list, stands for values, and is not
computed by a statement. -/
def FieldDefinition.identifies (isValueType : String → Bool) (f : FieldDefinition) : Bool :=
  match f.type with
  | .named name true => isValueType name && (Directive.find? f.directives "cypher").isNone
  | _ => false

namespace Vocabulary

variable {v : Vocabulary}

-- ================================================================== fields

/-- Whether a name stands for values. -/
def isValueType (v : Vocabulary) (name : String) : Bool := v.kind name ≠ .object

/-- A field has a statement of its own exactly if there is a directive for it. -/
theorem customStatement?_isNone {directives : List Directive} {custom : Option CustomStatement}
    (h : Directive.customStatement? directives = .ok custom) :
    custom.isNone = (Directive.find? directives "cypher").isNone := by
  unfold Directive.customStatement? at h
  cases hfind : Directive.find? directives "cypher" with
  | none =>
    rw [hfind] at h
    cases h
    rfl
  | some d =>
    rw [hfind] at h
    obtain ⟨text, -, h⟩ := bind_eq_ok_iff.mp h
    cases text with
    | none => cases h
    | some statement =>
      obtain ⟨parameters, -, h⟩ := bind_eq_ok_iff.mp h
      obtain ⟨passThrough, -, h⟩ := bind_eq_ok_iff.mp h
      cases h
      rfl

/-- What is said of a field that identifies nodes is what is checked of its type and directives. -/
theorem identifies_eq (v : Vocabulary) (f : FieldDefinition) :
    f.identifies v.isValueType
      = ((v.fieldType f.type).isBasic && (v.fieldType f.type).required
        && !(v.fieldType f.type).isList && (Directive.find? f.directives "cypher").isNone) := by
  unfold FieldDefinition.identifies
  cases f.type with
  | named name nonNull =>
    cases nonNull with
    | true => simp [fieldType, marked, FieldType.named, FieldType.nonNull, FieldType.isBasic,
        isValueType]
    | false => simp [fieldType, marked]
  | list element nonNull =>
    cases nonNull with
    | true => simp [fieldType, marked, FieldType.list, FieldType.nonNull]
    | false => simp [fieldType, marked]

/-- What a field adds to a type: a property, which identifies the nodes if it is the first that
can, or a relationship. -/
inductive AddsField (v : Vocabulary) (t : EntityType) (f : FieldDefinition) : EntityType → Prop
  | property {p : PropertyField} {t' : EntityType} (hname : p.name = f.name)
      (hbasic : p.type.isBasic = true) (hadd : t.addProperty p = .ok t')
      (hidentifies : f.identifies v.isValueType = false) : AddsField v t f t'
  | identifying {p : PropertyField} {t' : EntityType} (hname : p.name = f.name)
      (hbasic : p.type.isBasic = true) (hadd : t.addProperty p = .ok t')
      (hidentifies : f.identifies v.isValueType = true) (hstored : p.isStored = true) :
      AddsField v t f (t'.registerIdProperty f.name).2
  | relationship {r : RelationshipField} {t' : EntityType} (hname : r.name = f.name)
      (hmerge : t.mergeRelationship r = .ok t')
      (hidentifies : f.identifies v.isValueType = false) : AddsField v t f t'

/-- What succeeds does not look at its place. -/
theorem atPlace_eq_ok {α : Type} {place : Position} {x : Except ModelError α} {a : α}
    (h : atPlace place x = .ok a) : x = .ok a := by
  cases x with
  | ok b => exact congrArg Except.ok (Except.ok.inj h)
  | error e => cases h

/-- A field that is accepted adds a property, a property that identifies nodes, or a
relationship. -/
theorem addsField_of_addField {t t' : EntityType} {f : FieldDefinition}
    (h : v.addField t f = .ok t') : v.AddsField t f t' := by
  obtain ⟨custom, hcustom, h⟩ := bind_eq_ok_iff.mp h
  have hnone := customStatement?_isNone hcustom
  have hidentifies := v.identifies_eq f
  split at h
  · next hbasic =>
    obtain ⟨default, -, h⟩ := bind_eq_ok_iff.mp h
    obtain ⟨t₁, hadd, h⟩ := bind_eq_ok_iff.mp h
    have hadd := atPlace_eq_ok hadd
    rw [hbasic, Bool.true_and, ← hnone] at hidentifies
    split at h
    · next hcan =>
      cases h
      refine .identifying rfl hbasic hadd (hidentifies.trans hcan) ?_
      exact (Bool.and_eq_true_iff.mp hcan).2
    · next hcan =>
      cases h
      exact .property rfl hbasic hadd (hidentifies.trans (Bool.eq_false_iff.mpr hcan))
  · next hbasic =>
    obtain ⟨⟨relationshipType, direction⟩, -, h⟩ := bind_eq_ok_iff.mp h
    rw [Bool.eq_false_iff.mpr hbasic] at hidentifies
    exact .relationship rfl (atPlace_eq_ok h) hidentifies

/-- What is said of a type after a field: the name stays, it is well formed if it was before,
and it is identified as before or by the field. -/
theorem AddsField.invariant {t t' : EntityType} {f : FieldDefinition} (h : v.AddsField t f t') :
    t'.name = t.name ∧ (t.WellFormed → t'.WellFormed)
      ∧ t'.idProperty
        = t.idProperty.or (if f.identifies v.isValueType then some f.name else none) := by
  cases h with
  | property hname hbasic hadd hidentifies =>
    refine ⟨?_, fun ht => ht.addProperty hbasic hadd, ?_⟩
    · obtain ⟨-, -, rfl⟩ := EntityType.addProperty_eq_ok_iff.mp hadd
      rfl
    · obtain ⟨-, -, rfl⟩ := EntityType.addProperty_eq_ok_iff.mp hadd
      simp [hidentifies]
  | @identifying p t₁ hname hbasic hadd hidentifies hstored =>
    refine ⟨?_, ?_, ?_⟩
    · obtain ⟨-, -, rfl⟩ := EntityType.addProperty_eq_ok_iff.mp hadd
      exact EntityType.name_registerIdProperty _ f.name
    -- the property has just been added, so it may identify the nodes
    · intro ht
      refine (ht.addProperty hbasic hadd).registerIdProperty ?_ hstored
      obtain ⟨-, -, rfl⟩ := EntityType.addProperty_eq_ok_iff.mp hadd
      rw [← hname]
      exact Dict.get?_insert_self _ _ _
    · obtain ⟨-, -, rfl⟩ := EntityType.addProperty_eq_ok_iff.mp hadd
      unfold EntityType.registerIdProperty
      -- an identity that is there already stays
      cases hid : t.idProperty with
      | some key => simp
      | none => simp [hidentifies]
  | relationship hname hmerge hidentifies =>
    obtain ⟨-, r', -, rfl⟩ := EntityType.mergeRelationship_eq_ok hmerge
    refine ⟨rfl, fun ht => ht.mergeRelationship hmerge, ?_⟩
    simp [hidentifies]

/-- Fields keep the name of a type and what is well formed, and the first of them that can
identifies the nodes. -/
theorem foldlM_addField {t t' : EntityType} {fields : List FieldDefinition}
    (h : fields.foldlM v.addField t = .ok t') :
    t'.name = t.name ∧ (t.WellFormed → t'.WellFormed)
      ∧ t'.idProperty
        = t.idProperty.or ((fields.find? (·.identifies v.isValueType)).map (·.name)) := by
  induction fields generalizing t with
  | nil =>
    cases h
    simp
  | cons f rest ih =>
    rw [List.foldlM_cons] at h
    obtain ⟨t₁, hf, hrest⟩ := bind_eq_ok_iff.mp h
    obtain ⟨hname, hwell, hid⟩ := (addsField_of_addField hf).invariant
    obtain ⟨hname', hwell', hid'⟩ := ih hrest
    refine ⟨hname'.trans hname, fun ht => hwell' (hwell ht), ?_⟩
    rw [hid', hid, Option.or_assoc]
    by_cases hidentifies : f.identifies v.isValueType = true
    · simp [hidentifies]
    · simp [hidentifies]

-- ============================================================= definitions

/-- The type of a name with what a definition of it adds. -/
def declare (v : Vocabulary) (t? : Option EntityType) (d : TypeDefinition) (body : EntityBody) :
    Except SchemaError EntityType := do
  if !d.isExtension && t?.isSome then
    throw (.model (.duplicateType d.name) d.place)
  body.fields.foldlM v.addField <| body.interfaces.foldl EntityType.addLabel <|
    t?.getD
      { EntityType.blank d.name with isInterface := body.isInterface, description := d.description }

/-- An entity is added by declaring its type. -/
theorem addEntity_eq (v : Vocabulary) (c : Catalog) (d : TypeDefinition) (body : EntityBody) :
    v.addEntity c d body.isInterface body.interfaces body.fields
      = (fun t => { c with types := c.types.insert d.name t })
          <$> v.declare (c.type? d.name) d body := by
  have hcontains : c.types.contains d.name = (c.type? d.name).isSome := rfl
  unfold addEntity declare
  rw [hcontains]
  split
  · rfl
  · exact (map_eq_pure_bind _ _).symm

/-- What the definition of a type does: it adds operations if the type is a root, and declares a
type if it is an entity. -/
theorem define_type (v : Vocabulary) (c : Catalog) (d : TypeDefinition) :
    v.define c (.type d)
      = if d.name = v.queryRoot then
          (fun ops => { c with queries := c.queries.insertAll ops }) <$> v.operations d.body
        else if d.name = v.mutationRoot then
          (fun ops => { c with mutations := c.mutations.insertAll ops }) <$> v.operations d.body
        else
          match d.body.entity? with
          | some body =>
              (fun t => { c with types := c.types.insert d.name t })
                <$> v.declare (c.type? d.name) d body
          | none => .ok c := by
  show (if d.name = v.queryRoot then _ else if d.name = v.mutationRoot then _ else _) = _
  by_cases hquery : d.name = v.queryRoot
  · rw [if_pos hquery, if_pos hquery]
    exact (map_eq_pure_bind _ _).symm
  · rw [if_neg hquery, if_neg hquery]
    by_cases hmutation : d.name = v.mutationRoot
    · rw [if_pos hmutation, if_pos hmutation]
      exact (map_eq_pure_bind _ _).symm
    · rw [if_neg hmutation, if_neg hmutation]
      cases hbody : d.body with
      | object interfaces fields => exact v.addEntity_eq c d ⟨false, interfaces, fields⟩
      | interface interfaces fields => exact v.addEntity_eq c d ⟨true, interfaces, fields⟩
      | scalar => rfl
      | enum values => rfl
      | other => rfl

/-- What a definition makes of a catalog. -/
inductive Defines (v : Vocabulary) (c : Catalog) : SchemaItem → Catalog → Prop
  /-- Fields of the root of queries. -/
  | queries {d : TypeDefinition} {ops : List (String × RootOperation)}
      (hname : d.name = v.queryRoot) (hops : v.operations d.body = .ok ops) :
      Defines v c (.type d) { c with queries := c.queries.insertAll ops }
  /-- Fields of the root of mutations. -/
  | mutations {d : TypeDefinition} {ops : List (String × RootOperation)}
      (hquery : d.name ≠ v.queryRoot) (hname : d.name = v.mutationRoot)
      (hops : v.operations d.body = .ok ops) :
      Defines v c (.type d) { c with mutations := c.mutations.insertAll ops }
  | entity {d : TypeDefinition} {body : EntityBody} {t : EntityType}
      (hquery : d.name ≠ v.queryRoot) (hmutation : d.name ≠ v.mutationRoot)
      (hbody : d.body.entity? = some body) (ht : v.declare (c.type? d.name) d body = .ok t) :
      Defines v c (.type d) { c with types := c.types.insert d.name t }
  | nothing {item : SchemaItem}
      (hfields : ∀ name, name ≠ v.queryRoot → name ≠ v.mutationRoot → item.fieldsOf name = []) :
      Defines v c item c

/-- A definition that is accepted does one of these things. -/
theorem defines_of_define {c c' : Catalog} {item : SchemaItem} (h : v.define c item = .ok c') :
    v.Defines c item c' := by
  cases item with
  | roots query mutation =>
    cases h
    exact .nothing fun _ _ _ => rfl
  | directive =>
    cases h
    exact .nothing fun _ _ _ => rfl
  | type d =>
    rw [define_type] at h
    -- the name decides, and the query root comes first
    split at h
    · next hname =>
      obtain ⟨ops, hops, rfl⟩ := map_eq_ok_iff.mp h
      exact .queries hname hops
    · next hquery =>
      split at h
      · next hname =>
        obtain ⟨ops, hops, rfl⟩ := map_eq_ok_iff.mp h
        exact .mutations hquery hname hops
      · next hmutation =>
        cases hbody : d.body.entity? with
        | some body =>
          rw [hbody] at h
          obtain ⟨t, ht, rfl⟩ := map_eq_ok_iff.mp h
          exact .entity hquery hmutation hbody ht
        | none =>
          rw [hbody] at h
          cases h
          refine .nothing fun name _ _ => ?_
          simp [SchemaItem.fieldsOf, hbody]

/-- A definition keeps the name of the type, adds its fields, and leaves the type well formed. -/
theorem declare_eq_ok {t? : Option EntityType} {d : TypeDefinition} {body : EntityBody}
    {t : EntityType} (hnamed : ∀ t₀, t? = some t₀ → t₀.name = d.name ∧ t₀.WellFormed)
    (h : v.declare t? d body = .ok t) :
    t.name = d.name ∧ t.WellFormed
      ∧ t.idProperty = (t?.bind EntityType.idProperty).or
          ((body.fields.find? (·.identifies v.isValueType)).map (·.name)) := by
  unfold declare at h
  split at h
  · cases h
  · cases t? with
    | some t₀ =>
      obtain ⟨hname₀, hwell₀⟩ := hnamed t₀ rfl
      have hlabelled := hwell₀.addLabels body.interfaces
      obtain ⟨labels, heq⟩ := t₀.addLabels_eq body.interfaces
      obtain ⟨hname, hwell, hid⟩ := foldlM_addField h
      simp only [Option.getD_some, heq] at hname hwell hid hlabelled
      exact ⟨hname.trans hname₀, hwell hlabelled, hid⟩
    | none =>
      have hlabelled := (EntityType.wellFormed_blank d.name body.isInterface
        d.description).addLabels body.interfaces
      obtain ⟨labels, heq⟩ := EntityType.addLabels_eq
        { EntityType.blank d.name with
          isInterface := body.isInterface, description := d.description } body.interfaces
      obtain ⟨hname, hwell, hid⟩ := foldlM_addField h
      simp only [Option.getD_none, heq] at hname hwell hid hlabelled
      exact ⟨hname, hwell hlabelled, hid⟩

-- ================================================================ documents

/-- A catalog that comes from definitions taken so far. -/
structure Gathered (v : Vocabulary) (d : SchemaDocument) (c : Catalog) : Prop where
  wellFormed : c.WellFormed
  queryRoot : c.type? v.queryRoot = none
  mutationRoot : c.type? v.mutationRoot = none
  identified : ∀ name, name ≠ v.queryRoot → name ≠ v.mutationRoot →
    (c.type? name).bind EntityType.idProperty
      = ((d.fieldsOf name).find? (·.identifies v.isValueType)).map (·.name)

/-- A root is not among the types. -/
theorem Gathered.ne_roots {d : SchemaDocument} {c : Catalog} (h : v.Gathered d c) {name : String}
    {t : EntityType} (ht : c.type? name = some t) : name ≠ v.queryRoot ∧ name ≠ v.mutationRoot := by
  constructor
  · rintro rfl
    cases ht.symm.trans h.queryRoot
  · rintro rfl
    cases ht.symm.trans h.mutationRoot

/-- What has been gathered from a document goes on with its next definition. -/
theorem Gathered.define {d : SchemaDocument} {c c' : Catalog} {item : SchemaItem}
    (h : v.Gathered d c) (hdefine : v.define c item = .ok c') : v.Gathered (d ++ [item]) c' := by
  have hfields (name : String) :
      SchemaDocument.fieldsOf (d ++ [item]) name = d.fieldsOf name ++ item.fieldsOf name := by
    simp [SchemaDocument.fieldsOf]
  -- what gives no fields to a type changes no identity
  have hidle (hitem : ∀ name, name ≠ v.queryRoot → name ≠ v.mutationRoot →
      item.fieldsOf name = []) : ∀ name, name ≠ v.queryRoot → name ≠ v.mutationRoot →
        (c.type? name).bind EntityType.idProperty
          = ((SchemaDocument.fieldsOf (d ++ [item]) name).find?
              (·.identifies v.isValueType)).map (·.name) := by
    intro name hquery hmutation
    rw [hfields, hitem name hquery hmutation, List.append_nil]
    exact h.identified name hquery hmutation
  cases defines_of_define hdefine with
  | @queries d' ops hname hops =>
    refine ⟨⟨h.wellFormed.types_nodup, h.wellFormed.type⟩, h.queryRoot, h.mutationRoot,
      hidle fun name hquery _ => ?_⟩
    have hne : d'.name ≠ name := hname ▸ hquery.symm
    simp [SchemaItem.fieldsOf, hne]
  | @mutations d' ops hquery hname hops =>
    refine ⟨⟨h.wellFormed.types_nodup, h.wellFormed.type⟩, h.queryRoot, h.mutationRoot,
      hidle fun name _ hmutation => ?_⟩
    have hne : d'.name ≠ name := hname ▸ hmutation.symm
    simp [SchemaItem.fieldsOf, hne]
  | @entity d' body t hquery hmutation hbody ht =>
    obtain ⟨hname, hwell, hid⟩ := declare_eq_ok (fun t₀ => h.wellFormed.type) ht
    refine ⟨?_, ?_, ?_, ?_⟩
    · rw [← hname]
      exact h.wellFormed.insert hwell
    · rw [Catalog.type?, Dict.get?_insert, if_neg hquery]
      exact h.queryRoot
    · rw [Catalog.type?, Dict.get?_insert, if_neg hmutation]
      exact h.mutationRoot
    · intro name hquery' hmutation'
      rw [hfields, List.find?_append, Catalog.type?, Dict.get?_insert]
      -- the fields of the type itself come behind those it has
      by_cases hsame : d'.name = name
      · subst hsame
        have hbefore := h.identified d'.name hquery hmutation
        rw [hbefore] at hid
        simp [SchemaItem.fieldsOf, hbody, hid, Option.map_or]
      · rw [if_neg hsame]
        have hbefore := h.identified name hquery' hmutation'
        rw [Catalog.type?] at hbefore
        simpa [SchemaItem.fieldsOf, hsame] using hbefore
  | nothing hitem => exact ⟨h.wellFormed, h.queryRoot, h.mutationRoot, hidle hitem⟩

/-- What has been gathered from a document goes on with all further definitions. -/
theorem Gathered.foldlM_define {d more : SchemaDocument} {c c' : Catalog}
    (h : v.Gathered d c) (hdefine : more.foldlM v.define c = .ok c') :
    v.Gathered (d ++ more) c' := by
  induction more generalizing d c with
  | nil =>
    cases hdefine
    rwa [List.append_nil]
  | cons item rest ih =>
    rw [List.foldlM_cons] at hdefine
    obtain ⟨c₁, hitem, hrest⟩ := bind_eq_ok_iff.mp hdefine
    have hgathered := ih (h.define hitem) hrest
    rwa [List.append_assoc, List.singleton_append] at hgathered

/-- What a document gives is gathered from all its definitions. -/
theorem gathered_ofDocument {d : SchemaDocument} {c : Catalog}
    (h : Catalog.ofDocument d = .ok c) : (ofDocument d).Gathered d c := by
  have hempty : (ofDocument d).Gathered []
      { Catalog.empty with enums := (ofDocument d).enums } :=
    ⟨⟨List.nodup_nil, nofun⟩, rfl, rfl, fun _ _ _ => rfl⟩
  exact hempty.foldlM_define h

end Vocabulary

end PropertyGraphQL
