/-
Schemas in which no key is given twice.

An object that is read from a document replaces what a key had before, so no
value of a document has a key twice (`SourceTree.keysDistinct_value`), and neither
has anything that a catalog takes from it: the static parameters of statements
and the defaults of arguments. Arguments that are declared again replace each
other in the same way. What a relationship gains when it is observed again does not
undo this.
-/
import PropertyGraphQL.Proofs.Keys.Fields
import PropertyGraphQL.Proofs.Schema.Definitions

namespace PropertyGraphQL

-- ================================================================== values

namespace Value

theorem keysDistinct_ofNumber (j : Json) : (ofNumber j).KeysDistinct := by
  cases j with
  | _ => trivial

/-- The dictionary of any entries has distinct keys. -/
theorem keysDistinct_object {entries : List (String × Value)} (h : EntriesKeysDistinct entries) :
    (object (Dict.ofEntries entries)).KeysDistinct := by
  refine ⟨Dict.nodup_keys_ofEntries entries, (entriesKeysDistinct_iff _).mpr fun entry hentry => ?_⟩
  exact (entriesKeysDistinct_iff _).mp h entry (Dict.mem_of_mem_ofEntries hentry)

/-- As data an object has its keys. -/
theorem keys_entriesToJson (entries : List (String × Value)) :
    Dict.keys (entriesToJson entries) = Dict.keys entries := by
  induction entries with
  | nil => rfl
  | cons entry rest ih =>
    obtain ⟨key, x⟩ := entry
    rw [entriesToJson]
    exact congrArg (key :: ·) ih

mutual

/-- Data made from a value has the keys of the value. -/
theorem KeysDistinct.toJson {x : Value} (h : x.KeysDistinct) : x.toJson.KeysDistinct := by
  cases x with
  | float x =>
    rw [Value.toJson, Json.ofBinary64]
    split
    · trivial
    · trivial
  | list elems =>
    rw [Value.toJson, Json.KeysDistinct]
    exact ElemsKeysDistinct.toJson h
  | object entries =>
    rw [Value.toJson, Json.KeysDistinct, keys_entriesToJson]
    exact ⟨h.1, EntriesKeysDistinct.toJson h.2⟩
  | _ => trivial

/-- Distinct keys in elements are distinct in the data. -/
theorem ElemsKeysDistinct.toJson {elems : List Value} (h : ElemsKeysDistinct elems) :
    Json.ElemsKeysDistinct (elemsToJson elems) := by
  cases elems with
  | nil => trivial
  | cons x rest => exact ⟨KeysDistinct.toJson h.1, ElemsKeysDistinct.toJson h.2⟩

/-- Distinct keys in entries are distinct in the data. -/
theorem EntriesKeysDistinct.toJson {entries : List (String × Value)}
    (h : EntriesKeysDistinct entries) : Json.MembersKeysDistinct (entriesToJson entries) := by
  match entries with
  | [] => trivial
  | (key, x) :: rest => exact ⟨KeysDistinct.toJson h.1, EntriesKeysDistinct.toJson h.2⟩

end

end Value

/-- What is found in an object has distinct keys if all members have. -/
theorem Json.MembersKeysDistinct.get? {members : Dict Json} (h : MembersKeysDistinct members) :
    members.ValuesKeysDistinct := by
  intro name j hj
  induction members with
  | nil => cases hj
  | cons member rest ih =>
    obtain ⟨key, j'⟩ := member
    rw [Dict.get?_cons] at hj
    split at hj
    · cases hj
      exact h.1
    · exact ih h.2 hj

namespace SourceTree

mutual

/-- No value that is read has a key twice. -/
theorem keysDistinct_value (t : SourceTree) : (value t).KeysDistinct := by
  unfold value
  split
  · exact keysDistinct_value _
  · exact keysDistinct_value _
  · trivial
  · exact Value.keysDistinct_ofNumber _
  · trivial
  · trivial
  · trivial
  · exact keysDistinct_values _
  · exact keysDistinct_values _
  · exact Value.keysDistinct_object (keysDistinct_entries _)
  · exact Value.keysDistinct_object (keysDistinct_entries _)
  · trivial

/-- Values that are read have distinct keys. -/
theorem keysDistinct_values (ts : List SourceTree) : Value.ElemsKeysDistinct (values ts) := by
  match ts with
  | [] => trivial
  | t :: rest => exact ⟨keysDistinct_value t, keysDistinct_values rest⟩

/-- Entries that are read have values with distinct keys. -/
theorem keysDistinct_entries (ts : List SourceTree) : Value.EntriesKeysDistinct (entries ts) := by
  unfold entries
  split
  · trivial
  · exact ⟨keysDistinct_value _, keysDistinct_entries _⟩
  · exact keysDistinct_entries _

end

end SourceTree

-- =============================================================== documents

/-- No key is given twice in the arguments of a directive. -/
def Directive.KeysDistinct (d : Directive) : Prop :=
  ∀ a ∈ d.arguments, a.value.KeysDistinct

/-- No key is given twice in the directives of a field, or in the defaults of its
arguments. -/
structure FieldDefinition.KeysDistinct (f : FieldDefinition) : Prop where
  directives : ∀ d ∈ f.directives, d.KeysDistinct
  defaults : ∀ a ∈ f.arguments, ∀ x ∈ a.default, x.KeysDistinct

/-- No key is given twice in the fields that a definition adds. -/
def SchemaItem.KeysDistinct (item : SchemaItem) : Prop :=
  ∀ name, ∀ f ∈ item.fieldsOf name, f.KeysDistinct

namespace SourceTree

open PropertyGraphQL.Tree

/-- Directives that are read have distinct keys. -/
theorem keysDistinct_directive (t : SourceTree) : (directive t).KeysDistinct := by
  intro a ha
  obtain ⟨t', -, rfl⟩ := List.mem_map.mp ha
  unfold directiveArgument
  split
  split
  · exact keysDistinct_value _
  · trivial

/-- Fields that are read have distinct keys in their directives and defaults. -/
theorem keysDistinct_fieldDefinition (t : SourceTree) : (fieldDefinition t).KeysDistinct where
  directives d hd := by
    obtain ⟨t', -, rfl⟩ := List.mem_map.mp hd
    exact keysDistinct_directive t'
  defaults a ha x hx := by
    obtain ⟨t', -, rfl⟩ := List.mem_map.mp ha
    obtain ⟨t'', -, rfl⟩ := Option.map_eq_some_iff.mp hx
    exact keysDistinct_value t''

/-- The fields of a type that is read have distinct keys. -/
theorem keysDistinct_typeBody {t : SourceTree} {body : EntityBody}
    (h : (typeBody t).entity? = some body) : ∀ f ∈ body.fields, f.KeysDistinct := by
  have hfields : ∀ f ∈ (within .fieldsDefinition t.children).map fieldDefinition,
      f.KeysDistinct := by
    intro f hf
    obtain ⟨t', -, rfl⟩ := List.mem_map.mp hf
    exact keysDistinct_fieldDefinition t'
  unfold typeBody at h
  dsimp only at h
  split at h
  · cases h
  · cases h
    exact hfields
  · cases h
    exact hfields
  · cases h
  · cases h

/-- Whatever is defined by a document that is read has distinct keys. -/
theorem keysDistinct_schemaItem {t : SourceTree} {item : SchemaItem}
    (h : schemaItem? t = some item) : item.KeysDistinct := by
  intro name f hf
  unfold schemaItem? at h
  split at h
  · cases h
    split at hf
    · cases hf
    · next definition _ =>
      unfold SchemaItem.fieldsOf at hf
      dsimp only at hf
      split at hf
      · cases hbody : (typeBody definition).entity? with
        | none =>
          rw [show (typeDefinition definition).body = typeBody definition from rfl, hbody] at hf
          cases hf
        | some body =>
          rw [show (typeDefinition definition).body = typeBody definition from rfl, hbody] at hf
          exact keysDistinct_typeBody hbody f hf
      · cases hf
    · cases hf
  · cases h

end SourceTree

/-- A document that is read gives no key twice. -/
theorem SchemaDocument.keysDistinct_of_parse {text : String} {d : SchemaDocument}
    (h : parse text = .ok d) : ∀ item ∈ d, item.KeysDistinct := by
  obtain ⟨t, -, h⟩ := bind_eq_ok_iff.mp h
  cases h
  intro item hitem
  obtain ⟨t', -, hitem⟩ := List.mem_filterMap.mp hitem
  exact SourceTree.keysDistinct_schemaItem hitem

-- ================================================================ catalogs

namespace Directive

/-- Static parameters have distinct names and values with distinct keys. -/
theorem KeysDistinct.staticParameters {d : Directive} (hd : d.KeysDistinct)
    {parameters : Dict Json} (h : d.staticParameters = .ok parameters) :
    parameters.keys.Nodup ∧ parameters.ValuesKeysDistinct := by
  unfold Directive.staticParameters at h
  split at h
  · cases h
    refine ⟨List.nodup_nil, fun name j hj => ?_⟩
    cases hj
  · next a ha =>
    split at h
    · next entries hentries =>
      cases h
      have hvalue := hd a (List.mem_of_find?_eq_some ha)
      rw [hentries, Value.KeysDistinct] at hvalue
      rw [Value.keys_entriesToJson]
      exact ⟨hvalue.1, hvalue.2.toJson.get?⟩
    · cases h

/-- The statement that directives give has the static parameters of one of them. -/
theorem keysDistinct_customStatement? {directives : List Directive}
    (hdirectives : ∀ d ∈ directives, d.KeysDistinct) {custom : Option CustomStatement}
    (h : customStatement? directives = .ok custom) :
    ∀ statement ∈ custom, statement.KeysDistinct := by
  intro statement hstatement
  unfold customStatement? at h
  split at h
  · cases h
    cases hstatement
  · next d hd =>
    obtain ⟨text?, -, h⟩ := bind_eq_ok_iff.mp h
    cases text? with
    | none => cases h
    | some text =>
      obtain ⟨parameters, hparameters, h⟩ := bind_eq_ok_iff.mp h
      obtain ⟨passThrough, -, h⟩ := bind_eq_ok_iff.mp h
      cases h
      cases hstatement
      exact (hdirectives d (List.mem_of_find?_eq_some hd)).staticParameters hparameters

end Directive

namespace EntityType.KeysDistinct

variable {t t' : EntityType}

/-- A type without fields has no keys. -/
theorem blank (name : String) (isInterface : Bool) (description : Option String) :
    ({ EntityType.blank name with isInterface, description } : EntityType).KeysDistinct where
  property _ _ h := by cases h
  relationship _ _ h := by cases h

/-- A property may be added if its statement and its arguments have distinct keys. -/
theorem addProperty (h : t.KeysDistinct) {p : PropertyField}
    (hcustom : ∀ custom ∈ p.custom, custom.KeysDistinct)
    (harguments : DeclaredArgument.KeysDistinct p.arguments) (hadd : t.addProperty p = .ok t') :
    t'.KeysDistinct := by
  obtain ⟨-, -, rfl⟩ := addProperty_eq_ok_iff.mp hadd
  refine ⟨fun name q hq => ?_, h.relationship⟩
  rw [property?, Dict.get?_insert] at hq
  split at hq
  · cases hq
    exact ⟨hcustom, harguments⟩
  · exact h.property hq

/-- What identifies the nodes does not concern keys. -/
theorem registerIdProperty (h : t.KeysDistinct) (field : String) :
    (t.registerIdProperty field).2.KeysDistinct := by
  unfold EntityType.registerIdProperty
  split
  · exact h
  · exact ⟨h.property, h.relationship⟩

end EntityType.KeysDistinct

/-- Arguments that are added where they are new keep the keys distinct. -/
theorem DeclaredArgument.KeysDistinct.foldl_insertNew {declared more : Dict DeclaredArgument}
    (h : KeysDistinct declared) (hmore : KeysDistinct more) :
    KeysDistinct (more.foldl (fun d entry => d.insertNew entry.1 entry.2) declared) := by
  have hinsert (d : Dict DeclaredArgument) (hd : KeysDistinct d)
      (entry : String × DeclaredArgument) (hentry : ∀ j ∈ entry.2.default, j.KeysDistinct) :
      KeysDistinct (d.insertNew entry.1 entry.2) := by
    unfold Dict.insertNew
    split
    · exact hd
    · refine ⟨Dict.nodup_keys_insert hd.nodup _ _, fun other hother => ?_⟩
      rcases Dict.mem_of_mem_insert hother with rfl | hother
      · exact hentry
      · exact hd.default other hother
  have hdefault := hmore.default
  clear hmore
  induction more generalizing declared with
  | nil => exact h
  | cons entry rest ih =>
    obtain ⟨hfirst, hrest⟩ := List.forall_mem_cons.mp hdefault
    exact ih (hinsert declared h entry hfirst) hrest

/-- A relationship may be added if its statement and its arguments have distinct keys. -/
theorem EntityType.KeysDistinct.mergeRelationship {t t' : EntityType} (h : t.KeysDistinct)
    {r : RelationshipField} (hcustom : ∀ custom ∈ r.custom, custom.KeysDistinct)
    (harguments : DeclaredArgument.KeysDistinct r.arguments)
    (hmerge : t.mergeRelationship r = .ok t') : t'.KeysDistinct := by
  obtain ⟨-, r', hr', rfl⟩ := mergeRelationship_eq_ok hmerge
  refine ⟨h.property, fun name q hq => ?_⟩
  rw [relationship?, Dict.get?_insert] at hq
  split at hq
  · cases hq
    rcases hr' with rfl | ⟨existing, hexisting, rfl⟩
    · exact ⟨hcustom, harguments⟩
    · obtain ⟨hcustom', harguments'⟩ := h.relationship hexisting
      refine ⟨fun custom h => ?_, harguments'.foldl_insertNew harguments⟩
      have h : (existing.custom <|> r.custom) = some custom := h
      cases hexists : existing.custom with
      | some own =>
        rw [hexists] at h
        cases h
        exact hcustom' custom hexists
      | none =>
        rw [hexists] at h
        exact hcustom custom h
  · exact h.relationship hq

namespace Vocabulary

variable (v : Vocabulary)

/-- Declared arguments have distinct names, and defaults with distinct keys. -/
theorem keysDistinct_arguments {definitions : List ArgumentDefinition}
    (h : ∀ a ∈ definitions, ∀ x ∈ a.default, x.KeysDistinct) :
    DeclaredArgument.KeysDistinct (v.arguments definitions) where
  nodup := Dict.nodup_keys_ofEntries _
  default entry hentry j hj := by
    obtain ⟨a, ha, rfl⟩ := List.mem_map.mp (Dict.mem_of_mem_ofEntries hentry)
    obtain ⟨x, hx, rfl⟩ := Option.map_eq_some_iff.mp hj
    exact (h a ha x hx).toJson

/-- A field that is read may be added to a type. -/
theorem keysDistinct_addField {t t' : EntityType} (ht : t.KeysDistinct) {f : FieldDefinition}
    (hf : f.KeysDistinct) (h : v.addField t f = .ok t') : t'.KeysDistinct := by
  obtain ⟨custom, hcustom, h⟩ := bind_eq_ok_iff.mp h
  have hcustom := Directive.keysDistinct_customStatement? hf.directives hcustom
  have harguments := v.keysDistinct_arguments hf.defaults
  split at h
  · obtain ⟨default, -, h⟩ := bind_eq_ok_iff.mp h
    obtain ⟨t₁, hadd, h⟩ := bind_eq_ok_iff.mp h
    have hadded := ht.addProperty hcustom harguments (atPlace_eq_ok hadd)
    split at h
    · cases h
      exact hadded.registerIdProperty f.name
    · cases h
      exact hadded
  · obtain ⟨⟨relationshipType, direction⟩, -, h⟩ := bind_eq_ok_iff.mp h
    exact ht.mergeRelationship hcustom harguments (atPlace_eq_ok h)

/-- A type that is declared by fields that are read has distinct keys. -/
theorem keysDistinct_declare {t? : Option EntityType} (ht : ∀ t ∈ t?, t.KeysDistinct)
    {d : TypeDefinition} {body : EntityBody} (hbody : ∀ f ∈ body.fields, f.KeysDistinct)
    {t : EntityType} (h : v.declare t? d body = .ok t) : t.KeysDistinct := by
  have hlabels {t : EntityType} (ht : t.KeysDistinct) :
      (body.interfaces.foldl EntityType.addLabel t).KeysDistinct := by
    obtain ⟨labels, heq⟩ := t.addLabels_eq body.interfaces
    rw [heq]
    exact ⟨ht.property, ht.relationship⟩
  unfold declare at h
  split at h
  · cases h
  · refine foldlM_invariant (motive := EntityType.KeysDistinct) ?_ (hlabels ?_) h
    · exact fun f hf t t' ht hadd => v.keysDistinct_addField ht (hbody f hf) hadd
    · cases t? with
      | some t₀ => exact ht t₀ rfl
      | none => exact .blank _ _ _

/-- Each definition keeps the keys of the catalog distinct. -/
theorem keysDistinct_define {c c' : Catalog} (hc : c.KeysDistinct) {item : SchemaItem}
    (hitem : item.KeysDistinct) (h : v.define c item = .ok c') : c'.KeysDistinct := by
  cases defines_of_define h with
  | queries | mutations | nothing => exact hc
  | @entity d body t _ _ hbody ht =>
    have hfields : ∀ f ∈ body.fields, f.KeysDistinct := by
      intro f hf
      refine hitem d.name f ?_
      simp [SchemaItem.fieldsOf, hbody, hf]
    have hdeclared := v.keysDistinct_declare (fun t₀ ht₀ => hc ht₀) hfields ht
    intro name t' ht'
    rw [Catalog.type?, Dict.get?_insert] at ht'
    split at ht'
    · cases ht'
      exact hdeclared
    · exact hc ht'

end Vocabulary

/-- A catalog that is read gives no key twice. -/
theorem Catalog.keysDistinct_of_parse {text : String} {c : Catalog} (h : parse text = .ok c) :
    c.KeysDistinct := by
  unfold parse at h
  split at h
  · next d hread =>
    have hitems := SchemaDocument.keysDistinct_of_parse hread
    refine foldlM_invariant (motive := Catalog.KeysDistinct) ?_ ?_ h
    · exact fun item hitem c c' hc hdefine =>
        (Vocabulary.ofDocument d).keysDistinct_define hc (hitems item hitem) hdefine
    · intro name t ht
      cases ht
  · cases h

end PropertyGraphQL
