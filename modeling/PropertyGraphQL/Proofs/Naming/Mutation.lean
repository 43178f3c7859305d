/-
What the names of mutations stand for.

The name of a mutation is a verb, the name of a type and perhaps the name
of a relationship field, put together without a mark between them. The
verbs can be told apart (none begins another), and a type is looked up by
all that is behind the verb. What type and field together are called
(`EntityType.compoundName`) may be called so twice, though: then the first
field in the order of the catalog has the name
(`relationshipNamed?_eq_find?`), and behind `delete` a type of that name
comes before every field. So a field has its own name exactly if it leads
those that are called the same (`mutationNamed?_compoundName`).
-/
import PropertyGraphQL.Compile.Mutation
import PropertyGraphQL.Proofs.Data.Equality
import PropertyGraphQL.Proofs.Semantics.Movies

namespace PropertyGraphQL

-- =================================================================== verbs

namespace Text

/-- What is behind a beginning is found behind it. -/
theorem dropLead?_append (lead rest : String) : dropLead? (lead ++ rest) lead = some rest :=
  dropLead?_eq_some_iff.mpr rfl

/-- A text does not begin as another does whose first character is another. -/
theorem dropLead?_eq_none {s : String} (lead : String) {c d : Char} {cs ds : List Char}
    (hs : s.toList = c :: cs) (hlead : lead.toList = d :: ds) (hne : d ≠ c) :
    dropLead? s lead = none := by
  unfold dropLead?
  rw [hs, hlead, afterLead?, if_neg hne]
  rfl

end Text

-- ========================================================== compound names

namespace EntityType

/-- What the names of mutations call a relationship field of a type. -/
def compoundName (t : EntityType) (r : RelationshipField) : String :=
  t.name ++ Text.capitalize r.name

/-- The name of a type can be taken off a name, leaving that of a relationship, exactly if the
name is composed of the two. -/
theorem dropLead?_compoundName (t : EntityType) (r : RelationshipField) (name : String) :
    Text.dropLead? name t.name = some (Text.capitalize r.name) ↔ t.compoundName r = name := by
  rw [Text.dropLead?_eq_some_iff]
  exact eq_comm

end EntityType

namespace Catalog

variable {c : Catalog}

/-- All relationship fields, each with its type, in the order of the catalog. -/
def relationshipFields (c : Catalog) : List (EntityType × RelationshipField) :=
  c.types.values.flatMap fun t => t.relationships.values.map fun r => (t, r)

/-- A relationship field is the first of all that are called as it is. -/
def Leads (c : Catalog) (t : EntityType) (r : RelationshipField) : Prop :=
  ∃ before after, c.relationshipFields = before ++ (t, r) :: after
    ∧ ∀ p ∈ before, p.1.compoundName p.2 ≠ t.compoundName r

/-- Of the fields that are called by a name, the first has it. -/
theorem relationshipNamed?_eq_find? (c : Catalog) (name : String) :
    c.relationshipNamed? name
      = c.relationshipFields.find? fun p => p.1.compoundName p.2 = name := by
  unfold relationshipNamed? relationshipFields
  rw [List.find?_flatMap]
  congr 1
  funext t
  rw [List.find?_map]
  cases hrest : Text.dropLead? name t.name with
  | some rest =>
    have hiff (r : RelationshipField) :
        Text.capitalize r.name = rest ↔ t.compoundName r = name := by
      rw [← t.dropLead?_compoundName, hrest, Option.some.injEq, eq_comm]
    simp only [Option.bind_some, Function.comp_def, hiff]
  | none =>
    have hnone : t.relationships.values.find? (fun r => t.compoundName r = name) = none := by
      refine List.find?_eq_none.mpr fun r _ hr => ?_
      have hsome := (t.dropLead?_compoundName r name).mpr (of_decide_eq_true hr)
      rw [hrest] at hsome
      cases hsome
    simp only [Option.bind_none, Function.comp_def, hnone, Option.map_none]

/-- A field has its name exactly if it leads those called the same. -/
theorem relationshipNamed?_compoundName {t : EntityType} {r : RelationshipField} :
    c.relationshipNamed? (t.compoundName r) = some (t, r) ↔ c.Leads t r := by
  rw [relationshipNamed?_eq_find?, List.find?_eq_some_iff_append, Leads]
  simp only [decide_true, true_and, Bool.not_eq_true', decide_eq_false_iff_not, ne_eq]

/-- The relationship fields of a type in the catalog are fields of the catalog. -/
theorem mem_relationshipFields {t : EntityType} {r : RelationshipField}
    (ht : c.type? t.name = some t) (hr : t.relationship? r.name = some r) :
    (t, r) ∈ c.relationshipFields := by
  have htype : t ∈ c.types.values := List.mem_map_of_mem (Dict.mem_of_get? ht)
  have hfield : r ∈ t.relationships.values := List.mem_map_of_mem (Dict.mem_of_get? hr)
  exact List.mem_flatMap.mpr ⟨t, htype, List.mem_map_of_mem hfield⟩

/-- A field that no other is called like leads. -/
theorem leads_of_unique {t : EntityType} {r : RelationshipField}
    (hmem : (t, r) ∈ c.relationshipFields)
    (hunique : ∀ p ∈ c.relationshipFields,
      p.1.compoundName p.2 = t.compoundName r → p = (t, r)) : c.Leads t r := by
  have hfound : (c.relationshipFields.find? fun p =>
      p.1.compoundName p.2 = t.compoundName r).isSome = true :=
    List.find?_isSome.mpr ⟨(t, r), hmem, decide_eq_true rfl⟩
  obtain ⟨p, hp⟩ := Option.isSome_iff_exists.mp hfound
  have hname := List.find?_some hp
  obtain rfl := hunique p (List.mem_of_find?_eq_some hp) (of_decide_eq_true hname)
  exact relationshipNamed?_compoundName.mp ((relationshipNamed?_eq_find? c _).trans hp)

-- =============================================================== mutations

/-- Behind `create` stands the name of a type. -/
theorem mutationNamed?_create (name : String) :
    c.mutationNamed? ("create" ++ name) = (c.type? name).map .create := by
  unfold mutationNamed?
  rw [Text.dropLead?_append]

/-- Behind `update` stands the name of a type. -/
theorem mutationNamed?_update (name : String) :
    c.mutationNamed? ("update" ++ name) = (c.type? name).map .update := by
  have hverb : ("update" ++ name).toList = 'u' :: ("pdate".toList ++ name.toList) :=
    String.toList_append
  unfold mutationNamed?
  rw [Text.dropLead?_eq_none "create" hverb rfl (by decide),
    Text.dropLead?_append]

/-- Behind `delete` a type comes before the relationship fields. -/
theorem mutationNamed?_delete (name : String) :
    c.mutationNamed? ("delete" ++ name)
      = match c.type? name with
        | some t => some (.delete t)
        | none => (c.relationshipNamed? name).map fun p => .deleteRelationship p.1 p.2 := by
  have hverb : ("delete" ++ name).toList = 'd' :: ("elete".toList ++ name.toList) :=
    String.toList_append
  unfold mutationNamed?
  rewrite [Text.dropLead?_eq_none "create" hverb rfl (by decide),
    Text.dropLead?_eq_none "update" hverb rfl (by decide),
    Text.dropLead?_append]
  rfl

/-- Behind `add` stands the name of a relationship, composed with that of its type. -/
theorem mutationNamed?_add (name : String) :
    c.mutationNamed? ("add" ++ name)
      = (c.relationshipNamed? name).map fun p => .addRelationship p.1 p.2 := by
  have hverb : ("add" ++ name).toList = 'a' :: ("dd".toList ++ name.toList) :=
    String.toList_append
  unfold mutationNamed?
  rw [Text.dropLead?_eq_none "create" hverb rfl (by decide),
    Text.dropLead?_eq_none "update" hverb rfl (by decide),
    Text.dropLead?_eq_none "delete" hverb rfl (by decide),
    Text.dropLead?_append]

/-- `add` and the name of a relationship denote it exactly if it is the first one of that name. -/
theorem mutationNamed?_add_compoundName {t : EntityType} {r : RelationshipField} :
    c.mutationNamed? ("add" ++ t.compoundName r) = some (.addRelationship t r)
      ↔ c.Leads t r := by
  rw [mutationNamed?_add, Option.map_eq_some_iff, ← relationshipNamed?_compoundName]
  constructor
  · rintro ⟨⟨t', r'⟩, hnamed, heq⟩
    cases heq
    exact hnamed
  · intro hnamed
    exact ⟨(t, r), hnamed, rfl⟩

/-- `delete` and the name of a relationship denote it exactly if it is the first one of that
name and no type has the name. -/
theorem mutationNamed?_delete_compoundName {t : EntityType} {r : RelationshipField} :
    c.mutationNamed? ("delete" ++ t.compoundName r) = some (.deleteRelationship t r)
      ↔ c.Leads t r ∧ c.type? (t.compoundName r) = none := by
  rw [mutationNamed?_delete, ← relationshipNamed?_compoundName]
  cases htype : c.type? (t.compoundName r) with
  | some other =>
    constructor
    · intro heq
      cases heq
    · rintro ⟨-, hnone⟩
      cases hnone
  | none =>
    rw [Option.map_eq_some_iff]
    constructor
    · rintro ⟨⟨t', r'⟩, hnamed, heq⟩
      cases heq
      exact ⟨hnamed, rfl⟩
    · rintro ⟨hnamed, -⟩
      exact ⟨(t, r), hnamed, rfl⟩

/-- The names of mutations stand for what they are made of. For `create`,
`update` and `delete` with the name of a type this is always so. `add` with
what a relationship field is called stands for that field exactly if the
field leads those called the same, as it does if no other is; `delete` asks
for more, that no type has this name. -/
theorem mutationNamed?_names {t : EntityType} (ht : c.type? t.name = some t) :
    c.mutationNamed? ("create" ++ t.name) = some (.create t)
      ∧ c.mutationNamed? ("update" ++ t.name) = some (.update t)
      ∧ c.mutationNamed? ("delete" ++ t.name) = some (.delete t)
      ∧ ∀ r, t.relationship? r.name = some r →
        ((∀ p ∈ c.relationshipFields, p.1.compoundName p.2 = t.compoundName r → p = (t, r))
            → c.Leads t r)
          ∧ (c.mutationNamed? ("add" ++ t.compoundName r) = some (.addRelationship t r)
            ↔ c.Leads t r)
          ∧ (c.mutationNamed? ("delete" ++ t.compoundName r) = some (.deleteRelationship t r)
            ↔ c.Leads t r ∧ c.type? (t.compoundName r) = none) := by
  refine ⟨?_, ?_, ?_, fun r hr => ⟨?_, ?_, ?_⟩⟩
  · rw [mutationNamed?_create, ht]
    rfl
  · rw [mutationNamed?_update, ht]
    rfl
  · rw [mutationNamed?_delete, ht]
  · exact leads_of_unique (mem_relationshipFields ht hr)
  · exact mutationNamed?_add_compoundName
  · exact mutationNamed?_delete_compoundName

/-- People and movies, and a type that is called as the movies of people are. -/
def namesakes : Catalog :=
  { movies with types := movies.types ++ [("PersonMovies", .blank "PersonMovies")] }

/-- The movies of people are the only field that is called so, so `add` stands
for them in spite of the type. -/
theorem mutationNamed?_addPersonMovies :
    ∃ r, namesakes.type? EntityType.person.name = some .person
      ∧ EntityType.person.relationship? r.name = some r
      ∧ namesakes.mutationNamed? "deletePerson" = some (.delete .person)
      ∧ namesakes.mutationNamed? "addPersonMovies" = some (.addRelationship .person r) := by
  have hperson : namesakes.type? EntityType.person.name = some .person := rfl
  obtain ⟨-, -, hdelete, hfields⟩ := mutationNamed?_names hperson
  let r : RelationshipField := .plain "movies" ⟨.outgoing, "ACTED_IN", "Movie"⟩ true
  have hr : EntityType.person.relationship? r.name = some r := rfl
  obtain ⟨-, hadd, -⟩ := hfields r hr
  have hleads : namesakes.Leads .person r := by
    refine ⟨[(.movie, .plain "actors" ⟨.incoming, "ACTED_IN", "Person"⟩ true)], [], rfl, ?_⟩
    intro p hp
    rw [List.mem_singleton.mp hp]
    decide
  have hname : "add" ++ EntityType.person.compoundName r = "addPersonMovies" := by decide
  rw [hname] at hadd
  exact ⟨r, hperson, hr, hdelete, hadd.mpr hleads⟩

/-- Movies cannot be taken from people by name where a type is called as they
are: the name stands for deleting a node of that type. -/
theorem mutationNamed?_deletePersonMovies :
    ∃ r, namesakes.mutations = [] ∧ namesakes.type? EntityType.person.name = some .person
      ∧ EntityType.person.relationship? r.name = some r
      ∧ namesakes.mutationNamed? ("delete" ++ EntityType.person.compoundName r)
        = some (.delete (.blank "PersonMovies"))
      ∧ namesakes.mutationNamed? ("delete" ++ EntityType.person.compoundName r)
        ≠ some (.deleteRelationship .person r) := by
  refine ⟨.plain "movies" ⟨.outgoing, "ACTED_IN", "Movie"⟩ true, rfl, rfl, rfl, ?_⟩
  have htype : namesakes.mutationNamed? ("delete" ++ "PersonMovies")
      = some (.delete (.blank "PersonMovies")) := mutationNamed?_delete "PersonMovies"
  refine ⟨htype, fun hfield => ?_⟩
  cases htype.symm.trans hfield

end Catalog

end PropertyGraphQL
