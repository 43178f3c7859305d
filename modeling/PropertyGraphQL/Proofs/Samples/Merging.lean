/-
Relationships of a type, merged as they are observed.

An observation is the shape of a relationship and whether a node has several of
it. The field is called after the shape. Two shapes may well have the same name,
since the name joins a relationship type and a label, which may contain the
underscore that joins them. Then the second of them is refused, and so is a name
that a property has (`Refused`). What has been merged so far is told by the
observations alone (`EntityType.Observes`): one more either keeps that or is the
first that is refused (`Observes.step`), and so a whole list of them is merged
just if nothing in it is to be refused (`Observes.run`).
-/
import PropertyGraphQL.Model.Sample
import PropertyGraphQL.Proofs.Schema.WellFormed

namespace PropertyGraphQL

-- ============================================================ observations

/-- The name of the field for relationships of a shape. -/
def RelationshipShape.fieldName (s : RelationshipShape) : String :=
  match s.direction with
  | .outgoing => s.relationshipType ++ "_" ++ s.targetType
  | .incoming => s.targetType ++ "_" ++ s.relationshipType

/-- What is seen of a relationship on a node: its type, direction and the label at the
other end, and whether there are several. -/
structure Observation where
  shape : RelationshipShape
  multiple : Bool

namespace Observation

/-- The name of the field that an observation is merged into. -/
def name (o : Observation) : String := o.shape.fieldName

/-- The field for a single observation. -/
def field (o : Observation) : RelationshipField := .plain o.name o.shape o.multiple

/-- The field for the relationships of one shape: a list if any of them was seen as one. -/
def merged (os : List Observation) (shape : RelationshipShape) : RelationshipField :=
  .plain shape.fieldName shape (os.any fun o => o.shape = shape && o.multiple)

end Observation

namespace SampledRelationship

/-- A relationship is observed once for every label at the other end. -/
def observations (r : SampledRelationship) : List Observation :=
  r.otherLabels.map fun label => ⟨⟨r.direction, r.relationshipType, label⟩, r.multiple⟩

/-- A sampled relationship is one field for each label that it leads to. -/
theorem fields_eq (r : SampledRelationship) : r.fields = r.observations.map Observation.field := by
  unfold fields observations
  rw [List.map_map]
  rfl

end SampledRelationship

-- ================================================================= merging

/-- No two shapes are observed under one name. -/
def NamesDistinct (os : List Observation) : Prop :=
  ∀ o ∈ os, ∀ o' ∈ os, o.name = o'.name → o.shape = o'.shape

/-- The observations can be merged into a type in which some names are taken: they have
none of these, and every name stands for one shape. -/
structure Mergeable (taken : String → Prop) (os : List Observation) : Prop where
  free : ∀ o ∈ os, ¬ taken o.name
  distinct : NamesDistinct os

/-- Why observations are not merged into a type: a name is taken, or two shapes have one. -/
inductive Refused (typeName : String) (taken : String → Prop) (os : List Observation) :
    ModelError → Prop where
  | taken {o : Observation} (ho : o ∈ os) (hname : taken o.name) :
      Refused typeName taken os (.duplicateField typeName o.name)
  | clash {o o' : Observation} (ho : o ∈ os) (ho' : o' ∈ os) (hname : o.name = o'.name)
      (hshape : o.shape ≠ o'.shape) :
      Refused typeName taken os (.relationshipMismatch typeName o.name o.shape o'.shape)

/-- The relationships of a type are those that have been observed; the rest of it is as
before. -/
structure EntityType.Observes (before t : EntityType) (os : List Observation) : Prop where
  mergeable : Mergeable (· ∈ before.properties.keys) os
  rest : t = { before with relationships := t.relationships }
  keys : t.relationships.keys = (os.map (·.name)).eraseDups
  field : ∀ o ∈ os, t.relationship? o.name = some (Observation.merged os o.shape)

/-- One more observation is mergeable if its name is free and has its shape wherever it
occurred. -/
theorem Mergeable.concat {taken : String → Prop} {os : List Observation}
    (h : Mergeable taken os) {o : Observation} (hfree : ¬ taken o.name)
    (hdistinct : ∀ o' ∈ os, o'.name = o.name → o'.shape = o.shape) :
    Mergeable taken (os ++ [o]) := by
  constructor
  · intro o' ho'
    rcases List.mem_append.mp ho' with ho' | ho'
    · exact h.free o' ho'
    · rw [List.mem_singleton.mp ho']
      exact hfree
  · intro a ha b hb hname
    rcases List.mem_append.mp ha with ha | ha
    · rcases List.mem_append.mp hb with hb | hb
      · exact h.distinct a ha b hb hname
      · rw [List.mem_singleton.mp hb] at hname ⊢
        exact hdistinct a ha hname
    · rcases List.mem_append.mp hb with hb | hb
      · rw [List.mem_singleton.mp ha] at hname ⊢
        exact (hdistinct b hb hname.symm).symm
      · rw [List.mem_singleton.mp ha, List.mem_singleton.mp hb]

namespace Refused

variable {typeName : String} {taken : String → Prop} {os : List Observation} {e : ModelError}

/-- What is refused is not mergeable. -/
theorem not_mergeable (h : Refused typeName taken os e) : ¬ Mergeable taken os := by
  intro hmergeable
  cases h with
  | taken ho hname => exact hmergeable.free _ ho hname
  | clash ho ho' hname hshape => exact hshape (hmergeable.distinct _ ho _ ho' hname)

/-- What is refused among some observations is refused among more. -/
theorem append (h : Refused typeName taken os e) (more : List Observation) :
    Refused typeName taken (os ++ more) e := by
  cases h with
  | taken ho hname => exact .taken (List.mem_append_left _ ho) hname
  | clash ho ho' hname hshape =>
    exact .clash (List.mem_append_left _ ho) (List.mem_append_left _ ho') hname hshape

end Refused

namespace Observation

/-- One more observation of a shape enriches what was merged for it. -/
theorem merged_concat_self (os : List Observation) (o : Observation) :
    merged (os ++ [o]) o.shape = (merged os o.shape).enrich o.field := by
  have hmulti : (os ++ [o]).any (fun o' => o'.shape = o.shape && o'.multiple)
      = (os.any (fun o' => o'.shape = o.shape && o'.multiple) || o.multiple) := by
    simp
  unfold merged
  rw [hmulti]
  rfl

theorem merged_concat_other {os : List Observation} {o : Observation} {shape : RelationshipShape}
    (h : o.shape ≠ shape) : merged (os ++ [o]) shape = merged os shape := by
  simp [merged, h]

/-- The first observation of a shape is a field as it is. -/
theorem merged_concat_new {os : List Observation} {o : Observation}
    (h : ∀ o' ∈ os, o'.shape ≠ o.shape) : merged (os ++ [o]) o.shape = o.field := by
  have hnone : os.any (fun o' => o'.shape = o.shape && o'.multiple) = false := by
    simpa using fun o' ho' heq => absurd heq (h o' ho')
  have hmulti : (os ++ [o]).any (fun o' => o'.shape = o.shape && o'.multiple) = o.multiple := by
    rw [List.any_append, hnone]
    simp
  unfold merged
  rw [hmulti]
  rfl

end Observation

/-- A name behind others is kept just if it is not among them. -/
theorem eraseDups_concat (names : List String) (name : String) :
    (names ++ [name]).eraseDups
      = if name ∈ names then names.eraseDups else names.eraseDups ++ [name] := by
  rw [List.eraseDups_append, List.removeAll, List.filter_singleton]
  by_cases hmem : name ∈ names
  · simp [hmem]
  · simp [hmem, List.eraseDups_cons]

namespace EntityType

variable {t : EntityType}

/-- Where the relationships are called like observations, there is none by another name. -/
theorem relationship?_eq_none {os : List Observation}
    (hkeys : t.relationships.keys = (os.map (·.name)).eraseDups) {name : String}
    (hnew : ∀ o ∈ os, o.name ≠ name) : t.relationship? name = none := by
  refine Dict.get?_eq_none_iff.mpr fun hmem => ?_
  rw [hkeys, List.mem_eraseDups] at hmem
  obtain ⟨o, ho, hname⟩ := List.mem_map.mp hmem
  exact hnew o ho hname

end EntityType

namespace EntityType.Observes

variable {before t : EntityType} {os : List Observation}

/-- Nothing has been observed of a type without relationships. -/
theorem nil (h : t.relationships = []) : t.Observes t [] where
  mergeable := ⟨List.forall_mem_nil _, List.forall_mem_nil _⟩
  rest := rfl
  keys := by rw [h]; rfl
  field := List.forall_mem_nil _

theorem name_eq (h : before.Observes t os) : t.name = before.name := by
  rw [h.rest]

theorem properties_eq (h : before.Observes t os) : t.properties = before.properties := by
  rw [h.rest]

/-- A further observation that is merged is among the observed ones. -/
theorem concat (h : before.Observes t os) {o : Observation}
    (hmergeable : Mergeable (· ∈ before.properties.keys) (os ++ [o])) {r : RelationshipField}
    (hr : Observation.merged (os ++ [o]) o.shape = r) :
    before.Observes { t with relationships := t.relationships.insert o.name r } (os ++ [o]) where
  mergeable := hmergeable
  rest := by
    rw [h.rest]
  keys := by
    rw [Dict.keys_insert, h.keys, List.map_append, List.map_singleton, eraseDups_concat]
    simp only [List.mem_eraseDups]
  field := by
    intro o' ho'
    rw [relationship?, Dict.get?_insert]
    split
    · next hname =>
      have hshape := hmergeable.distinct o (by simp) o' ho' hname
      rw [← hshape, hr]
    · next hname =>
      have hshape : o.shape ≠ o'.shape := fun heq =>
        hname (congrArg RelationshipShape.fieldName heq)
      rw [Observation.merged_concat_other hshape]
      rcases List.mem_append.mp ho' with ho' | ho'
      · exact h.field o' ho'
      · rw [List.mem_singleton.mp ho'] at hname
        exact absurd rfl hname

/-- **One more observation** is merged, or it is the first that is refused. -/
theorem step (h : before.Observes t os) (o : Observation) :
    (∃ t', t.mergeRelationship o.field = .ok t' ∧ before.Observes t' (os ++ [o]))
      ∨ ∃ e, t.mergeRelationship o.field = .error e
        ∧ Refused before.name (· ∈ before.properties.keys) (os ++ [o]) e := by
  have hlast : o ∈ os ++ [o] := List.mem_append_right _ (List.mem_singleton_self o)
  rw [← h.name_eq]
  -- three reasons in turn: a property of the name, a relationship of the name, and its shape
  by_cases hproperty : o.name ∈ t.properties.keys
  · right
    exact ⟨_, mergeRelationship_of_property hproperty,
      .taken hlast (h.properties_eq ▸ hproperty)⟩
  have hfree : o.name ∉ before.properties.keys := h.properties_eq ▸ hproperty
  by_cases hseen : ∃ o' ∈ os, o'.name = o.name
  · obtain ⟨o', ho', hsame⟩ := hseen
    have hexisting : t.relationship? o.name = some (Observation.merged os o'.shape) :=
      hsame ▸ h.field o' ho'
    by_cases hshape : o'.shape = o.shape
    · left
      have hmergeable := h.mergeable.concat hfree fun a ha hname => by
        rw [← hshape]
        exact h.mergeable.distinct a ha o' ho' (hname.trans hsame.symm)
      rw [hshape] at hexisting
      exact ⟨_, mergeRelationship_of_same hproperty hexisting rfl,
        h.concat hmergeable (Observation.merged_concat_self os o)⟩
    · right
      exact ⟨_, mergeRelationship_of_other hproperty hexisting hshape,
        .clash (List.mem_append_left _ ho') hlast hsame hshape⟩
  · left
    have hnew : ∀ o' ∈ os, o'.name ≠ o.name := fun o' ho' heq => hseen ⟨o', ho', heq⟩
    have hmergeable := h.mergeable.concat hfree fun o' ho' heq => absurd heq (hnew o' ho')
    have hshape : ∀ o' ∈ os, o'.shape ≠ o.shape := fun o' ho' heq =>
      hnew o' ho' (congrArg RelationshipShape.fieldName heq)
    exact ⟨_, mergeRelationship_of_new hproperty (relationship?_eq_none h.keys hnew),
      h.concat hmergeable (Observation.merged_concat_new hshape)⟩

/-- **A list of observations** is merged, or something in it is refused. -/
theorem run (h : before.Observes t os) (more : List Observation) :
    (∃ t', (more.map Observation.field).foldlM mergeRelationship t = .ok t'
        ∧ before.Observes t' (os ++ more))
      ∨ ∃ e, (more.map Observation.field).foldlM mergeRelationship t = .error e
        ∧ Refused before.name (· ∈ before.properties.keys) (os ++ more) e := by
  induction more generalizing t os with
  | nil =>
    rw [List.append_nil]
    exact .inl ⟨t, rfl, h⟩
  | cons o rest ih =>
    rw [List.map_cons, List.foldlM_cons, List.append_cons]
    rcases h.step o with ⟨t', hmerge, h'⟩ | ⟨e, hmerge, hrefused⟩
    · rw [hmerge]
      exact ih h'
    · right
      rw [hmerge]
      exact ⟨e, rfl, hrefused.append rest⟩

end EntityType.Observes

end PropertyGraphQL
