/-
What is true of every type of a catalog, whether it was read or inferred.

A blank type is well formed, and everything that builds types keeps it so:
a label is added unless it is the name, a property only under a name that is
free, a relationship only under one that no property has. What identifies the
nodes is not looked at when it is registered; that it is a stored property is
for the caller to know (`WellFormed.registerIdProperty`).
-/
import PropertyGraphQL.Model.Catalog
import PropertyGraphQL.Proofs.Data.Dict

namespace PropertyGraphQL

/-- A type as it may stand in a catalog. -/
structure EntityType.WellFormed (t : EntityType) : Prop where
  name_notMem_labels : t.name ∉ t.labels
  labels_nodup : t.labels.Nodup
  properties_nodup : t.properties.keys.Nodup
  relationships_nodup : t.relationships.keys.Nodup
  /-- A field is a property or a relationship, never both. -/
  apart : ∀ key ∈ t.properties.keys, key ∉ t.relationships.keys
  property : ∀ {key p}, t.property? key = some p → p.name = key ∧ p.type.isBasic = true
  relationship : ∀ {key r}, t.relationship? key = some r → r.name = key
  /-- What identifies the nodes is stored in them. -/
  identified : ∀ {key}, t.idProperty = some key →
    ∃ p, t.property? key = some p ∧ p.isStored = true

namespace EntityType

variable {t t' : EntityType}

/-- Labels change nothing but the labels. -/
theorem addLabels_eq (t : EntityType) (labels : List String) :
    ∃ labels', labels.foldl addLabel t = { t with labels := labels' } := by
  induction labels generalizing t with
  | nil => exact ⟨t.labels, rfl⟩
  | cons label rest ih =>
    rw [List.foldl_cons, addLabel]
    split
    · exact ih t
    · exact ih { t with labels := t.labels ++ [label] }

-- =========================================================== what succeeds

theorem name_registerIdProperty (t : EntityType) (field : String) :
    (t.registerIdProperty field).2.name = t.name := by
  unfold registerIdProperty
  split
  · rfl
  · rfl

/-- A property is added exactly if its name is new. -/
theorem addProperty_eq_ok_iff {p : PropertyField} : t.addProperty p = .ok t' ↔
    p.name ∉ t.properties.keys ∧ p.name ∉ t.relationships.keys
      ∧ t' = { t with properties := t.properties.insert p.name p } := by
  unfold addProperty hasField
  by_cases hp : t.properties.contains p.name = true
  · have hmem := Dict.contains_iff.mp hp
    simp [hp, hmem]
  · have hmem : p.name ∉ t.properties.keys := fun h => hp (Dict.contains_iff.mpr h)
    by_cases hr : t.relationships.contains p.name = true
    · have hmem' := Dict.contains_iff.mp hr
      simp [hr, hmem']
    · have hmem' : p.name ∉ t.relationships.keys := fun h => hr (Dict.contains_iff.mpr h)
      simp [hp, hr, hmem, hmem', eq_comm]

/-- A relationship that is added stands under its name, which no property has. -/
theorem mergeRelationship_eq_ok {r : RelationshipField} (h : t.mergeRelationship r = .ok t') :
    r.name ∉ t.properties.keys ∧ ∃ r' : RelationshipField,
      (r' = r ∨ ∃ existing, t.relationship? r.name = some existing ∧ r' = existing.enrich r)
        ∧ t' = { t with relationships := t.relationships.insert r.name r' } := by
  unfold mergeRelationship at h
  split at h
  · cases h
  · next hp =>
    refine ⟨fun hmem => hp (Dict.contains_iff.mpr hmem), ?_⟩
    split at h
    · cases h
      exact ⟨r, .inl rfl, rfl⟩
    · next existing hexisting =>
      split at h
      · cases h
      · cases h
        exact ⟨existing.enrich r, .inr ⟨existing, hexisting, rfl⟩, rfl⟩

-- ============================================================ what is merged

section

variable {r existing : RelationshipField}

/-- A relationship may not have the name of a property. -/
theorem mergeRelationship_of_property (h : r.name ∈ t.properties.keys) :
    t.mergeRelationship r = .error (.duplicateField t.name r.name) := by
  unfold mergeRelationship
  exact if_pos (Dict.contains_iff.mpr h)

/-- A relationship with a new name is added. -/
theorem mergeRelationship_of_new (hfree : r.name ∉ t.properties.keys)
    (hnew : t.relationship? r.name = none) :
    t.mergeRelationship r
      = .ok { t with relationships := t.relationships.insert r.name r } := by
  unfold mergeRelationship
  rw [if_neg fun h => hfree (Dict.contains_iff.mp h), hnew]

/-- A relationship that is there in the same shape is enriched. -/
theorem mergeRelationship_of_same (hfree : r.name ∉ t.properties.keys)
    (hexisting : t.relationship? r.name = some existing) (hshape : existing.shape = r.shape) :
    t.mergeRelationship r
      = .ok { t with relationships := t.relationships.insert r.name (existing.enrich r) } := by
  unfold mergeRelationship
  rw [if_neg fun h => hfree (Dict.contains_iff.mp h), hexisting]
  exact if_neg (not_not.mpr hshape)

/-- A relationship that is there in another shape is an error that names both. -/
theorem mergeRelationship_of_other (hfree : r.name ∉ t.properties.keys)
    (hexisting : t.relationship? r.name = some existing) (hshape : existing.shape ≠ r.shape) :
    t.mergeRelationship r
      = .error (.relationshipMismatch t.name existing.name existing.shape r.shape) := by
  unfold mergeRelationship
  rw [if_neg fun h => hfree (Dict.contains_iff.mp h), hexisting]
  exact if_pos hshape

end

-- ============================================================= every step

/-- A type without labels and fields is well formed, whatever else is said of it. -/
theorem wellFormed_blank (name : String) (isInterface : Bool) (description : Option String) :
    ({ blank name with isInterface, description } : EntityType).WellFormed where
  name_notMem_labels := List.not_mem_nil
  labels_nodup := List.nodup_nil
  properties_nodup := List.nodup_nil
  relationships_nodup := List.nodup_nil
  apart _ h := absurd h List.not_mem_nil
  property h := nomatch h
  relationship h := nomatch h
  identified h := nomatch h

namespace WellFormed

/-- A label keeps a type well formed. -/
theorem addLabel (h : t.WellFormed) (label : String) : (t.addLabel label).WellFormed := by
  unfold EntityType.addLabel
  split
  · exact h
  · next hnew =>
    obtain ⟨hname, hlabels⟩ := not_or.mp hnew
    refine { h with name_notMem_labels := ?_, labels_nodup := ?_ }
    · intro hmem
      rcases List.mem_append.mp hmem with hmem | hmem
      · exact h.name_notMem_labels hmem
      · exact hname (List.mem_singleton.mp hmem).symm
    · apply List.nodup_append.mpr
      refine ⟨h.labels_nodup, List.nodup_singleton label, ?_⟩
      rintro l hl l' hl' rfl
      exact hlabels (List.mem_singleton.mp hl' ▸ hl)

/-- Any number of labels keep a type well formed. -/
theorem addLabels (h : t.WellFormed) (labels : List String) :
    (labels.foldl EntityType.addLabel t).WellFormed := by
  induction labels generalizing t with
  | nil => exact h
  | cons label rest ih => exact ih (h.addLabel label)

/-- A property of a basic type keeps a type well formed. -/
theorem addProperty (h : t.WellFormed) {p : PropertyField} (hbasic : p.type.isBasic = true)
    (hadd : t.addProperty p = .ok t') : t'.WellFormed := by
  obtain ⟨hfree, hapart, rfl⟩ := addProperty_eq_ok_iff.mp hadd
  refine { h with properties_nodup := ?_, apart := ?_, property := ?_, identified := ?_ }
  · exact Dict.nodup_keys_insert h.properties_nodup _ _
  · intro key hkey
    rcases (Dict.mem_keys_insert _ _ _ _).mp hkey with rfl | hkey
    · exact hapart
    · exact h.apart key hkey
  · intro key q hq
    rw [property?, Dict.get?_insert] at hq
    split at hq
    · next hkey =>
      cases hq
      exact ⟨hkey, hbasic⟩
    · exact h.property hq
  · intro key hkey
    obtain ⟨q, hq, hstored⟩ := h.identified hkey
    refine ⟨q, ?_, hstored⟩
    have hne : p.name ≠ key := by
      rintro rfl
      exact hfree (Dict.mem_keys_of_mem (Dict.mem_of_get? hq))
    rw [property?, Dict.get?_insert, if_neg hne]
    exact hq

/-- A relationship keeps a type well formed. -/
theorem mergeRelationship (h : t.WellFormed) {r : RelationshipField}
    (hmerge : t.mergeRelationship r = .ok t') : t'.WellFormed := by
  obtain ⟨hfree, r', hr', rfl⟩ := mergeRelationship_eq_ok hmerge
  have hname : r'.name = r.name := by
    rcases hr' with rfl | ⟨existing, hexisting, rfl⟩
    · rfl
    · have hsame : existing.name = r.name := h.relationship hexisting
      exact hsame
  refine { h with relationships_nodup := ?_, apart := ?_, relationship := ?_ }
  · exact Dict.nodup_keys_insert h.relationships_nodup _ _
  · intro key hkey hmem
    rcases (Dict.mem_keys_insert _ _ _ _).mp hmem with rfl | hmem
    · exact hfree hkey
    · exact h.apart key hkey hmem
  · intro key q hq
    rw [relationship?, Dict.get?_insert] at hq
    split at hq
    · next hkey =>
      cases hq
      exact hname.trans hkey
    · exact h.relationship hq

/-- A stored property may identify the nodes of a type that is well formed. -/
theorem registerIdProperty (h : t.WellFormed) {field : String} {p : PropertyField}
    (hp : t.property? field = some p) (hstored : p.isStored = true) :
    (t.registerIdProperty field).2.WellFormed := by
  unfold EntityType.registerIdProperty
  split
  · exact h
  · refine { h with identified := ?_ }
    intro key hkey
    cases hkey
    exact ⟨p, hp, hstored⟩

end WellFormed

end EntityType

/-- A catalog in which every type stands under its own name and is well formed. -/
structure Catalog.WellFormed (c : Catalog) : Prop where
  types_nodup : c.types.keys.Nodup
  type : ∀ {key t}, c.type? key = some t → t.name = key ∧ t.WellFormed

namespace Catalog

theorem wellFormed_empty : empty.WellFormed where
  types_nodup := List.nodup_nil
  type h := nomatch h

/-- A catalog stays well formed with a type set under its own name. -/
theorem WellFormed.insert {c : Catalog} (h : c.WellFormed) {t : EntityType} (ht : t.WellFormed) :
    ({ c with types := c.types.insert t.name t } : Catalog).WellFormed where
  types_nodup := Dict.nodup_keys_insert h.types_nodup _ _
  type := by
    intro key t' ht'
    rw [type?, Dict.get?_insert] at ht'
    split at ht'
    · next hkey =>
      cases ht'
      exact ⟨hkey, ht⟩
    · exact h.type ht'

end Catalog

end PropertyGraphQL
