/-
The order in which a graph is sampled.

What is observed on nodes in a different order are the same observations in a
different order (`LabelSample.observations_perm`). Whether a sample is consistent
depends on which observations there are, and so does every field, since a
relationship is a list if any observation of it is one; only the place of a field
among the others is due to the order. The types of properties are another matter:
they are taken from the last node that has a value.

All nodes have to be taken into account in either order, so there are at most as
many as are ever considered.
-/
import PropertyGraphQL.Proofs.Samples.Inferred

namespace PropertyGraphQL

-- ============================================================== rearranging

/-- One list is the other in a different order, with `R` between the elements. -/
def PermBy {α β : Type} (R : α → β → Prop) (l : List α) (l' : List β) : Prop :=
  ∃ reordered, l.Perm reordered ∧ List.Forall₂ R reordered l'

namespace PermBy

variable {α β γ : Type} {R : α → β → Prop} {l : List α} {l' : List β}

theorem length_eq (h : PermBy R l l') : l.length = l'.length := by
  obtain ⟨reordered, hperm, hall⟩ := h
  exact hperm.length_eq.trans hall.length_eq

/-- What is made of the elements of a permutation is permuted. -/
theorem flatMap {f : α → List γ} {g : β → List γ} (h : PermBy R l l')
    (hperm : ∀ a b, R a b → (f a).Perm (g b)) : (l.flatMap f).Perm (l'.flatMap g) := by
  obtain ⟨reordered, hreordered, hall⟩ := h
  refine (hreordered.flatMap_right f).trans ?_
  clear hreordered
  induction hall with
  | nil => exact List.Perm.refl _
  | cons hR _ ih =>
    rw [List.flatMap_cons, List.flatMap_cons]
    exact (hperm _ _ hR).append ih

end PermBy

/-- The labels at the other end are in a different order. -/
structure SampledRelationship.Rearranged (r r' : SampledRelationship) : Prop where
  relationshipType : r.relationshipType = r'.relationshipType
  direction : r.direction = r'.direction
  otherLabels : r.otherLabels.Perm r'.otherLabels
  multiple : r.multiple = r'.multiple

/-- The labels, properties and relationships of a node are in a different order. -/
structure SampledNode.Rearranged (n n' : SampledNode) : Prop where
  labels : n.labels.Perm n'.labels
  properties : n.properties.Perm n'.properties
  relationships : PermBy SampledRelationship.Rearranged n.relationships n'.relationships

/-- The nodes of a sample, and what is said of each, are in a different order. -/
structure LabelSample.Rearranged (s s' : LabelSample) : Prop where
  label : s.label = s'.label
  uniqueProperties : s.uniqueProperties = s'.uniqueProperties
  nodes : PermBy SampledNode.Rearranged s.nodes s'.nodes

/-- Two types differ in the order of their entries and in the types of their properties. -/
structure EntityType.Reordered (t t' : EntityType) : Prop where
  name : t.name = t'.name
  labels : t.labels.Perm t'.labels
  properties : t.properties.keys.Perm t'.properties.keys
  idProperty : t.idProperty = t'.idProperty
  relationships : t.relationships.Perm t'.relationships

-- ================================================================= invariants

/-- Rearranged labels give the same observations. -/
theorem SampledRelationship.Rearranged.observations {r r' : SampledRelationship}
    (h : r.Rearranged r') : r.observations.Perm r'.observations := by
  unfold SampledRelationship.observations
  rw [h.relationshipType, h.direction, h.multiple]
  exact h.otherLabels.map _

/-- Whether names tell shapes apart does not depend on the order. -/
theorem NamesDistinct.perm {os os' : List Observation} (h : NamesDistinct os)
    (hperm : os.Perm os') : NamesDistinct os' := by
  intro o ho o' ho' hname
  exact h o (hperm.mem_iff.mpr ho) o' (hperm.mem_iff.mpr ho') hname

/-- Whether a relationship is a list does not depend on when it was observed as one. -/
theorem Observation.merged_perm {os os' : List Observation} (hperm : os.Perm os')
    (shape : RelationshipShape) : merged os shape = merged os' shape := by
  unfold merged
  rw [hperm.any_eq]

namespace LabelSample

variable {s s' : LabelSample}

/-- Whether a sample is consistent does not depend on the order of its observations. -/
theorem Consistent.perm (hs : s.Consistent) (hperm : s.observations.Perm s'.observations)
    (hoccurs : s.occurs = s'.occurs) : s'.Consistent where
  free o ho := hoccurs ▸ hs.free o (hperm.mem_iff.mpr ho)
  distinct := hs.distinct.perm hperm

namespace Rearranged

/-- As few nodes as fit in a sample are all considered, in whatever order. -/
theorem considered (h : s.Rearranged s') (hsize : s.nodes.length ≤ sampleSize) :
    PermBy SampledNode.Rearranged s.considered s'.considered := by
  unfold LabelSample.considered
  rw [List.take_of_length_le hsize, List.take_of_length_le (h.nodes.length_eq ▸ hsize)]
  exact h.nodes

/-- A rearranged sample has the same observations. -/
theorem observations (h : s.Rearranged s') (hsize : s.nodes.length ≤ sampleSize) :
    s.observations.Perm s'.observations :=
  (h.considered hsize).flatMap fun _ _ hn =>
    hn.relationships.flatMap fun _ _ hr => hr.observations

/-- The same names occur in a rearranged sample. -/
theorem occurs (h : s.Rearranged s') (hsize : s.nodes.length ≤ sampleSize) :
    s.occurs = s'.occurs := by
  funext name
  unfold LabelSample.occurs
  rw [← List.any_flatMap, ← List.any_flatMap]
  exact ((h.considered hsize).flatMap fun _ _ hn => hn.properties).any_eq

/-- A rearranged sample is consistent exactly if the sample is. -/
theorem consistent_iff (h : s.Rearranged s') (hsize : s.nodes.length ≤ sampleSize) :
    s.Consistent ↔ s'.Consistent := by
  have hobservations := h.observations hsize
  have hoccurs := h.occurs hsize
  exact ⟨fun hs => hs.perm hobservations hoccurs,
    fun hs => hs.perm hobservations.symm hoccurs.symm⟩

/-- Types that say what one and the other sample do differ in the order of entries. -/
theorem reordered (h : s.Rearranged s') (hsize : s.nodes.length ≤ sampleSize)
    {t t' : EntityType} (ht : s.Infers t) (ht' : s'.Infers t') : t.Reordered t' := by
  have hobservations := h.observations hsize
  have hoccurs := h.occurs hsize
  refine ⟨?_, ?_, ?_, ?_, ?_⟩
  · rw [ht.name, ht'.name, h.label]
  · apply (List.perm_ext_iff_of_nodup ht.wellFormed.labels_nodup
      ht'.wellFormed.labels_nodup).mpr
    intro label
    have hlabels := ((h.considered hsize).flatMap fun _ _ hn => hn.labels).mem_iff (a := label)
    rw [List.mem_flatMap, List.mem_flatMap] at hlabels
    rw [ht.labels, ht'.labels, h.label, hlabels]
  · apply (List.perm_ext_iff_of_nodup ht.wellFormed.properties_nodup
      ht'.wellFormed.properties_nodup).mpr
    intro name
    rw [ht.properties, ht'.properties, hoccurs]
  · rw [ht.idProperty, ht'.idProperty, h.uniqueProperties, hoccurs]
  · apply Dict.perm_of_get? ht.wellFormed.relationships_nodup ht'.wellFormed.relationships_nodup
    intro name
    -- what is observed under a name does not depend on the order it is observed in
    by_cases hseen : ∃ o ∈ s.observations, o.name = name
    · obtain ⟨o, ho, rfl⟩ := hseen
      refine (ht.relationship o ho).trans ?_
      rw [Observation.merged_perm hobservations]
      exact (ht'.relationship o (hobservations.mem_iff.mp ho)).symm
    · have hnew : ∀ o ∈ s.observations, o.name ≠ name := fun o ho heq => hseen ⟨o, ho, heq⟩
      have hnew' : ∀ o ∈ s'.observations, o.name ≠ name := fun o ho =>
        hnew o (hobservations.mem_iff.mpr ho)
      refine (EntityType.relationship?_eq_none ht.keys hnew).trans ?_
      exact (EntityType.relationship?_eq_none ht'.keys hnew').symm

end Rearranged

/-- **The order of sampling makes no difference to relationships.** For a sample of no more nodes
than are taken into account, let the nodes, and the labels, properties and relationships of each,
come in another order. Then a type is inferred from both samples or from neither, and both types
have the same labels, properties of the same names, the same property that identifies nodes, and
the same relationships, except for the order of the entries. -/
theorem entityType_rearranged (hsize : s.nodes.length ≤ sampleSize) (h : s.Rearranged s') :
    (∃ t t', s.entityType = .ok t ∧ s'.entityType = .ok t' ∧ t.Reordered t')
      ∨ ∃ e e', s.entityType = .error e ∧ s'.entityType = .error e' := by
  rcases s.inferred_or_refused with ⟨t, ht, hinfers⟩ | ⟨e, he, hrefuses⟩
  · rcases s'.inferred_or_refused with ⟨t', ht', hinfers'⟩ | ⟨e', -, hrefuses'⟩
    · exact .inl ⟨t, t', ht, ht', h.reordered hsize hinfers hinfers'⟩
    · exact absurd ((h.consistent_iff hsize).mp hinfers.consistent) hrefuses'.not_mergeable
  · rcases s'.inferred_or_refused with ⟨t', -, hinfers'⟩ | ⟨e', he', -⟩
    · exact absurd ((h.consistent_iff hsize).mpr hinfers'.consistent) hrefuses.not_mergeable
    · exact .inr ⟨e, e', he, he'⟩

/-- Two people, of whom one was seen with several movies and the other with one. -/
def admirers : LabelSample where
  label := "Person"
  uniqueProperties := ["name"]
  nodes :=
    [⟨["Person", "Critic"], [("name", .str "Ada"), ("born", .int 1970)],
      [⟨"LIKES", .outgoing, ["Movie", "Classic"], false⟩]⟩,
     ⟨["Director", "Person"], [("born", .str "1972"), ("name", .str "Ben")],
      [⟨"LIKES", .outgoing, ["Movie"], true⟩, ⟨"KNOWS", .incoming, ["Person"], false⟩]⟩]

/-- The same people, in another order, as are the labels and relationships of each. -/
def admirersBackwards : LabelSample where
  label := "Person"
  uniqueProperties := ["name"]
  nodes :=
    [⟨["Person", "Director"], [("born", .str "1972"), ("name", .str "Ben")],
      [⟨"KNOWS", .incoming, ["Person"], false⟩, ⟨"LIKES", .outgoing, ["Movie"], true⟩]⟩,
     ⟨["Critic", "Person"], [("name", .str "Ada"), ("born", .int 1970)],
      [⟨"LIKES", .outgoing, ["Classic", "Movie"], false⟩]⟩]

/-- The sample of the instance is rearranged by turning it around. -/
theorem rearranged_admirers : admirers.Rearranged admirersBackwards where
  label := rfl
  uniqueProperties := rfl
  nodes := by
    refine ⟨_, .swap _ _ _, .cons ⟨.swap _ _ _, .refl _, ?_⟩
      (.cons ⟨.swap _ _ _, .refl _, ?_⟩ .nil)⟩
    · exact ⟨_, .swap _ _ _, .cons ⟨rfl, rfl, .refl _, rfl⟩ (.cons ⟨rfl, rfl, .refl _, rfl⟩ .nil)⟩
    · exact ⟨_, .refl _, .cons ⟨rfl, rfl, .swap _ _ _, rfl⟩ .nil⟩

/-- Both ways round, the sample gives a type, and it is the same one. -/
theorem entityType_rearranged_admirers :
    ∃ t t', admirers.entityType = .ok t ∧ admirersBackwards.entityType = .ok t'
      ∧ t.Reordered t' := by
  have hsize : admirers.nodes.length ≤ sampleSize := by decide
  rcases entityType_rearranged hsize rearranged_admirers with h | ⟨e, -, he, -⟩
  · exact h
  · cases he

/-- What does depend on the order is the type of a property: it is that of the value that was
sampled last. -/
example :
    admirers.entityType.toOption.bind (·.property? "born")
        = some (.plain "born" (.scalar "String"))
      ∧ admirersBackwards.entityType.toOption.bind (·.property? "born")
        = some (.plain "born" (.named "Long" .int)) :=
  ⟨rfl, rfl⟩

end LabelSample

end PropertyGraphQL
