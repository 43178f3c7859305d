/-
The type that is inferred for a label.

Labels and properties are always accepted, so all that can go wrong are the
relationships, and they are merged into a type that has none yet
(`LabelSample.entityType_eq`). So a type is inferred if the sample is `Consistent`,
and otherwise one of its relationships is refused
(`LabelSample.inferred_or_refused`). What an inferred type says can be read off the
sample: the labels and properties that occur, and for every shape that is observed
one field (`LabelSample.Infers`).
-/
import PropertyGraphQL.Proofs.Samples.Merging
import PropertyGraphQL.Proofs.Schema.Labels
import PropertyGraphQL.Proofs.Schema.Producers

namespace PropertyGraphQL

namespace LabelSample

/-- What is observed of relationships on the nodes taken into account. -/
def observations (s : LabelSample) : List Observation :=
  s.considered.flatMap fun n => n.relationships.flatMap SampledRelationship.observations

/-- The relationships of a sample are those that are observed. -/
theorem flatMap_fields_eq (s : LabelSample) :
    (s.considered.flatMap fun n => n.relationships.flatMap SampledRelationship.fields)
      = s.observations.map Observation.field := by
  have hfields : SampledRelationship.fields
      = fun r => r.observations.map Observation.field := funext SampledRelationship.fields_eq
  unfold observations
  simp only [List.map_flatMap, hfields]

/-- No property that has a value is called like an observed relationship, and no two
shapes are observed under one name. -/
def Consistent (s : LabelSample) : Prop :=
  Mergeable (fun name => s.occurs name = true) s.observations

/-- Why no type is inferred. -/
def Refuses (s : LabelSample) : ModelError → Prop :=
  Refused s.label (fun name => s.occurs name = true) s.observations

/-- What the sample says of the label without the relationships. -/
structure Describes (s : LabelSample) (t : EntityType) : Prop where
  name : t.name = s.label
  labels : ∀ label, label ∈ t.labels ↔ label ≠ s.label ∧ ∃ n ∈ s.considered, label ∈ n.labels
  properties : ∀ name, name ∈ t.properties.keys ↔ s.occurs name = true
  idProperty : t.idProperty = s.uniqueProperties.find? s.occurs

/-- A type says what the sample does. -/
structure Infers (s : LabelSample) (t : EntityType) : Prop extends s.Describes t where
  consistent : s.Consistent
  wellFormed : t.WellFormed
  keys : t.relationships.keys = (s.observations.map (·.name)).eraseDups
  relationship : ∀ o ∈ s.observations,
    t.relationship? o.name = some (Observation.merged s.observations o.shape)

variable {s : LabelSample}

-- ============================================================== properties

/-- Properties with different names are all accepted by a type without relationships. -/
theorem foldlM_addProperty (s : LabelSample) {values : Dict Json} (hvalues : values.keys.Nodup)
    {t : EntityType} (hrelationships : t.relationships = [])
    (hfree : ∀ name ∈ values.keys, name ∉ t.properties.keys) :
    ∃ properties, values.foldlM (fun t (entry : String × Json) =>
      t.addProperty (s.property entry.1 entry.2)) t = .ok { t with properties } := by
  induction values generalizing t with
  | nil => exact ⟨t.properties, rfl⟩
  | cons entry rest ih =>
    obtain ⟨name, value⟩ := entry
    obtain ⟨hname, hrest⟩ := List.nodup_cons.mp hvalues
    have hadd : t.addProperty (s.property name value)
        = .ok { t with properties := t.properties.insert name (s.property name value) } := by
      refine EntityType.addProperty_eq_ok_iff.mpr ⟨hfree name List.mem_cons_self, ?_, rfl⟩
      rw [hrelationships]
      exact List.not_mem_nil
    rw [List.foldlM_cons, hadd]
    refine ih hrest hrelationships fun other hother hmem => ?_
    rcases (Dict.mem_keys_insert _ _ _ _).mp hmem with rfl | hmem
    · exact hname hother
    · exact hfree other (List.mem_cons_of_mem _ hother) hmem

/-- The type for a label comes from merging what is observed into a type that has
everything but relationships. -/
theorem entityType_eq (s : LabelSample) :
    ∃ t, s.Describes t ∧ t.relationships = []
      ∧ s.entityType = (s.observations.map Observation.field).foldlM
        EntityType.mergeRelationship t := by
  have hlabelled (label : String) :
      label ∈ ((s.considered.flatMap (·.labels)).foldl EntityType.addLabel (.blank s.label)).labels
        ↔ _ := EntityType.mem_addLabels
  obtain ⟨labels, hblank⟩ := EntityType.addLabels_eq (.blank s.label)
    (s.considered.flatMap (·.labels))
  rw [hblank] at hlabelled
  have hvalues : s.values.keys.Nodup := Dict.nodup_keys_ofEntries _
  obtain ⟨properties, hproperties⟩ := s.foldlM_addProperty hvalues
    (t := { EntityType.blank s.label with labels }) rfl fun _ _ => List.not_mem_nil
  -- the properties are added first, so that the identity can be looked for among them
  have hoccurs (name : String) : name ∈ properties.keys ↔ s.occurs name = true := by
    have hkeys := mem_keys_foldlM_addProperty hproperties name
    rw [mem_keys_values] at hkeys
    exact hkeys.trans (or_iff_right List.not_mem_nil)
  have hcontains : properties.contains = s.occurs := by
    funext name
    rw [Bool.eq_iff_iff, Dict.contains_iff, hoccurs]
  refine ⟨{ EntityType.blank s.label with
      labels, properties, idProperty := s.uniqueProperties.find? s.occurs }, ?_, rfl, ?_⟩
  · refine ⟨rfl, fun label => ?_, hoccurs, rfl⟩
    refine (hlabelled label).trans ((or_iff_right List.not_mem_nil).trans ?_)
    rw [List.mem_flatMap]
    rfl
  · unfold entityType
    rw [hblank]
    refine (congrArg (· >>= _) hproperties).trans ?_
    show List.foldlM _ (List.foldl _ _ _) _ = _
    rw [foldl_registerIdProperty, List.head?_filter, hcontains, flatMap_fields_eq]
    rfl

-- =========================================================== relationships

/-- A type is inferred that says what the sample does, or a relationship is refused. -/
theorem inferred_or_refused (s : LabelSample) :
    (∃ t, s.entityType = .ok t ∧ s.Infers t) ∨ ∃ e, s.entityType = .error e ∧ s.Refuses e := by
  obtain ⟨t, hdescribes, hnone, heq⟩ := s.entityType_eq
  have htaken : (fun name => name ∈ t.properties.keys) = fun name => s.occurs name = true := by
    funext name
    exact propext (hdescribes.properties name)
  rcases (EntityType.Observes.nil hnone).run s.observations with
    ⟨t', hrun, hobserves⟩ | ⟨e, hrun, hrefused⟩
  · left
    have hinferred := heq.trans hrun
    obtain ⟨-, hwell, -⟩ := entityType_eq_ok hinferred
    rw [List.nil_append] at hobserves
    have hdescribes' : s.Describes t' := by
      rw [hobserves.rest]
      exact ⟨hdescribes.name, hdescribes.labels, hdescribes.properties, hdescribes.idProperty⟩
    have hconsistent : s.Consistent := by
      unfold Consistent
      rw [← htaken]
      exact hobserves.mergeable
    exact ⟨t', hinferred, hdescribes', hconsistent, hwell, hobserves.keys, hobserves.field⟩
  · right
    rw [List.nil_append, hdescribes.name, htaken] at hrefused
    exact ⟨e, heq.trans hrun, hrefused⟩

end LabelSample

end PropertyGraphQL
