/-
Catalogs as they are made: from a schema document, or from samples of a graph.

Either way every type is well formed and stands under its own name
(`Catalog.wellFormed_of_made`). What identifies the nodes of a type is the
first candidate: of a document, the first field that can, over the definition
of the type and its extensions; of samples, the first of the properties kept
unique that some node taken into account has a value of.
-/
import PropertyGraphQL.Model.Sample
import PropertyGraphQL.Proofs.Schema.Definitions

namespace PropertyGraphQL

-- =============================================================== samples

namespace LabelSample

/-- Whether a property has a value on a node that is taken into account. -/
def occurs (s : LabelSample) (name : String) : Bool :=
  s.considered.any fun n => n.properties.any fun entry => entry.1 = name && !entry.2.isNull

/-- The values of a sample are those of the names that occur in it. -/
theorem mem_keys_values (s : LabelSample) (name : String) :
    name ∈ s.values.keys ↔ s.occurs name = true := by
  unfold values occurs
  rw [Dict.mem_keys_ofEntries]
  simp only [Dict.keys, List.mem_map, List.mem_flatMap, List.mem_filter, List.any_eq_true,
    Bool.and_eq_true, decide_eq_true_eq]
  constructor
  · rintro ⟨entry, ⟨n, hn, hentry, hvalue⟩, hname⟩
    exact ⟨n, hn, entry, hentry, hname, hvalue⟩
  · rintro ⟨n, hn, entry, hentry, hname, hvalue⟩
    exact ⟨entry, ⟨n, hn, hentry, hvalue⟩, hname⟩

/-- The type of a sampled value is basic. -/
theorem isBasic_ofJson (value : Json) : (FieldType.ofJson value).isBasic = true := by
  induction value using FieldType.ofJson.induct with
  | case5 first rest ih =>
    rw [FieldType.ofJson]
    exact ih
  | _ => simp [FieldType.ofJson, FieldType.isBasic, FieldType.named, FieldType.scalar,
      FieldType.list, Kind.builtin?]

/-- What is true of a type while its properties are added: nothing identifies its nodes yet,
and they store every property. -/
structure Unidentified (s : LabelSample) (t : EntityType) : Prop where
  wellFormed : t.WellFormed
  name : t.name = s.label
  idProperty : t.idProperty = none
  stored : ∀ {key p}, t.property? key = some p → p.isStored = true

/-- A sampled property does not identify the nodes yet. -/
theorem Unidentified.addProperty {s : LabelSample} {t t' : EntityType} (h : s.Unidentified t)
    {name : String} {value : Json} (hadd : t.addProperty (s.property name value) = .ok t') :
    s.Unidentified t' := by
  have hwell := h.wellFormed.addProperty (isBasic_ofJson value) hadd
  obtain ⟨-, -, rfl⟩ := EntityType.addProperty_eq_ok_iff.mp hadd
  refine ⟨hwell, h.name, h.idProperty, ?_⟩
  intro key p hp
  rw [EntityType.property?, Dict.get?_insert] at hp
  split at hp
  · cases hp
    rfl
  · exact h.stored hp

/-- The properties added to a type are its properties. -/
theorem mem_keys_foldlM_addProperty {s : LabelSample} {values : Dict Json} {t t' : EntityType}
    (h : values.foldlM (fun t (entry : String × Json) =>
      t.addProperty (s.property entry.1 entry.2)) t = .ok t') (name : String) :
    name ∈ t'.properties.keys ↔ name ∈ t.properties.keys ∨ name ∈ values.keys := by
  induction values generalizing t with
  | nil =>
    cases h
    simp [Dict.keys]
  | cons entry rest ih =>
    rw [List.foldlM_cons] at h
    obtain ⟨t₁, hadd, hrest⟩ := bind_eq_ok_iff.mp h
    obtain ⟨-, -, rfl⟩ := EntityType.addProperty_eq_ok_iff.mp hadd
    rw [ih hrest, Dict.mem_keys_insert]
    simp [Dict.keys, property, PropertyField.plain, or_assoc, or_left_comm]

/-- Of several candidates the first identifies the nodes. -/
theorem foldl_registerIdProperty (t : EntityType) (candidates : List String) :
    (candidates.foldl (fun t name => (t.registerIdProperty name).2) t)
      = { t with idProperty := t.idProperty.or candidates.head? } := by
  induction candidates generalizing t with
  | nil => simp
  | cons name rest ih =>
    rw [List.foldl_cons, ih]
    unfold EntityType.registerIdProperty
    cases hid : t.idProperty with
    | some key => simp [hid]
    | none => simp

/-- Relationships that are merged keep the name, the properties that identify, and what is well
formed. -/
theorem mergeRelationships_eq_ok {t t' : EntityType} {fields : List RelationshipField}
    (h : fields.foldlM EntityType.mergeRelationship t = .ok t') (hwell : t.WellFormed) :
    t'.WellFormed ∧ t'.name = t.name ∧ t'.idProperty = t.idProperty := by
  refine foldlM_invariant
    (motive := fun t' => t'.WellFormed ∧ t'.name = t.name ∧ t'.idProperty = t.idProperty)
    ?_ ⟨hwell, rfl, rfl⟩ h
  rintro r - t₁ t₂ ⟨hwell₁, hname₁, hid₁⟩ hmerge
  have hwell₂ := hwell₁.mergeRelationship hmerge
  obtain ⟨-, r', -, rfl⟩ := EntityType.mergeRelationship_eq_ok hmerge
  exact ⟨hwell₂, hname₁, hid₁⟩

/-- The type for a label: it is identified by the first unique property that occurs. -/
theorem entityType_eq_ok {s : LabelSample} {t : EntityType} (h : s.entityType = .ok t) :
    t.name = s.label ∧ t.WellFormed ∧ t.idProperty = s.uniqueProperties.find? s.occurs := by
  obtain ⟨t₁, hproperties, hrelationships⟩ := bind_eq_ok_iff.mp h
  have hblank := EntityType.wellFormed_blank s.label false none
  have hlabelled := hblank.addLabels (s.considered.flatMap (·.labels))
  obtain ⟨labels, heq⟩ := EntityType.addLabels_eq (.blank s.label)
    (s.considered.flatMap (·.labels))
  have hbefore : s.Unidentified ((s.considered.flatMap (·.labels)).foldl EntityType.addLabel
      (.blank s.label)) := by
    refine ⟨hlabelled, ?_, ?_, ?_⟩
    · rw [heq]
      rfl
    · rw [heq]
      rfl
    · rw [heq]
      exact nofun
  have hadded : s.Unidentified t₁ :=
    foldlM_invariant (fun _ _ _ _ h hadd => h.addProperty hadd) hbefore hproperties
  -- the properties are those that occur in a considered node
  have hkeys (name : String) : name ∈ t₁.properties.keys ↔ s.occurs name = true := by
    rw [mem_keys_foldlM_addProperty hproperties, mem_keys_values, heq]
    exact or_iff_right List.not_mem_nil
  have hcontains : t₁.properties.contains = s.occurs := by
    funext name
    rw [Bool.eq_iff_iff, Dict.contains_iff, hkeys]
  dsimp only at hrelationships
  rw [foldl_registerIdProperty, List.head?_filter, hcontains, hadded.idProperty,
    Option.none_or] at hrelationships
  -- the identity is one of them, so the type stays well formed
  have hidentified : ({ t₁ with
      idProperty := s.uniqueProperties.find? s.occurs } : EntityType).WellFormed := by
    refine { hadded.wellFormed with identified := ?_ }
    intro key hkey
    have hmem := (hkeys key).mpr (List.find?_some hkey)
    cases hp : t₁.property? key with
    | none => exact absurd hmem (Dict.get?_eq_none_iff.mp hp)
    | some p => exact ⟨p, hp, hadded.stored hp⟩
  obtain ⟨hwell, hname, hid⟩ := mergeRelationships_eq_ok hrelationships hidentified
  exact ⟨hname.trans hadded.name, hwell, hid⟩

end LabelSample

namespace Catalog

/-- A catalog that comes from samples taken so far. -/
structure Sampled (samples : List LabelSample) (c : Catalog) : Prop where
  wellFormed : c.WellFormed
  sampled : ∀ {name t}, c.type? name = some t → ∃ s ∈ samples, s.label = name
    ∧ t.idProperty = s.uniqueProperties.find? s.occurs

/-- A catalog of samples has a type for each of them. -/
theorem sampled_ofSamples {samples : List LabelSample} {c : Catalog}
    (h : ofSamples samples = .ok c) : Sampled samples c := by
  refine foldlM_invariant (motive := Sampled samples) ?_ ⟨wellFormed_empty, nofun⟩ h
  intro s hs c₁ c₂ hsampled hadd
  obtain ⟨t, ht, hadd⟩ := bind_eq_ok_iff.mp hadd
  obtain ⟨hname, hwell, hid⟩ := LabelSample.entityType_eq_ok ht
  unfold addType at hadd
  split at hadd
  · cases hadd
  · cases hadd
    refine ⟨hsampled.wellFormed.insert hwell, ?_⟩
    intro name t' ht'
    rw [type?, Dict.get?_insert] at ht'
    split at ht'
    · next hsame =>
      cases ht'
      exact ⟨s, hs, hname.symm.trans hsame, hid⟩
    · exact hsampled.sampled ht'

-- ================================================================= results

theorem WellFormed.type_of_mem {c : Catalog} (h : c.WellFormed) {name : String} {t : EntityType}
    (hmem : (name, t) ∈ c.types) : c.type? name = some t :=
  (Dict.get?_eq_some_iff h.types_nodup).mpr hmem

/-- **Every catalog is well formed.** In a catalog that was read from a document, no type has the
name of a root, and the nodes of a type are identified by the first of its fields, over its
definition and all extensions, that is required, no list, a scalar or an enum, and not computed
by a statement. In one inferred from samples, they are identified by the first of the properties
kept unique that has a value on one of the nodes taken into account. -/
theorem wellFormed_of_made :
    (∀ text c, parse text = .ok c → ∃ d, SchemaDocument.parse text = .ok d ∧ c.WellFormed
      ∧ ∀ name t, (name, t) ∈ c.types →
        t.name = name ∧ t.WellFormed
          ∧ name ≠ (Vocabulary.ofDocument d).queryRoot
          ∧ name ≠ (Vocabulary.ofDocument d).mutationRoot
          ∧ t.idProperty = ((d.fieldsOf name).find? (·.identifies d.hasValueType)).map (·.name))
    ∧ ∀ samples c, ofSamples samples = .ok c → c.WellFormed
      ∧ ∀ name t, (name, t) ∈ c.types →
        t.name = name ∧ t.WellFormed
          ∧ ∃ s ∈ samples, s.label = name
            ∧ t.idProperty = s.uniqueProperties.find? fun p =>
                (s.nodes.take sampleSize).any fun n =>
                  n.properties.any fun entry => entry.1 = p && !entry.2.isNull := by
  refine ⟨?_, ?_⟩
  · intro text c hparse
    unfold parse at hparse
    split at hparse
    · next d hread =>
      have hgathered := Vocabulary.gathered_ofDocument hparse
      have hvalues : (Vocabulary.ofDocument d).isValueType = d.hasValueType := by
        funext name
        rw [Bool.eq_iff_iff, ← Vocabulary.kind_ofDocument, Vocabulary.isValueType,
          decide_eq_true_eq]
      refine ⟨d, hread, hgathered.wellFormed, ?_⟩
      intro name t hmem
      have htype := hgathered.wellFormed.type_of_mem hmem
      obtain ⟨hname, hwell⟩ := hgathered.wellFormed.type htype
      obtain ⟨hquery, hmutation⟩ := hgathered.ne_roots htype
      refine ⟨hname, hwell, hquery, hmutation, ?_⟩
      have hid := hgathered.identified name hquery hmutation
      rwa [htype, hvalues] at hid
    · cases hparse
  · intro samples c hmade
    have hsampled := sampled_ofSamples hmade
    refine ⟨hsampled.wellFormed, ?_⟩
    intro name t hmem
    have htype := hsampled.wellFormed.type_of_mem hmem
    obtain ⟨hname, hwell⟩ := hsampled.wellFormed.type htype
    exact ⟨hname, hwell, hsampled.sampled htype⟩

-- ============================================================ an instance

/-- People, whose first field that can identify them stands in an extension. -/
def peopleText : String :=
  "type Person \x7b friends: [Person!] nick: String \x7d extend type Person \x7b id: ID! \x7d"

/-- A person, whose name is said to be unique, and so is a number that no one has. -/
def peopleSamples : List LabelSample :=
  [⟨"Person", ["number", "name"], [⟨["Person"], [("number", .null), ("name", .str "Meg")], []⟩]⟩]

/-- A key that is found identifies the nodes of a type of the catalog. -/
theorem exists_type_of_toOption {ε : Type} {x : Except ε Catalog} {name key : String}
    (h : (x.toOption.bind fun c => (c.type? name).bind EntityType.idProperty) = some key) :
    ∃ c t, x = .ok c ∧ (name, t) ∈ c.types ∧ t.idProperty = some key := by
  cases x with
  | error e => cases h
  | ok c =>
    have hid : (c.type? name).bind EntityType.idProperty = some key := h
    obtain ⟨t, ht, hid⟩ := Option.bind_eq_some_iff.mp hid
    exact ⟨c, t, rfl, Dict.mem_of_get? ht, hid⟩

/-- Both a text and samples give a type of people whose nodes are identified. -/
theorem wellFormed_of_made_people :
    (∃ c t, parse peopleText = .ok c ∧ ("Person", t) ∈ c.types ∧ t.idProperty = some "id"
        ∧ t.WellFormed)
      ∧ ∃ c t, ofSamples peopleSamples = .ok c ∧ ("Person", t) ∈ c.types
        ∧ t.idProperty = some "name" ∧ t.WellFormed := by
  obtain ⟨hparse, hsamples⟩ := wellFormed_of_made
  have hread : ((parse peopleText).toOption.bind fun c =>
      (c.type? "Person").bind EntityType.idProperty) = some "id" := by
    decide +kernel
  have hinferred : ((ofSamples peopleSamples).toOption.bind fun c =>
      (c.type? "Person").bind EntityType.idProperty) = some "name" := by
    decide +kernel
  constructor
  · obtain ⟨c, t, hc, ht, hid⟩ := exists_type_of_toOption hread
    obtain ⟨d, -, -, htypes⟩ := hparse _ _ hc
    exact ⟨c, t, hc, ht, hid, (htypes _ _ ht).2.1⟩
  · obtain ⟨c, t, hc, ht, hid⟩ := exists_type_of_toOption hinferred
    obtain ⟨-, htypes⟩ := hsamples _ _ hc
    exact ⟨c, t, hc, ht, hid, (htypes _ _ ht).2.1⟩

end Catalog

end PropertyGraphQL
