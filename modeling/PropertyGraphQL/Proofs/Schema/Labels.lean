/-
The labels of the nodes of a type, as a schema document gives them.

A node has the name of its type as a label, and the names of the interfaces
that the definitions of the type list. Definitions and extensions may list
the same interface again, and an interface may have the name of the type;
each label is there once all the same (`Catalog.labels_of_parse`).
-/
import PropertyGraphQL.Proofs.Schema.Extensions

namespace PropertyGraphQL

/-- The interfaces that a definition lists for the type of a name. -/
def SchemaItem.interfacesOf (name : String) : SchemaItem → List String
  | .type d => if d.name = name then (d.body.entity?.map EntityBody.interfaces).getD [] else []
  | _ => []

/-- The interfaces of the type of a name, over its definition and all extensions of it. -/
def SchemaDocument.interfacesOf (d : SchemaDocument) (name : String) : List String :=
  d.flatMap (·.interfacesOf name)

/-- Added labels are those that are not the name of the type. -/
theorem EntityType.mem_addLabels {t : EntityType} {labels : List String} {label : String} :
    label ∈ (labels.foldl addLabel t).labels
      ↔ label ∈ t.labels ∨ label ≠ t.name ∧ label ∈ labels := by
  induction labels generalizing t with
  | nil => simp
  | cons first rest ih =>
    rw [List.foldl_cons, ih, addLabel]
    -- the name of the type is a label already, as are those added before
    split
    · next hknown =>
      constructor
      · rintro (h | ⟨hne, h⟩)
        · exact .inl h
        · exact .inr ⟨hne, List.mem_cons_of_mem _ h⟩
      · rintro (h | ⟨hne, h⟩)
        · exact .inl h
        · rcases List.mem_cons.mp h with rfl | h
          · exact .inl (hknown.resolve_left hne)
          · exact .inr ⟨hne, h⟩
    · next hnew =>
      have hfirst : first ≠ t.name := fun h => hnew (.inl h)
      constructor
      · rintro (h | ⟨hne, h⟩)
        · rcases List.mem_append.mp h with h | h
          · exact .inl h
          · rw [List.mem_singleton.mp h]
            exact .inr ⟨hfirst, List.mem_cons_self⟩
        · exact .inr ⟨hne, List.mem_cons_of_mem _ h⟩
      · rintro (h | ⟨hne, h⟩)
        · exact .inl (List.mem_append_left _ h)
        · rcases List.mem_cons.mp h with rfl | h
          · exact .inl (List.mem_append_right _ (List.mem_singleton_self _))
          · exact .inr ⟨hne, h⟩

theorem EntityType.mem_allLabels {t : EntityType} {label : String} :
    label ∈ t.allLabels ↔ label = t.name ∨ label ∈ t.labels := by
  rw [EntityType.allLabels, List.mem_eraseDups, List.mem_cons]

namespace Vocabulary

variable {v : Vocabulary}

/-- Fields add no labels. -/
theorem labels_foldlM_addField {t t' : EntityType} {fields : List FieldDefinition}
    (h : fields.foldlM v.addField t = .ok t') : t'.labels = t.labels := by
  have hsame := v.foldlM_addField_withLabels t t.labels fields
  have ht : t.withLabels t.labels = t := rfl
  rw [ht, h] at hsame
  have hkept : t' = t'.withLabels t.labels := Except.ok.inj hsame
  have hlabels := congrArg EntityType.labels hkept
  exact hlabels

/-- The labels of a type once a definition of it is taken. -/
theorem mem_labels_of_declare {t? : Option EntityType} {d : TypeDefinition} {body : EntityBody}
    {t : EntityType} (hname : ∀ t₀, t? = some t₀ → t₀.name = d.name)
    (h : v.declare t? d body = .ok t) (label : String) :
    label ∈ t.labels
      ↔ label ∈ t?.elim [] EntityType.labels ∨ label ≠ d.name ∧ label ∈ body.interfaces := by
  unfold declare at h
  split at h
  · cases h
  · rw [labels_foldlM_addField h, EntityType.mem_addLabels]
    cases t? with
    | some t₀ => rw [Option.getD_some, hname t₀ rfl, Option.elim_some]
    | none => rfl

/-- What the labels of the types come from, in definitions taken so far. -/
structure Labelled (v : Vocabulary) (d : SchemaDocument) (c : Catalog) : Prop where
  gathered : v.Gathered d c
  labels : ∀ name, name ≠ v.queryRoot → name ≠ v.mutationRoot → ∀ label,
    label ∈ (c.type? name).elim [] EntityType.labels
      ↔ label ≠ name ∧ label ∈ d.interfacesOf name

/-- The labels that a document gives go on with its next definition. -/
theorem Labelled.define {d : SchemaDocument} {c c' : Catalog} {item : SchemaItem}
    (h : v.Labelled d c) (hdefine : v.define c item = .ok c') : v.Labelled (d ++ [item]) c' := by
  refine ⟨h.gathered.define hdefine, fun name hquery hmutation label => ?_⟩
  have hinterfaces : SchemaDocument.interfacesOf (d ++ [item]) name
      = d.interfacesOf name ++ item.interfacesOf name := by
    simp [SchemaDocument.interfacesOf]
  have hbefore := h.labels name hquery hmutation label
  have hidle (hitem : item.interfacesOf name = []) :
      label ∈ (c.type? name).elim [] EntityType.labels
        ↔ label ≠ name ∧ label ∈ SchemaDocument.interfacesOf (d ++ [item]) name := by
    rw [hinterfaces, hitem, List.append_nil]
    exact hbefore
  cases item with
  | roots query mutation =>
    cases hdefine
    exact hidle rfl
  | directive =>
    cases hdefine
    exact hidle rfl
  | type d' =>
    have hapart (hne : d'.name ≠ name) : SchemaItem.interfacesOf name (.type d') = [] := by
      simp [SchemaItem.interfacesOf, hne]
    rw [define_type] at hdefine
    split at hdefine
    · next hroot =>
      obtain ⟨ops, -, rfl⟩ := map_eq_ok_iff.mp hdefine
      exact hidle (hapart (hroot ▸ hquery.symm))
    · split at hdefine
      · next hroot =>
        obtain ⟨ops, -, rfl⟩ := map_eq_ok_iff.mp hdefine
        exact hidle (hapart (hroot ▸ hmutation.symm))
      · cases hbody : d'.body.entity? with
        | none =>
          rw [hbody] at hdefine
          cases hdefine
          exact hidle (by simp [SchemaItem.interfacesOf, hbody])
        | some body =>
          rw [hbody] at hdefine
          obtain ⟨t, ht, rfl⟩ := map_eq_ok_iff.mp hdefine
          rw [Catalog.type?, Dict.get?_insert]
          split
          · next hsame =>
            subst hsame
            have hnamed (t₀ : EntityType) (ht₀ : c.type? d'.name = some t₀) :
                t₀.name = d'.name :=
              (h.gathered.wellFormed.type ht₀).1
            rw [Option.elim_some, mem_labels_of_declare hnamed ht label, hbefore, hinterfaces]
            simp [SchemaItem.interfacesOf, hbody, and_or_left]
          · next hother => exact hidle (hapart hother)

/-- The labels that a document gives go on with all further definitions. -/
theorem Labelled.foldlM_define {d more : SchemaDocument} {c c' : Catalog}
    (h : v.Labelled d c) (hdefine : more.foldlM v.define c = .ok c') :
    v.Labelled (d ++ more) c' := by
  induction more generalizing d c with
  | nil =>
    cases hdefine
    rwa [List.append_nil]
  | cons item rest ih =>
    rw [List.foldlM_cons] at hdefine
    obtain ⟨c₁, hitem, hrest⟩ := bind_eq_ok_iff.mp hdefine
    have hlabelled := ih (h.define hitem) hrest
    rwa [List.append_assoc, List.singleton_append] at hlabelled

end Vocabulary

/-- The labels of a type are its name and the interfaces that the document lists for it, each
once. -/
theorem Catalog.labels_of_parse {text : String} {d : SchemaDocument} {c : Catalog}
    (hread : SchemaDocument.parse text = .ok d) (hparse : parse text = .ok c) {name : String}
    {t : EntityType} (ht : c.type? name = some t) :
    t.allLabels.Nodup
      ∧ ∀ label, label ∈ t.allLabels ↔ label = name ∨ label ∈ d.interfacesOf name := by
  rw [parse, hread] at hparse
  have hgathered := Vocabulary.gathered_ofDocument hparse
  have hname : t.name = name := (hgathered.wellFormed.type ht).1
  obtain ⟨hquery, hmutation⟩ := hgathered.ne_roots ht
  have hwell : { Catalog.empty with enums := (Vocabulary.ofDocument d).enums }.WellFormed := by
    refine ⟨List.nodup_nil, ?_⟩
    intro name t ht
    cases ht
  have hempty : (Vocabulary.ofDocument d).Labelled []
      { Catalog.empty with enums := (Vocabulary.ofDocument d).enums } :=
    ⟨⟨hwell, rfl, rfl, fun _ _ _ => rfl⟩, fun _ _ _ _ => by
      simp [Catalog.empty, Catalog.type?, SchemaDocument.interfacesOf]⟩
  have hlabelled := (hempty.foldlM_define hparse).labels name hquery hmutation
  rw [ht] at hlabelled
  refine ⟨nodup_eraseDups _, fun label => ?_⟩
  have hlabels : label ∈ t.labels ↔ label ≠ name ∧ label ∈ d.interfacesOf name :=
    hlabelled label
  rw [EntityType.mem_allLabels, hlabels, hname]
  by_cases h : label = name
  · simp [h]
  · simp [h]

end PropertyGraphQL
