/-
The order of the definitions of a document.

What a definition does concerns its own name: of the catalog it looks only at
what stands under the name, and it changes nothing else (`part_define`,
`define_part`). So a document is accepted exactly if for every name the
definitions of that name are by themselves, and what the catalog says of a
name is what these give (`accepted_iff`, `part_filter`). Two documents with
the same definitions of every name, each in the same order, and the same root
types are therefore accepted alike and give the same catalog, up to the order
of the entries (`rel_of_names`).

Errors are found in a different order, so whether a document is accepted is
compared, not why it is not.
-/
import PropertyGraphQL.Proofs.Schema.Definitions
import PropertyGraphQL.Proofs.Schema.Places

namespace PropertyGraphQL

/-- Catalogs that say the same, in whatever order. -/
structure Catalog.Reordered (c c' : Catalog) : Prop where
  types : c.types.Perm c'.types
  enums : c.enums.Perm c'.enums
  queries : c.queries.Perm c'.queries
  mutations : c.mutations.Perm c'.mutations

namespace Vocabulary

variable {v : Vocabulary} {name : String}

-- ================================================================ one name

/-- Catalogs that say the same of a name: of its type, and of the operations if it is a root. -/
structure AgreeOn (v : Vocabulary) (name : String) (c c' : Catalog) : Prop where
  type : c.type? name = c'.type? name
  queries : name = v.queryRoot → ∀ key, c.queries.get? key = c'.queries.get? key
  mutations : name = v.mutationRoot → ∀ key, c.mutations.get? key = c'.mutations.get? key

/-- Both fail, or both give catalogs that say the same of a name. -/
inductive EndAlike (v : Vocabulary) (name : String) :
    Except SchemaError Catalog → Except SchemaError Catalog → Prop
  | failed {e e' : SchemaError} : EndAlike v name (.error e) (.error e')
  | made {c c' : Catalog} (h : v.AgreeOn name c c') : EndAlike v name (.ok c) (.ok c')

theorem AgreeOn.refl (v : Vocabulary) (name : String) (c : Catalog) : v.AgreeOn name c c :=
  ⟨rfl, fun _ _ => rfl, fun _ _ => rfl⟩

theorem AgreeOn.symm {c c' : Catalog} (h : v.AgreeOn name c c') : v.AgreeOn name c' c :=
  ⟨h.type.symm, fun hroot key => (h.queries hroot key).symm,
    fun hroot key => (h.mutations hroot key).symm⟩

/-- Catalogs that say the same as a third say the same. -/
theorem AgreeOn.trans {c c' c'' : Catalog} (h : v.AgreeOn name c c')
    (h' : v.AgreeOn name c' c'') : v.AgreeOn name c c'' :=
  ⟨h.type.trans h'.type, fun hroot key => (h.queries hroot key).trans (h'.queries hroot key),
    fun hroot key => (h.mutations hroot key).trans (h'.mutations hroot key)⟩

namespace EndAlike

variable {x y : Except SchemaError Catalog}

theorem refl (v : Vocabulary) (name : String) (x : Except SchemaError Catalog) :
    v.EndAlike name x x := by
  cases x with
  | error e => exact .failed
  | ok c => exact .made (.refl v name c)

/-- What is made of one result ends alike if it agrees. -/
theorem of_map {α : Type} {f g : α → Catalog} (h : ∀ a, v.AgreeOn name (f a) (g a))
    (x : Except SchemaError α) : v.EndAlike name (f <$> x) (g <$> x) := by
  cases x with
  | error e => exact .failed
  | ok a => exact .made (h a)

/-- Steps that end alike may be followed by steps that do so from catalogs that agree. -/
theorem of_bind {f g : Catalog → Except SchemaError Catalog} (h : v.EndAlike name x y)
    (hnext : ∀ c c', v.AgreeOn name c c' → v.EndAlike name (f c) (g c')) :
    v.EndAlike name (x >>= f) (y >>= g) := by
  cases h with
  | failed => exact .failed
  | made hagree => exact hnext _ _ hagree

/-- One step may be followed by steps that end alike. -/
theorem of_bind_same {f g : Catalog → Except SchemaError Catalog}
    (h : ∀ c, v.EndAlike name (f c) (g c)) (x : Except SchemaError Catalog) :
    v.EndAlike name (x >>= f) (x >>= g) := by
  cases x with
  | error e => exact .failed
  | ok c => exact h c

theorem symm (h : v.EndAlike name x y) : v.EndAlike name y x := by
  cases h with
  | failed => exact .failed
  | made hagree => exact .made hagree.symm

/-- Ends that are alike to a third are alike. -/
theorem trans {z : Except SchemaError Catalog} (h : v.EndAlike name x y)
    (h' : v.EndAlike name y z) : v.EndAlike name x z := by
  cases h with
  | failed =>
    cases h' with
    | failed => exact .failed
  | made hagree =>
    cases h' with
    | made hagree' => exact .made (hagree.trans hagree')

end EndAlike

/-- A definition changes nothing of other names. -/
theorem agreeOn_define {c c' : Catalog} {item : SchemaItem} (hother : item.isNamed name = false)
    (h : v.define c item = .ok c') : v.AgreeOn name c' c := by
  cases defines_of_define h with
  | queries hname hops =>
    refine ⟨rfl, ?_, fun _ _ => rfl⟩
    rintro rfl
    exact absurd hname (of_decide_eq_false hother)
  | mutations hquery hname hops =>
    refine ⟨rfl, fun _ _ => rfl, ?_⟩
    rintro rfl
    exact absurd hname (of_decide_eq_false hother)
  | entity hquery hmutation hbody ht =>
    refine ⟨?_, fun _ _ => rfl, fun _ _ => rfl⟩
    rw [Catalog.type?, Dict.get?_insert, if_neg (of_decide_eq_false hother)]
    rfl
  | nothing hfields => exact .refl v name c

/-- A definition looks at nothing but its own name. -/
theorem AgreeOn.define {c c' : Catalog} {item : SchemaItem} (h : v.AgreeOn name c c')
    (hown : item.isNamed name = true) :
    v.EndAlike name (v.define c item) (v.define c' item) := by
  cases item with
  | roots query mutation => cases hown
  | directive => cases hown
  | type d =>
    obtain rfl : d.name = name := of_decide_eq_true hown
    rw [define_type, define_type]
    -- a definition goes to the queries, to the mutations or to the types, by its name
    by_cases hquery : d.name = v.queryRoot
    · rw [if_pos hquery, if_pos hquery]
      apply EndAlike.of_map
      intro ops
      exact ⟨h.type, fun _ => Dict.get?_insertAll_congr (h.queries hquery) ops, h.mutations⟩
    · rw [if_neg hquery, if_neg hquery]
      by_cases hmutation : d.name = v.mutationRoot
      · rw [if_pos hmutation, if_pos hmutation]
        apply EndAlike.of_map
        intro ops
        exact ⟨h.type, h.queries, fun _ => Dict.get?_insertAll_congr (h.mutations hmutation) ops⟩
      · rw [if_neg hmutation, if_neg hmutation]
        cases d.body.entity? with
        | none => exact .made h
        | some body =>
          dsimp only
          rw [h.type]
          apply EndAlike.of_map
          intro t
          refine ⟨?_, h.queries, h.mutations⟩
          rw [Catalog.type?, Catalog.type?, Dict.get?_insert_self, Dict.get?_insert_self]

-- ============================================================ all definitions

/-- Definitions of a name end alike from catalogs that agree on it. -/
theorem AgreeOn.foldlM_define {c c' : Catalog} (h : v.AgreeOn name c c') {d : SchemaDocument}
    (hown : ∀ item ∈ d, item.isNamed name = true) :
    v.EndAlike name (d.foldlM v.define c) (d.foldlM v.define c') := by
  induction d generalizing c c' with
  | nil => exact .made h
  | cons item rest ih =>
    obtain ⟨hitem, hrest⟩ := List.forall_mem_cons.mp hown
    rw [List.foldlM_cons, List.foldlM_cons]
    exact .of_bind (h.define hitem) fun _ _ hagree => ih hagree hrest

/-- What the catalog says of a name is what the definitions of the name give. -/
theorem AgreeOn.foldlM_named {c₀ c c' : Catalog} (h : v.AgreeOn name c₀ c) {d : SchemaDocument}
    (hmade : d.foldlM v.define c₀ = .ok c') :
    ∃ c'', (d.named name).foldlM v.define c = .ok c'' ∧ v.AgreeOn name c' c'' := by
  induction d generalizing c₀ c with
  | nil =>
    cases hmade
    exact ⟨c, rfl, h⟩
  | cons item rest ih =>
    rw [List.foldlM_cons] at hmade
    obtain ⟨c₁, hitem, hrest⟩ := bind_eq_ok_iff.mp hmade
    by_cases hown : item.isNamed name = true
    · have hstep := h.define hown
      rw [hitem] at hstep
      generalize hother : v.define c item = y at hstep
      cases hstep with
      | made hagree =>
        obtain ⟨c'', hnamed, hend⟩ := ih hagree hrest
        refine ⟨c'', ?_, hend⟩
        rw [SchemaDocument.named, List.filter_cons_of_pos hown, List.foldlM_cons, hother]
        exact hnamed
    · have hframe := agreeOn_define (Bool.eq_false_iff.mpr hown) hitem
      obtain ⟨c'', hnamed, hend⟩ := ih (hframe.trans h) hrest
      refine ⟨c'', ?_, hend⟩
      rw [SchemaDocument.named, List.filter_cons_of_neg hown]
      exact hnamed

/-- Definitions that are accepted name by name are accepted together. -/
theorem accepted_of_named {c : Catalog} {d : SchemaDocument}
    (h : ∀ name, ∃ c', (d.named name).foldlM v.define c = .ok c') :
    ∃ c', d.foldlM v.define c = .ok c' := by
  induction d generalizing c with
  | nil => exact ⟨c, rfl⟩
  | cons item rest ih =>
    cases item with
    | roots query mutation => exact ih h
    | directive => exact ih h
    | type d =>
      have hown : (SchemaItem.type d).isNamed d.name = true := decide_eq_true rfl
      obtain ⟨c', hnamed⟩ := h d.name
      rw [SchemaDocument.named, List.filter_cons_of_pos hown, List.foldlM_cons] at hnamed
      obtain ⟨c₁, hitem, hrest⟩ := bind_eq_ok_iff.mp hnamed
      have hnext : ∀ name, ∃ c', (SchemaDocument.named rest name).foldlM v.define c₁ = .ok c' := by
        intro name
        by_cases hname : (SchemaItem.type d).isNamed name = true
        · obtain rfl : d.name = name := of_decide_eq_true hname
          exact ⟨c', hrest⟩
        · -- Under other names nothing has changed, so what was accepted still is.
          obtain ⟨c'', hothers⟩ := h name
          rw [SchemaDocument.named, List.filter_cons_of_neg hname] at hothers
          have hframe := agreeOn_define (Bool.eq_false_iff.mpr hname) hitem
          have hsame := hframe.foldlM_define (d := SchemaDocument.named rest name) (by simp)
          rw [hothers] at hsame
          cases hrun : (SchemaDocument.named rest name).foldlM v.define c₁ with
          | ok c₂ => exact ⟨c₂, rfl⟩
          | error e =>
            rw [hrun] at hsame
            cases hsame
      obtain ⟨c₂, hdone⟩ := ih hnext
      refine ⟨c₂, ?_⟩
      rw [List.foldlM_cons, hitem]
      exact hdone

-- ============================================================ two documents

/-- Documents that are accepted alike name by name are accepted alike, with catalogs that agree
on every name. -/
theorem accepted_alike {d d' : SchemaDocument} {c₀ c₀' c : Catalog}
    (h : ∀ name, v.EndAlike name ((d.named name).foldlM v.define c₀)
      ((d'.named name).foldlM v.define c₀'))
    (hmade : d.foldlM v.define c₀ = .ok c) :
    ∃ c', d'.foldlM v.define c₀' = .ok c' ∧ ∀ name, v.AgreeOn name c c' := by
  have hnamed (name : String) :
      ∃ c', (d'.named name).foldlM v.define c₀' = .ok c' ∧ v.AgreeOn name c c' := by
    obtain ⟨c₁, hown, hagree⟩ := (AgreeOn.refl v name c₀).foldlM_named hmade
    have hend := h name
    rw [hown] at hend
    generalize hother : (d'.named name).foldlM v.define c₀' = y at hend
    cases hend with
    | made hsame => exact ⟨_, rfl, hagree.trans hsame⟩
  obtain ⟨c', hmade'⟩ := accepted_of_named fun name => (hnamed name).imp fun _ h => h.1
  refine ⟨c', hmade', ?_⟩
  intro name
  obtain ⟨c₁, hown, hagree⟩ := hnamed name
  obtain ⟨c₂, hown', hagree'⟩ := (AgreeOn.refl v name c₀').foldlM_named hmade'
  obtain rfl : c₁ = c₂ := Except.ok.inj (hown.symm.trans hown')
  exact hagree.trans hagree'.symm

/-- Vocabularies that say the same of everything. -/
structure Same (v v' : Vocabulary) : Prop where
  agree : ∀ name, v.Agree v' name
  queryRoot : v.queryRoot = v'.queryRoot
  mutationRoot : v.mutationRoot = v'.mutationRoot

/-- Vocabularies that say the same define the same. -/
theorem Same.define {v' : Vocabulary} (h : v.Same v') : v.define = v'.define := by
  have hkind : v.kind = v'.kind := funext fun name => (h.agree name).kind
  unfold Vocabulary.define operations addEntity
  rw [operation_congr hkind, addField_congr hkind, h.queryRoot, h.mutationRoot]

/-- Definitions add no enums, since these are in the vocabulary. -/
theorem enums_foldlM_define {d : SchemaDocument} {c c' : Catalog}
    (h : d.foldlM v.define c = .ok c') : c'.enums = c.enums := by
  refine foldlM_invariant (motive := fun c' => c'.enums = c.enums) ?_ rfl h
  intro item _ c₁ c₂ hbefore hdefine
  cases defines_of_define hdefine with
  | _ => exact hbefore

/-- No operation of a root is there twice. -/
theorem nodup_operations (d : SchemaDocument) {c : Catalog}
    (h : Catalog.ofDocument d = .ok c) : c.queries.keys.Nodup ∧ c.mutations.keys.Nodup := by
  refine foldlM_invariant (motive := fun c => c.queries.keys.Nodup ∧ c.mutations.keys.Nodup)
    ?_ ⟨List.nodup_nil, List.nodup_nil⟩ h
  rintro item - c₁ c₂ ⟨hqueries, hmutations⟩ hdefine
  cases defines_of_define hdefine with
  | queries => exact ⟨Dict.nodup_keys_insertAll hqueries _, hmutations⟩
  | mutations => exact ⟨hqueries, Dict.nodup_keys_insertAll hmutations _⟩
  | entity => exact ⟨hqueries, hmutations⟩
  | nothing => exact ⟨hqueries, hmutations⟩

/-- Documents with the same vocabulary that are accepted alike name by name give the same
catalog, up to the order of its entries. -/
theorem rel_of_names {d d' : SchemaDocument} (hsame : (ofDocument d).Same (ofDocument d'))
    (h : ∀ name c, (ofDocument d).EndAlike name ((d.named name).foldlM (ofDocument d).define c)
      ((d'.named name).foldlM (ofDocument d).define c)) :
    Option.Rel Catalog.Reordered (Catalog.ofDocument d).toOption
      (Catalog.ofDocument d').toOption := by
  let v := ofDocument d
  let v' := ofDocument d'
  let c₀ : Catalog := { Catalog.empty with enums := v.enums }
  let c₀' : Catalog := { Catalog.empty with enums := v'.enums }
  have hrun : Catalog.ofDocument d = d.foldlM v.define c₀ := rfl
  have hrun' : Catalog.ofDocument d' = d'.foldlM v.define c₀' := by
    rw [hsame.define]
    rfl
  have hend (name : String) : v.EndAlike name ((d.named name).foldlM v.define c₀)
      ((d'.named name).foldlM v.define c₀') := by
    have hstart : v.AgreeOn name c₀ c₀' := ⟨rfl, fun _ _ => rfl, fun _ _ => rfl⟩
    exact (h name c₀).trans (hstart.foldlM_define (by simp))
  cases hmade : Catalog.ofDocument d with
  | ok c =>
    obtain ⟨c', hmade', hagree⟩ := accepted_alike hend (hrun ▸ hmade)
    obtain ⟨hqueries, hmutations⟩ := nodup_operations d hmade
    obtain ⟨hqueries', hmutations'⟩ := nodup_operations d' (hrun'.trans hmade')
    rw [hrun', hmade']
    refine .some ⟨?_, ?_, ?_, ?_⟩
    · apply Dict.perm_of_get?
      · exact (gathered_ofDocument hmade).wellFormed.types_nodup
      · exact (gathered_ofDocument (hrun'.trans hmade')).wellFormed.types_nodup
      · exact fun name => (hagree name).type
    · have henums : c.enums = v.enums := enums_foldlM_define (hrun ▸ hmade)
      have henums' : c'.enums = v'.enums := enums_foldlM_define hmade'
      rw [henums, henums']
      apply Dict.perm_of_get? (nodup_enums d) (nodup_enums d')
      exact fun name => (hsame.agree name).enum
    · exact Dict.perm_of_get? hqueries hqueries' ((hagree v.queryRoot).queries rfl)
    · exact Dict.perm_of_get? hmutations hmutations' ((hagree v.mutationRoot).mutations rfl)
  | error e =>
    cases hmade' : Catalog.ofDocument d' with
    | error e' => exact .none
    | ok c' =>
      obtain ⟨c, hmade'', -⟩ := accepted_alike (fun name => (hend name).symm) (hrun' ▸ hmade')
      rw [hrun, hmade''] at hmade
      cases hmade

-- ============================================================ rearrangement

theorem Agree.symm {v' : Vocabulary} (h : v.Agree v' name) : v'.Agree v name :=
  ⟨h.enum.symm, h.scalar.symm⟩

/-- Documents with the same definitions of every name, in the same order, and the same roots. -/
theorem rel_of_named_eq {d d' : SchemaDocument}
    (hnamed : ∀ name, d.named name = d'.named name)
    (hroots : d.filter (·.isRoots) = d'.filter (·.isRoots)) :
    Option.Rel Catalog.Reordered (Catalog.ofDocument d).toOption
      (Catalog.ofDocument d').toOption := by
  apply rel_of_names
  · refine ⟨fun name => ?_, ?_, ?_⟩
    · have hown := agree_named d name
      rw [hnamed] at hown
      exact hown.trans (agree_named d' name).symm
    · rw [(roots_filter d).1, (roots_filter d').1, hroots]
    · rw [(roots_filter d).2, (roots_filter d').2, hroots]
  · intro name c
    rw [hnamed]
    exact .refl _ name _

end Vocabulary

/-- Documents with the same definitions of every name, each in the same order, and the same
definitions of root types in the same order. -/
structure SchemaDocument.Rearranged (d d' : SchemaDocument) : Prop where
  named : ∀ name, d.unplaced.named name = d'.unplaced.named name
  roots : d.unplaced.filter (·.isRoots) = d'.unplaced.filter (·.isRoots)

/-- Rearranged documents are accepted alike and give the same catalog. -/
theorem Catalog.rel_of_rearranged {d d' : SchemaDocument} (h : d.Rearranged d') :
    Option.Rel Reordered (ofDocument d).toOption (ofDocument d').toOption := by
  have hrel := Vocabulary.rel_of_named_eq h.named h.roots
  rwa [sameSuccess_unplaced d, sameSuccess_unplaced d'] at hrel

end PropertyGraphQL
