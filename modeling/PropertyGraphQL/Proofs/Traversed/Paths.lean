/-
Where the relationships of a selection lead.

A path of response keys stands for a field of a selection: at every key the first
field that has the key, which selects what all of them do (`Collected.field?`). The
path goes on below a field that leads to entities, on the type of these, and so it
may go round in the types for ever. But what is selected below a field, however many
fields have been merged into it, is less deep than the selection that it is in
(`Collected.field?_nesting`), and so every path comes to an end
(`Collected.wellFounded_below`).

Planning goes along collected fields, of which the same can be said: what is
collected under a key is that field (`Collected.field?_eq_some_iff`), and so the
paths along them are those of the selection (`Collected.along_collect_iff`).
-/
import PropertyGraphQL.Proofs.Data.Dict
import PropertyGraphQL.Proofs.Selection.Reads

namespace PropertyGraphQL

-- ================================================================ nesting

namespace Selection

mutual

/-- How deep fields lie in one another in an element of a selection. -/
def nesting : Selection → Nat
  | .field _ selections => nestingAll selections + 1
  | .fragment _ selections => nestingAll selections

def nestingAll : List Selection → Nat
  | [] => 0
  | s :: rest => max (nesting s) (nestingAll rest)

end

/-- A number bounds the nesting of selections exactly if it bounds that of each. -/
theorem nestingAll_le_iff {ss : List Selection} {n : Nat} :
    nestingAll ss ≤ n ↔ ∀ s ∈ ss, s.nesting ≤ n := by
  induction ss with
  | nil => exact iff_of_true (Nat.zero_le _) (List.forall_mem_nil _)
  | cons s rest ih => rw [nestingAll, Nat.max_le, ih, List.forall_mem_cons]

end Selection

namespace Collected

open Selection (nestingAll nestingAll_le_iff)

variable {catalog : Catalog} {t : EntityType}

mutual

/-- Below its occurrences a selection nests less deep. -/
theorem nesting_occurrencesOne (t : EntityType) (s : Selection) :
    ∀ o ∈ occurrencesOne catalog t s, nestingAll o.selections < s.nesting := by
  intro o ho
  cases s with
  | field head selections =>
    rw [occurrencesOne] at ho
    rw [List.mem_singleton.mp ho, Selection.nesting]
    exact Nat.lt_succ_self _
  | fragment condition selections =>
    rw [occurrencesOne] at ho
    rw [Selection.nesting]
    cases hscope : catalog.fragmentScope? t condition with
    | none =>
      rw [hscope] at ho
      cases ho
    | some scope =>
      rw [hscope] at ho
      exact nesting_occurrences scope selections o ho

/-- What a field selects is less deep than the selection that the field occurs in. -/
theorem nesting_occurrences (t : EntityType) (ss : List Selection) :
    ∀ o ∈ occurrences catalog t ss, nestingAll o.selections < nestingAll ss := by
  intro o ho
  cases ss with
  | nil =>
    rw [occurrences] at ho
    cases ho
  | cons s rest =>
    rw [occurrences] at ho
    rw [nestingAll]
    rcases List.mem_append.mp ho with ho | ho
    · have hs := nesting_occurrencesOne t s o ho
      omega
    · have hrest := nesting_occurrences t rest o ho
      omega

end

/-- Selections that are merged lie beside each other, not in each other. -/
theorem nesting_merged {key : String} {os : List Collected} {n : Nat}
    (h : ∀ o ∈ os, nestingAll o.selections ≤ n) : nestingAll (merged key os) ≤ n := by
  apply nestingAll_le_iff.mpr
  intro s hs
  obtain ⟨o, ho, hs⟩ := List.mem_flatMap.mp hs
  exact nestingAll_le_iff.mp (h o (List.mem_of_mem_filter ho)) s hs

-- ================================================================== paths

/-- The field that is read for a response key: the first that has it, selecting what all
that have it do. -/
def field? (catalog : Catalog) (t : EntityType) (ss : List Selection) (key : String) :
    Option Collected :=
  ((occurrences catalog t ss).find? fun o => o.key = key).map fun first =>
    { first with selections := merged key (occurrences catalog t ss) }

/-- The relationship that is followed for a field: one of which the entities are read, and
not the result of a statement as it is. -/
def followed? (f : Collected) : Option RelationshipField :=
  f.relationship?.filter fun r => !r.custom.any (·.passThrough)

/-- The field at the end of a path of response keys. All before it are followed, and the path
goes on among what they select of the entities that they lead to. -/
def fieldAt? (catalog : Catalog) : EntityType → List Selection → List String → Option Collected
  | _, _, [] => none
  | t, ss, [key] => field? catalog t ss key
  | t, ss, key :: next :: path => do
      let f ← field? catalog t ss key
      let r ← f.followed?
      let target ← catalog.type? r.shape.targetType
      fieldAt? catalog target f.selections (next :: path)

/-- What is read next: what the fields with a key select, of the entities that they lead
to. -/
def Below (catalog : Catalog) (next before : EntityType × List Selection) : Prop :=
  ∃ key f, field? catalog before.1 before.2 key = some f
    ∧ f.traversed? catalog = some next.1 ∧ f.selections = next.2

/-- A field that is followed leads to entities of the type that its relationship ends in. -/
theorem traversed?_eq (f : Collected) :
    f.traversed? catalog = f.followed?.bind fun r => catalog.type? r.shape.targetType := by
  unfold traversed? followed?
  cases f.relationship? with
  | none => rfl
  | some r =>
    rw [Option.bind_some, Option.filter_some]
    cases r.custom.any (·.passThrough) with
    | true => rfl
    | false => rfl

/-- The field for a key is less deep than the selection. -/
theorem field?_nesting {ss : List Selection} {key : String} {f : Collected}
    (h : field? catalog t ss key = some f) : nestingAll f.selections < nestingAll ss := by
  obtain ⟨first, hfirst, rfl⟩ := Option.map_eq_some_iff.mp h
  have hless : ∀ o ∈ occurrences catalog t ss, nestingAll o.selections < nestingAll ss :=
    nesting_occurrences t ss
  have hsome := hless first (List.mem_of_find?_eq_some hfirst)
  have hmerged : nestingAll (merged key (occurrences catalog t ss)) ≤ nestingAll ss - 1 := by
    apply nesting_merged
    intro o ho
    have ho := hless o ho
    omega
  show nestingAll (merged key (occurrences catalog t ss)) < nestingAll ss
  omega

/-- **Reading below merged fields ends**, whatever types the relationships of a catalog lead
to and however often they come back to one. -/
theorem wellFounded_below (catalog : Catalog) : WellFounded (Below catalog) := by
  refine Subrelation.wf ?_ (measure fun read : EntityType × List Selection =>
    nestingAll read.2).wf
  rintro ⟨u, us⟩ ⟨t, ss⟩ ⟨key, f, hf, -, rfl⟩
  exact field?_nesting hf

/-- A path is no longer than a selection is deep. -/
theorem length_le_of_fieldAt? {ss : List Selection} {path : List String} {f : Collected}
    (h : fieldAt? catalog t ss path = some f) : path.length ≤ nestingAll ss := by
  induction path generalizing t ss with
  | nil => exact Nat.zero_le _
  | cons key path ih =>
    cases path with
    | nil =>
      rw [fieldAt?] at h
      have hless := field?_nesting h
      show 1 ≤ nestingAll ss
      omega
    | cons next path =>
      rw [fieldAt?] at h
      obtain ⟨g, hg, h⟩ := Option.bind_eq_some_iff.mp h
      obtain ⟨r, -, h⟩ := Option.bind_eq_some_iff.mp h
      obtain ⟨target, -, h⟩ := Option.bind_eq_some_iff.mp h
      have hless := field?_nesting hg
      have hpath := ih h
      rw [List.length_cons]
      omega

-- ======================================================= collected fields

/-- A merged occurrence is found under its key. -/
theorem find?_foldl_add (os : List Collected) (key : String) :
    (os.foldl add []).find? (fun f => f.key = key)
      = (os.find? fun o => o.key = key).map fun first =>
        { first with selections := merged key os } := by
  induction os using merging_induction with
  | nil => rfl
  | cons o rest ih =>
    rw [foldl_add_cons_nil]
    by_cases hkey : o.key = key
    · rw [List.find?_cons_of_pos (by simpa using hkey),
        List.find?_cons_of_pos (by simpa using hkey), ← hkey, Option.map_some, merged_cons_self]
    · rw [List.find?_cons_of_neg (by simpa using hkey),
        List.find?_cons_of_neg (by simpa using hkey), ih, find?_filter_other (Ne.symm hkey),
        merged_filter_other (Ne.symm hkey), merged_cons_other hkey]

/-- A field is found under its response key. -/
theorem find?_collect (t : EntityType) (ss : List Selection) (key : String) :
    (collect catalog t ss).find? (fun f => f.key = key) = field? catalog t ss key := by
  rw [collect_eq_foldl]
  exact find?_foldl_add _ key

/-- No response key is collected twice. -/
theorem nodup_keys_collect (t : EntityType) (ss : List Selection) :
    ((collect catalog t ss).map (·.key)).Nodup := by
  rw [keys_collect]
  exact nodup_eraseDups _

/-- A field is found under a key exactly if it is collected and has that key. -/
theorem field?_eq_some_iff {ss : List Selection} {key : String} {f : Collected} :
    field? catalog t ss key = some f ↔ f ∈ collect catalog t ss ∧ f.key = key := by
  rw [← find?_collect]
  constructor
  · intro h
    exact ⟨List.mem_of_find?_eq_some h, by simpa using List.find?_some h⟩
  · intro ⟨hf, hkey⟩
    cases hfound : (collect catalog t ss).find? fun f => f.key = key with
    | none => exact absurd hkey (by simpa using List.find?_eq_none.mp hfound f hf)
    | some g =>
      have hg : g.key = key := by simpa using List.find?_some hfound
      exact congrArg some (List.inj_on_of_nodup_map (nodup_keys_collect t ss)
        (List.mem_of_find?_eq_some hfound) hf (hg.trans hkey.symm))

/-- A path leads along collected fields to one that is read for it. -/
inductive Along (catalog : Catalog) : List Collected → List String → Collected → Prop where
  | here {fields : List Collected} {f : Collected} (h : f ∈ fields) : Along catalog fields [f.key] f
  | inside {fields : List Collected} {f g : Collected} {target : EntityType} {path : List String}
      (hf : f ∈ fields) (htarget : f.traversed? catalog = some target)
      (h : Along catalog (collect catalog target f.selections) path g) :
      Along catalog fields (f.key :: path) g

namespace Along

variable {fields rest : List Collected} {path : List String} {f g : Collected}

/-- A path begins with the key of a field. -/
theorem head (h : Along catalog fields path g) :
    ∃ key more, path = key :: more ∧ key ∈ fields.map (·.key) := by
  cases h with
  | here h => exact ⟨_, _, rfl, List.mem_map_of_mem h⟩
  | inside hf => exact ⟨_, _, rfl, List.mem_map_of_mem hf⟩

/-- No field is at the empty path. -/
theorem not_nil : ¬ Along catalog fields [] g := by
  intro h
  obtain ⟨_, _, hpath, -⟩ := h.head
  cases hpath

/-- What is along some of the fields is along all of them. -/
theorem mono (h : Along catalog rest path g) (hsub : rest ⊆ fields) :
    Along catalog fields path g := by
  cases h with
  | here h => exact .here (hsub h)
  | inside hf htarget h => exact .inside (hsub hf) htarget h

/-- A path along several fields ends at the first, goes on below it or leads along the
others. -/
theorem exists_cons_iff {P : Collected → Prop} :
    (∃ g, Along catalog (f :: rest) path g ∧ P g) ↔ path = [f.key] ∧ P f
      ∨ (∃ target below, f.traversed? catalog = some target ∧ path = f.key :: below
        ∧ ∃ g, Along catalog (collect catalog target f.selections) below g ∧ P g)
      ∨ ∃ g, Along catalog rest path g ∧ P g := by
  constructor
  · intro ⟨g, h, hg⟩
    cases h with
    | here h =>
      rcases List.mem_cons.mp h with rfl | h
      · exact .inl ⟨rfl, hg⟩
      · exact .inr (.inr ⟨g, .here h, hg⟩)
    | @inside _ f' _ target below hf htarget h =>
      rcases List.mem_cons.mp hf with rfl | hf
      · exact .inr (.inl ⟨target, below, htarget, rfl, g, h, hg⟩)
      · exact .inr (.inr ⟨g, .inside hf htarget h, hg⟩)
  · rintro (⟨rfl, hf⟩ | ⟨target, below, htarget, rfl, g, h, hg⟩ | ⟨g, h, hg⟩)
    · exact ⟨f, .here List.mem_cons_self, hf⟩
    · exact ⟨g, .inside List.mem_cons_self htarget h, hg⟩
    · exact ⟨g, h.mono (List.subset_cons_self _ _), hg⟩

end Along

/-- Along what is collected for a selection, a path leads to the field at its end. -/
theorem along_collect_iff {ss : List Selection} {path : List String} {g : Collected} :
    Along catalog (collect catalog t ss) path g ↔ fieldAt? catalog t ss path = some g := by
  induction path generalizing t ss with
  | nil =>
    rw [fieldAt?]
    exact iff_of_false Along.not_nil nofun
  | cons key path ih =>
    -- the last key names the field itself, any other one to be followed
    cases path with
    | nil =>
      rw [fieldAt?, field?_eq_some_iff]
      constructor
      · intro h
        cases h with
        | here h => exact ⟨h, rfl⟩
        | inside _ _ h => exact absurd h Along.not_nil
      · rintro ⟨hg, rfl⟩
        exact .here hg
    | cons next path =>
      rw [fieldAt?]
      constructor
      · intro h
        cases h with
        | @inside _ f _ target _ hf htarget h =>
          rw [traversed?_eq] at htarget
          obtain ⟨r, hr, htarget⟩ := Option.bind_eq_some_iff.mp htarget
          apply Option.bind_eq_some_iff.mpr ⟨f, field?_eq_some_iff.mpr ⟨hf, rfl⟩, ?_⟩
          apply Option.bind_eq_some_iff.mpr ⟨r, hr, ?_⟩
          exact Option.bind_eq_some_iff.mpr ⟨target, htarget, ih.mp h⟩
      · intro h
        obtain ⟨f, hfield, h⟩ := Option.bind_eq_some_iff.mp h
        obtain ⟨r, hr, h⟩ := Option.bind_eq_some_iff.mp h
        obtain ⟨target, htarget, hbelow⟩ := Option.bind_eq_some_iff.mp h
        obtain ⟨hf, hkey⟩ := field?_eq_some_iff.mp hfield
        have htraversed : f.traversed? catalog = some target := by
          rw [traversed?_eq]
          exact Option.bind_eq_some_iff.mpr ⟨r, hr, htarget⟩
        rw [← hkey]
        exact .inside hf htraversed (ih.mpr hbelow)

end Collected

end PropertyGraphQL
