/-
The fields of a selection, one by one.

Collecting goes through the fragments that may apply and merges fields with
one response key as it meets them. Here the two are taken apart: the
occurrences of fields are listed first (`occurrences`), and merged then, each
with the later ones that have its key (`foldl_add_cons`). So the collected
fields have the distinct keys in the order of their first occurrence
(`keys_collect`), and what is selected below them is what all occurrences
select, one behind the other (`mem_collect`).
-/
import PropertyGraphQL.Compile.Plan

namespace PropertyGraphQL

variable {catalog : Catalog} {t : EntityType}

-- ============================================================ occurrences

namespace Collected

mutual

/-- The occurrences of fields in an element of a selection on a type. -/
def occurrencesOne (catalog : Catalog) (t : EntityType) : Selection → List Collected
  | .field head selections => [⟨head.responseKey, head, t, selections⟩]
  | .fragment condition selections =>
      match catalog.fragmentScope? t condition with
      | some scope => occurrences catalog scope selections
      | none => []

/-- The occurrences of fields in a selection on a type, those in fragments that
may apply included. -/
def occurrences (catalog : Catalog) (t : EntityType) : List Selection → List Collected
  | [] => []
  | s :: rest => occurrencesOne catalog t s ++ occurrences catalog t rest

end

/-- Selections one after another have their occurrences one after another. -/
theorem occurrences_append (a b : List Selection) :
    occurrences catalog t (a ++ b) = occurrences catalog t a ++ occurrences catalog t b := by
  induction a with
  | nil => rfl
  | cons s rest ih => rw [List.cons_append, occurrences, occurrences, ih, List.append_assoc]

theorem occurrences_singleton (s : Selection) :
    occurrences catalog t [s] = occurrencesOne catalog t s := by
  rw [occurrences, occurrences, List.append_nil]

theorem occurrencesOne_field (head : FieldHead) (selections : List Selection) :
    occurrencesOne catalog t (.field head selections)
      = [⟨head.responseKey, head, t, selections⟩] := by
  rw [occurrencesOne]

/-- A fragment that may apply has the occurrences of its selection. -/
theorem occurrencesOne_fragment {condition : Option String} {u : EntityType}
    (h : catalog.fragmentScope? t condition = some u) (selections : List Selection) :
    occurrencesOne catalog t (.fragment condition selections)
      = occurrences catalog u selections := by
  rw [occurrencesOne, h]

/-- A fragment that does not apply has no occurrences. -/
theorem occurrencesOne_skipped {condition : Option String}
    (h : catalog.fragmentScope? t condition = none) (selections : List Selection) :
    occurrencesOne catalog t (.fragment condition selections) = [] := by
  rw [occurrencesOne, h]

mutual

/-- To collect a selection is to add its occurrences. -/
theorem collectOne_eq_foldl (t : EntityType) (sofar : List Collected) (s : Selection) :
    collectOne catalog t sofar s = (occurrencesOne catalog t s).foldl add sofar := by
  cases s with
  | field head selections => rw [collectOne, occurrencesOne, List.foldl_cons, List.foldl_nil]
  | fragment condition selections =>
    rw [collectOne, occurrencesOne]
    cases catalog.fragmentScope? t condition with
    | some scope => exact collectAll_eq_foldl scope sofar selections
    | none => rfl

/-- To collect selections is to add their occurrences one by one. -/
theorem collectAll_eq_foldl (t : EntityType) (sofar : List Collected) (ss : List Selection) :
    collectAll catalog t sofar ss = (occurrences catalog t ss).foldl add sofar := by
  cases ss with
  | nil => rw [collectAll, occurrences, List.foldl_nil]
  | cons s rest =>
    rw [collectAll, occurrences, List.foldl_append, collectOne_eq_foldl t sofar s,
      collectAll_eq_foldl t _ rest]

end

/-- The collected fields are the occurrences, added one after the other. -/
theorem collect_eq_foldl (t : EntityType) (ss : List Selection) :
    collect catalog t ss = (occurrences catalog t ss).foldl add [] :=
  collectAll_eq_foldl t [] ss

-- ================================================================ merging

/-- What fields with a response key select, one behind the other. -/
def merged (key : String) (os : List Collected) : List Selection :=
  (os.filter fun o => o.key = key).flatMap (·.selections)

theorem merged_cons_self (o : Collected) (os : List Collected) :
    merged o.key (o :: os) = o.selections ++ merged o.key os := by
  simp [merged]

theorem merged_cons_other {key : String} {o : Collected} (h : o.key ≠ key)
    (os : List Collected) : merged key (o :: os) = merged key os := by
  simp [merged, h]

/-- Fields with another key do not matter. -/
theorem merged_filter_other {key other : String} (h : key ≠ other) (os : List Collected) :
    merged key (os.filter fun o => o.key ≠ other) = merged key os := by
  unfold merged
  rw [List.filter_filter]
  congr 1
  refine List.filter_congr fun o _ => ?_
  by_cases hkey : o.key = key
  · simp [hkey, h]
  · simp [hkey]

/-- Dropping the occurrences of one key leaves the first of another where it is. -/
theorem find?_filter_other {key other : String} (h : key ≠ other) (os : List Collected) :
    (os.filter fun o => o.key ≠ other).find? (fun o => o.key = key)
      = os.find? fun o => o.key = key := by
  rw [List.find?_filter]
  congr 1
  funext o
  by_cases hkey : o.key = key
  · simp [hkey, h]
  · simp [hkey]

/-- The first field with a key is not the first of all if it is found among those
with another key than that. -/
theorem find?_cons_of_filter {o first : Collected} {rest : List Collected} {key : String}
    (h : (rest.filter fun o' => o'.key ≠ o.key).find? (fun o' => o'.key = key) = some first) :
    key ≠ o.key ∧ (o :: rest).find? (fun o' => o'.key = key) = some first := by
  have hkey : first.key = key := by simpa using List.find?_some h
  have hother : key ≠ o.key := by
    have hmem := (List.mem_filter.mp (List.mem_of_find?_eq_some h)).2
    rw [← hkey]
    simpa using hmem
  refine ⟨hother, ?_⟩
  rw [find?_filter_other hother] at h
  rw [List.find?_cons_of_neg (by simpa using hother.symm)]
  exact h

/-- Merging goes on with what has another key than the first field. -/
@[elab_as_elim]
theorem merging_induction {motive : List Collected → Prop} (nil : motive [])
    (cons : ∀ o rest, motive (rest.filter fun o' => o'.key ≠ o.key) → motive (o :: rest))
    (os : List Collected) : motive os := by
  cases os with
  | nil => exact nil
  | cons o rest => exact cons o rest (merging_induction nil cons _)
termination_by os.length
decreasing_by
  have hfilter := List.length_filter_le (fun o' : Collected => o'.key ≠ o.key) rest
  rw [List.length_cons]
  omega

/-- The first field takes up what all with its key select, and the rest is as if
it had never been there. -/
theorem foldl_add_cons (first : Collected) (sofar os : List Collected) :
    os.foldl add (first :: sofar)
      = { first with selections := first.selections ++ merged first.key os }
        :: (os.filter fun o => o.key ≠ first.key).foldl add sofar := by
  induction os generalizing first sofar with
  | nil => simp [merged]
  | cons o rest ih =>
    rw [List.foldl_cons, add]
    by_cases hkey : first.key = o.key
    · rw [if_pos hkey, ih, hkey, merged_cons_self]
      simp
    · have hne : o.key ≠ first.key := fun heq => hkey heq.symm
      rw [if_neg hkey, ih, merged_cons_other hne]
      simp [hne]

/-- The first occurrence of a key stays first, and gets the selections of the later ones. -/
theorem foldl_add_cons_nil (first : Collected) (os : List Collected) :
    (first :: os).foldl add []
      = { first with selections := first.selections ++ merged first.key os }
        :: (os.filter fun o => o.key ≠ first.key).foldl add [] := by
  rw [List.foldl_cons, add, foldl_add_cons]

/-- Occurrences that are merged have the distinct keys, in the order in which
they occur first. -/
theorem keys_foldl_add (os : List Collected) :
    (os.foldl add []).map (·.key) = (os.map (·.key)).eraseDups := by
  induction os using merging_induction with
  | nil => rfl
  | cons o rest ih =>
    rw [foldl_add_cons_nil, List.map_cons, ih, List.map_cons, List.eraseDups_cons, List.filter_map]
    congr 3
    refine List.filter_congr fun o' _ => ?_
    by_cases hkey : o'.key = o.key
    · simp [hkey]
    · simp [hkey]

/-- The collected fields have the distinct response keys, in the order in which
they occur first. -/
theorem keys_collect (t : EntityType) (ss : List Selection) :
    (collect catalog t ss).map (·.key)
      = ((occurrences catalog t ss).map (·.key)).eraseDups := by
  rw [collect_eq_foldl, keys_foldl_add]

/-- A merged occurrence is the first with its key, and selects what all of them
select. -/
theorem mem_foldl_add {os : List Collected} {f : Collected} (h : f ∈ os.foldl add []) :
    ∃ first, os.find? (fun o => o.key = f.key) = some first
      ∧ f = { first with selections := merged f.key os } := by
  induction os using merging_induction with
  | nil => cases h
  | cons o rest ih =>
    rw [foldl_add_cons_nil] at h
    rcases List.mem_cons.mp h with rfl | h
    · exact ⟨o, by simp, by rw [merged_cons_self o rest]⟩
    · obtain ⟨first, hfirst, hf⟩ := ih h
      obtain ⟨hne, hfirst⟩ := find?_cons_of_filter hfirst
      refine ⟨first, hfirst, ?_⟩
      rw [merged_filter_other hne] at hf
      rw [merged_cons_other hne.symm]
      exact hf

/-- A collected field is the first occurrence of its key, with the selections of all of them. -/
theorem mem_collect {ss : List Selection} {f : Collected} (h : f ∈ collect catalog t ss) :
    ∃ first, (occurrences catalog t ss).find? (fun o => o.key = f.key) = some first
      ∧ f = { first with selections := merged f.key (occurrences catalog t ss) } := by
  rw [collect_eq_foldl] at h
  exact mem_foldl_add h

-- ================================================== the next with the key

/-- Of two fields with one key the second only brings its selection. -/
theorem add_add_self {o next : Collected} (h : next.key = o.key) (sofar : List Collected) :
    add (add sofar o) next
      = add sofar { o with selections := o.selections ++ next.selections } := by
  induction sofar with
  | nil => simp [add, h]
  | cons c rest ih =>
    by_cases hkey : c.key = o.key
    · simp [add, hkey, h]
    · simp [add, hkey, h, ih]

/-- A field whose key is there already may be added before one with another
key. -/
theorem add_comm_other {o next : Collected} (h : next.key ≠ o.key) {sofar : List Collected}
    (hmem : next.key ∈ sofar.map (·.key)) :
    add (add sofar o) next = add (add sofar next) o := by
  induction sofar with
  | nil => cases hmem
  | cons c rest ih =>
    by_cases hnext : c.key = next.key
    · have hother : c.key ≠ o.key := hnext ▸ h
      simp [add, hnext, h]
    · have hrest : next.key ∈ rest.map (·.key) := by
        rcases List.mem_cons.mp hmem with heq | hrest
        · exact absurd heq.symm hnext
        · exact hrest
      by_cases hother : c.key = o.key
      · simp [add, hother, Ne.symm h]
      · simp [add, hother, hnext, ih hrest]

/-- The key of what is added is there. -/
theorem mem_keys_add (sofar : List Collected) (o : Collected) :
    o.key ∈ (add sofar o).map (·.key) := by
  induction sofar with
  | nil => simp [add]
  | cons c rest ih =>
    rw [add]
    split
    · next hkey => simp [hkey]
    · rw [List.map_cons]
      exact List.mem_cons_of_mem _ ih

/-- To add an occurrence drops no key. -/
theorem keys_subset_add (sofar : List Collected) (o : Collected) :
    sofar.map (·.key) ⊆ (add sofar o).map (·.key) := by
  induction sofar with
  | nil => exact List.nil_subset _
  | cons c rest ih =>
    rw [add]
    split
    · exact List.Subset.refl _
    · rw [List.map_cons, List.map_cons]
      exact List.cons_subset_cons _ ih

/-- Fields with other keys may stand between. -/
theorem add_foldl_add {next : Collected} {between : List Collected}
    (h : ∀ o ∈ between, o.key ≠ next.key) {sofar : List Collected}
    (hmem : next.key ∈ sofar.map (·.key)) :
    add (between.foldl add sofar) next = between.foldl add (add sofar next) := by
  induction between generalizing sofar with
  | nil => rfl
  | cons o rest ih =>
    obtain ⟨hother, hrest⟩ := List.forall_mem_cons.mp h
    rw [List.foldl_cons, List.foldl_cons, ih hrest (keys_subset_add sofar o hmem),
      add_comm_other hother.symm hmem]

/-- The next occurrence of a key may be left out if what it selects is put
behind the selection of the one before. -/
theorem foldl_add_next {o next : Collected} (hkey : next.key = o.key) {between : List Collected}
    (h : ∀ o' ∈ between, o'.key ≠ o.key) (before after : List Collected) :
    (before ++ o :: (between ++ next :: after)).foldl add []
      = (before ++ { o with selections := o.selections ++ next.selections }
          :: (between ++ after)).foldl add [] := by
  have hmem : next.key ∈ (add (before.foldl add []) o).map (·.key) :=
    hkey ▸ mem_keys_add _ o
  rw [List.foldl_append, List.foldl_append, List.foldl_cons, List.foldl_cons, List.foldl_append,
    List.foldl_append, List.foldl_cons, add_foldl_add (hkey ▸ h) hmem, add_add_self hkey]

end Collected

end PropertyGraphQL
