/-
Dictionaries as they are built: entries inserted one after the other.

Of several entries with a key the last one counts (`get?_insertAll`), and
the key stands where it was given first. Entries whose keys are distinct
are a dictionary as they are (`ofEntries_eq_self`). Two dictionaries with
the same keys in the same order are equal once every key has the same value
in both (`ext_of_keys`); if only the values agree, one is the other in a
different order (`perm_of_get?`).
-/
import Mathlib.Data.List.Nodup
import PropertyGraphQL.Proofs.Data.Equality

namespace PropertyGraphQL

/-- Each element that is kept is kept once. -/
theorem nodup_eraseDups (names : List String) : names.eraseDups.Nodup := by
  match names with
  | [] => exact List.nodup_nil
  | name :: rest =>
    rw [List.eraseDups_cons, List.nodup_cons]
    refine ⟨fun hmem => ?_, nodup_eraseDups _⟩
    have hkept := (List.mem_filter.mp (List.mem_eraseDups.mp hmem)).2
    simp at hkept
termination_by names.length
decreasing_by exact Nat.lt_succ_of_le (List.length_filter_le _ _)

namespace Dict

variable {α β : Type}

-- ============================================================== one entry

/-- What stands in front is found first. -/
theorem get?_append (d e : Dict α) (key : String) :
    get? (d ++ e) key = (get? d key).or (get? e key) := by
  induction d with
  | nil => simp
  | cons entry rest ih =>
    obtain ⟨k, v⟩ := entry
    by_cases h : k = key
    · simp [h]
    · simp [h, ih]

/-- A dictionary made of a list: the first element with the key is found. -/
theorem get?_map (key : β → String) (value : β → α) (bs : List β) (k : String) :
    get? (bs.map fun b => (key b, value b)) k = (bs.find? fun b => key b = k).map value := by
  induction bs with
  | nil => rfl
  | cons b rest ih =>
    by_cases h : key b = k
    · simp [h]
    · simp [h, ih]

/-- A new key is added at the end. -/
theorem insert_of_notMem {d : Dict α} {key : String} (h : key ∉ keys d) (v : α) :
    insert d key v = d ++ [(key, v)] := by
  induction d with
  | nil => rfl
  | cons entry rest ih =>
    obtain ⟨k, old⟩ := entry
    have hk : k ≠ key := by
      rintro rfl
      exact h List.mem_cons_self
    have hrest : key ∉ keys rest := fun hmem => h (List.mem_cons_of_mem _ hmem)
    simp [insert, hk, ih hrest]

/-- Inserting adds the entry and no other. -/
theorem mem_of_mem_insert {d : Dict α} {key : String} {v : α} {entry : String × α}
    (h : entry ∈ insert d key v) : entry = (key, v) ∨ entry ∈ d := by
  induction d with
  | nil => exact .inl (List.mem_singleton.mp h)
  | cons first rest ih =>
    obtain ⟨k, old⟩ := first
    rw [insert] at h
    split at h
    · next hk =>
      rcases List.mem_cons.mp h with h | h
      · exact .inl (hk ▸ h)
      · exact .inr (List.mem_cons_of_mem _ h)
    · rcases List.mem_cons.mp h with h | h
      · exact .inr (h ▸ List.mem_cons_self)
      · exact (ih h).imp_right (List.mem_cons_of_mem _)

/-- A value that is set again replaces the one before. -/
theorem insert_insert_self (d : Dict α) (key : String) (v w : α) :
    insert (insert d key v) key w = insert d key w := by
  induction d with
  | nil => simp [insert]
  | cons entry rest ih =>
    obtain ⟨k, old⟩ := entry
    by_cases h : k = key
    · simp [insert, h]
    · simp [insert, h, ih]

-- ============================================================ many entries

theorem insertAll_append (d : Dict α) (more others : List (String × α)) :
    insertAll d (more ++ others) = insertAll (insertAll d more) others :=
  List.foldl_append

/-- Of the entries inserted with a key, the last one counts. -/
theorem get?_insertAll (d : Dict α) (more : List (String × α)) (key : String) :
    get? (insertAll d more) key = (get? more.reverse key).or (get? d key) := by
  induction more generalizing d with
  | nil => simp [insertAll]
  | cons entry rest ih =>
    obtain ⟨k, v⟩ := entry
    have hrest := ih (insert d k v)
    rw [get?_insert] at hrest
    rw [List.reverse_cons, get?_append, Option.or_assoc]
    by_cases h : k = key
    · rw [if_pos h] at hrest
      simpa [insertAll, h] using hrest
    · rw [if_neg h] at hrest
      simpa [insertAll, h] using hrest

/-- What is inserted is found alike in dictionaries in which the same was found before. -/
theorem get?_insertAll_congr {d d' : Dict α} (h : ∀ key, get? d key = get? d' key)
    (more : List (String × α)) (key : String) :
    get? (insertAll d more) key = get? (insertAll d' more) key := by
  rw [get?_insertAll, get?_insertAll, h]

/-- Entries of different keys may be inserted in either order: the same is found. -/
theorem get?_insertAll_comm (d : Dict α) {more others : List (String × α)}
    (h : (keys more).Disjoint (keys others)) (key : String) :
    get? (insertAll d (more ++ others)) key = get? (insertAll d (others ++ more)) key := by
  have hnone (entries : List (String × α)) (hkey : key ∉ keys entries) :
      get? entries.reverse key = none := by
    rw [get?_eq_none_iff]
    simpa [keys] using hkey
  rw [get?_insertAll, get?_insertAll, List.reverse_append, List.reverse_append, get?_append,
    get?_append]
  by_cases hmore : key ∈ keys more
  · rw [hnone others (h hmore), Option.none_or, Option.or_none]
  · rw [hnone more hmore, Option.none_or, Option.or_none]

/-- Insertion keeps keys distinct. -/
theorem nodup_keys_insertAll {d : Dict α} (h : (keys d).Nodup) (more : List (String × α)) :
    (keys (insertAll d more)).Nodup := by
  induction more generalizing d with
  | nil => exact h
  | cons entry rest ih => exact ih (nodup_keys_insert h _ _)

/-- The keys are those before and those of the inserted entries. -/
theorem mem_keys_insertAll {d : Dict α} {more : List (String × α)} {key : String} :
    key ∈ keys (insertAll d more) ↔ key ∈ keys d ∨ key ∈ keys more := by
  have hreverse : key ∈ keys more.reverse ↔ key ∈ keys more := by
    simp [keys]
  rw [← not_iff_not, not_or, ← get?_eq_none_iff, ← get?_eq_none_iff, get?_insertAll,
    Option.or_eq_none_iff, get?_eq_none_iff, hreverse]
  exact and_comm

theorem ofEntries_append (entries more : List (String × α)) :
    ofEntries (entries ++ more) = insertAll (ofEntries entries) more :=
  insertAll_append [] entries more

/-- No key is lost, and none is made up. -/
theorem mem_keys_ofEntries {entries : List (String × α)} {key : String} :
    key ∈ keys (ofEntries entries) ↔ key ∈ keys entries := by
  show key ∈ keys (insertAll [] entries) ↔ key ∈ keys entries
  rw [mem_keys_insertAll]
  simp [keys]

theorem nodup_keys_ofEntries (entries : List (String × α)) : (keys (ofEntries entries)).Nodup :=
  nodup_keys_insertAll (d := []) List.nodup_nil entries

/-- Every entry of a dictionary is one of those it was made of. -/
theorem mem_of_mem_ofEntries {entries : List (String × α)} {entry : String × α}
    (h : entry ∈ ofEntries entries) : entry ∈ entries := by
  have hinsert (d : Dict α) (more : List (String × α)) (h : entry ∈ insertAll d more) :
      entry ∈ d ∨ entry ∈ more := by
    induction more generalizing d with
    | nil => exact .inl h
    | cons first rest ih =>
      rcases ih (insert d first.1 first.2) h with h | h
      · rcases mem_of_mem_insert h with rfl | h
        · exact .inr List.mem_cons_self
        · exact .inl h
      · exact .inr (List.mem_cons_of_mem _ h)
  exact (hinsert [] entries h).elim (fun h => by cases h) id

/-- The keys do not depend on the values. -/
theorem keys_insertAll_congr {d d' : Dict α} {more more' : List (String × α)}
    (hd : keys d = keys d') (hmore : keys more = keys more') :
    keys (insertAll d more) = keys (insertAll d' more') := by
  induction more generalizing d d' more' with
  | nil =>
    cases more' with
    | nil => exact hd
    | cons entry' rest' => cases hmore
  | cons entry rest ih =>
    cases more' with
    | nil => cases hmore
    | cons entry' rest' =>
      obtain ⟨k, v⟩ := entry
      obtain ⟨k', v'⟩ := entry'
      obtain ⟨rfl, hrest⟩ := List.cons.inj hmore
      apply ih _ hrest
      rw [keys_insert, keys_insert, hd]

/-- Entries with new and distinct keys are appended. -/
theorem insertAll_eq_append {d : Dict α} {more : List (String × α)}
    (h : (keys (d ++ more)).Nodup) : insertAll d more = d ++ more := by
  induction more generalizing d with
  | nil => simp [insertAll]
  | cons entry rest ih =>
    obtain ⟨k, v⟩ := entry
    have hk : k ∉ keys d := by
      simp only [keys, List.map_append, List.map_cons] at h ⊢
      intro hmem
      exact List.disjoint_of_nodup_append h hmem List.mem_cons_self
    have hstep : insertAll d ((k, v) :: rest) = insertAll (insert d k v) rest := rfl
    rw [hstep, insert_of_notMem hk, ih]
    · simp
    · simpa using h

/-- Entries with distinct keys are a dictionary. -/
theorem ofEntries_eq_self {entries : List (String × α)} (h : (keys entries).Nodup) :
    ofEntries entries = entries :=
  insertAll_eq_append (d := []) h

-- ================================================================ equality

/-- A dictionary is determined by its keys and what is found under them. -/
theorem ext_of_keys {d d' : Dict α} (hkeys : keys d = keys d') (hnodup : (keys d).Nodup)
    (hget : ∀ key, get? d key = get? d' key) : d = d' := by
  induction d generalizing d' with
  | nil =>
    cases d' with
    | nil => rfl
    | cons entry' rest' => cases hkeys
  | cons entry rest ih =>
    cases d' with
    | nil => cases hkeys
    | cons entry' rest' =>
      obtain ⟨k, v⟩ := entry
      obtain ⟨k', v'⟩ := entry'
      obtain ⟨rfl, hrest⟩ := List.cons.inj hkeys
      obtain ⟨hk, hnodup⟩ := List.nodup_cons.mp hnodup
      obtain rfl : v = v' := by simpa using hget k
      congr 1
      apply ih hrest hnodup
      intro key
      by_cases h : k = key
      · subst h
        have hk' : k ∉ keys rest' := by
          intro hmem
          exact hk (hrest.symm ▸ hmem)
        rw [get?_eq_none_iff.mpr hk, get?_eq_none_iff.mpr hk']
      · simpa [h] using hget key

/-- Two dictionaries with the same keys stay different by inserting the same
entries, unless these give the keys at which they differ. -/
theorem insertAll_eq_iff {d d' : Dict α} (hkeys : keys d = keys d') (hnodup : (keys d).Nodup)
    (more : List (String × α)) :
    insertAll d more = insertAll d' more ↔ ∀ key ∉ keys more, get? d key = get? d' key := by
  have hnone (key : String) : get? more.reverse key = none ↔ key ∉ keys more := by
    rw [get?_eq_none_iff]
    simp [keys]
  constructor
  · intro heq key hkey
    have hget := congrArg (fun e => get? e key) heq
    simpa only [get?_insertAll, (hnone key).mpr hkey, Option.none_or] using hget
  · intro hget
    apply ext_of_keys (keys_insertAll_congr hkeys rfl) (nodup_keys_insertAll hnodup more)
    intro key
    rw [get?_insertAll, get?_insertAll]
    by_cases h : key ∈ keys more
    · cases hlast : get? more.reverse key with
      | some v => rfl
      | none => exact absurd h ((hnone key).mp hlast)
    · rw [hget key h]

/-- Dictionaries in which the same is found under every key have the same entries. -/
theorem perm_of_get? {d d' : Dict α} (hd : (keys d).Nodup) (hd' : (keys d').Nodup)
    (hget : ∀ key, get? d key = get? d' key) : d.Perm d' := by
  apply (List.perm_ext_iff_of_nodup (List.Nodup.of_map _ hd) (List.Nodup.of_map _ hd')).mpr
  rintro ⟨key, v⟩
  rw [← get?_eq_some_iff hd, ← get?_eq_some_iff hd', hget]

end Dict

end PropertyGraphQL
