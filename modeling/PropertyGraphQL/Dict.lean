/-
Dictionaries that remember the order in which keys were first given.

A dictionary is its list of entries. Giving a key again replaces its
value and keeps its place, so inserting never repeats a key
(`nodup_keys_insert`), and what was inserted last is what is found
(`get?_insert`).
-/
namespace PropertyGraphQL

/-- Entries in the order in which their keys were first given. -/
abbrev Dict (α : Type) := List (String × α)

namespace Dict

variable {α β : Type}

/-- The value of the first entry with the key. -/
def get? : Dict α → String → Option α
  | [], _ => none
  | (k, v) :: rest, key => if k = key then some v else get? rest key

/-- Whether there is an entry with the key. -/
def contains (d : Dict α) (key : String) : Bool :=
  (get? d key).isSome

/-- The keys, in order. -/
def keys (d : Dict α) : List String := d.map Prod.fst

/-- The values, in the order of their keys. -/
def values (d : Dict α) : List α := d.map Prod.snd

/-- Set the value of a key: in its place if it has one, else at the end. -/
def insert : Dict α → String → α → Dict α
  | [], key, v => [(key, v)]
  | (k, old) :: rest, key, v =>
      if k = key then (k, v) :: rest else (k, old) :: insert rest key v

/-- Set the value of a key that has none yet. -/
def insertNew (d : Dict α) (key : String) (v : α) : Dict α :=
  if contains d key then d else insert d key v

/-- The dictionary made by inserting the entries one after the other. -/
def ofEntries (entries : List (String × α)) : Dict α :=
  entries.foldl (fun d entry => insert d entry.1 entry.2) []

/-- Insert the entries of `more` one after the other. -/
def insertAll (d : Dict α) (more : List (String × α)) : Dict α :=
  more.foldl (fun d entry => insert d entry.1 entry.2) d

/-- Replace every value. -/
def mapValues (f : α → β) (d : Dict α) : Dict β :=
  d.map fun entry => (entry.1, f entry.2)

-- ================================================================ laws

@[simp] theorem get?_nil (key : String) : get? ([] : Dict α) key = none := rfl

@[simp] theorem get?_cons (k : String) (v : α) (rest : Dict α) (key : String) :
    get? ((k, v) :: rest) key = if k = key then some v else get? rest key := rfl

theorem get?_insert (d : Dict α) (key other : String) (v : α) :
    get? (insert d key v) other = if key = other then some v else get? d other := by
  induction d with
  | nil => simp [insert]
  | cons entry rest ih =>
    obtain ⟨k, old⟩ := entry
    by_cases h : k = key
    · subst h
      by_cases ho : k = other <;> simp [insert, ho]
    · by_cases ho : k = other
      · subst ho
        have h' : ¬ key = k := fun e => h e.symm
        simp [insert, h, h']
      · simp [insert, h, ho, ih]

theorem get?_insert_self (d : Dict α) (key : String) (v : α) :
    get? (insert d key v) key = some v := by
  simp [get?_insert]

theorem get?_insertNew (d : Dict α) (key other : String) (v : α) :
    get? (insertNew d key v) other = (get? d other).or (if key = other then some v else none) := by
  rw [insertNew, contains]
  by_cases h : key = other
  · subst h
    cases hkey : get? d key with
    | some old => simp [hkey]
    | none => simp [get?_insert_self]
  · cases hkey : get? d key with
    | some old => simp [h]
    | none => simp [get?_insert, h]

theorem keys_insert (d : Dict α) (key : String) (v : α) :
    keys (insert d key v) = if key ∈ keys d then keys d else keys d ++ [key] := by
  induction d with
  | nil => simp [insert, keys]
  | cons entry rest ih =>
    obtain ⟨k, old⟩ := entry
    by_cases h : k = key
    · subst h
      simp [insert, keys]
    · have h' : ¬ key = k := fun e => h e.symm
      by_cases hm : key ∈ keys rest
      · simp only [keys] at ih hm ⊢
        simp [insert, h, h', ih, hm]
      · simp only [keys] at ih hm ⊢
        simp [insert, h, h', ih, hm]

theorem mem_keys_insert (d : Dict α) (key other : String) (v : α) :
    other ∈ keys (insert d key v) ↔ other = key ∨ other ∈ keys d := by
  rw [keys_insert]
  split
  · next h => exact ⟨.inr, fun e => e.elim (fun e => e ▸ h) id⟩
  · simp [or_comm]

/-- Inserting keeps the keys distinct. -/
theorem nodup_keys_insert {d : Dict α} (h : (keys d).Nodup) (key : String) (v : α) :
    (keys (insert d key v)).Nodup := by
  rw [keys_insert]
  split
  · exact h
  · next hk =>
    rw [List.nodup_append]
    refine ⟨h, List.nodup_cons.mpr ⟨List.not_mem_nil, List.nodup_nil⟩, ?_⟩
    intro a ha b hb e
    rw [List.mem_singleton] at hb
    exact hk (hb ▸ e ▸ ha)

theorem get?_eq_none_iff {d : Dict α} {key : String} :
    get? d key = none ↔ key ∉ keys d := by
  induction d with
  | nil => simp [keys]
  | cons entry rest ih =>
    obtain ⟨k, v⟩ := entry
    by_cases h : k = key
    · simp [keys, h]
    · have h' : ¬ key = k := fun e => h e.symm
      simpa [keys, h, h'] using ih

theorem contains_iff {d : Dict α} {key : String} :
    contains d key = true ↔ key ∈ keys d := by
  rw [contains, Option.isSome_iff_ne_none, ne_eq, get?_eq_none_iff, Classical.not_not]

end Dict

end PropertyGraphQL
