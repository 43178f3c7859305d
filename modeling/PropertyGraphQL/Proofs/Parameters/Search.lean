/-
Which of the names tried a value is bound to.

The names tried are a sequence without end (`candidate`), of which only the
beginning is looked at: one more name than there are parameters. The search
ends there, at the first name of the whole sequence that may stand for the
value (`exists_firstUsable`). Once the value is bound to it, this is still
the first for every equal value (`FirstUsable.set`): the names before it
have values that are not equal to the one, and so to none that equals it.
-/
import Mathlib.Data.List.Nodup
import PropertyGraphQL.Proofs.Parameters.Yields

namespace PropertyGraphQL

open Cypher

namespace Parameters

/-- The name that is tried after `i` others: the name itself, then the name
with the numbers from 1 on behind it. -/
def candidate (name : String) : Nat → String
  | 0 => name
  | i + 1 => name ++ "_" ++ (i + 1).repr

/-- A name may stand for a value: it is not bound, or to an equal value. -/
def Usable (p : Parameters) (value : Json) (name : String) : Prop :=
  ∀ old, p.bound.get? name = some old → old.same value = true

/-- A candidate may stand for a value, and none before it may. -/
structure FirstUsable (p : Parameters) (name : String) (value : Json) (i : Nat) : Prop where
  usable : p.Usable value (candidate name i)
  before : ∀ j < i, ¬ p.Usable value (candidate name j)

section

variable {p : Parameters} {name : String} {value value' : Json} {i : Nat}

/-- A name is available exactly if it may be used for the value. -/
theorem available_iff : p.available value name = true ↔ p.Usable value name := by
  unfold available Usable
  cases p.bound.get? name with
  | none => exact iff_of_true rfl nofun
  | some old => simp

/-- The names looked at are the beginning of the sequence. -/
theorem candidates_eq :
    p.candidates name = (List.range (p.bound.length + 1)).map (candidate name) := by
  rw [List.range_succ_eq_map, List.map_cons, List.map_map]
  rfl

variable (p name value) in
/-- The search ends among the names looked at, and nothing else would come of
looking at more. -/
theorem exists_firstUsable :
    ∃ i ≤ p.bound.length, p.FirstUsable name value i
      ∧ p.freeName name value = candidate name i := by
  unfold freeName
  rw [candidates_eq, List.find?_map]
  cases hfind : (List.range (p.bound.length + 1)).find? (p.available value ∘ candidate name) with
  | none =>
    obtain ⟨c, hmem, hc⟩ := p.exists_available name value
    rw [candidates_eq] at hmem
    obtain ⟨j, hj, rfl⟩ := List.mem_map.mp hmem
    exact absurd hc (List.find?_eq_none.mp hfind j hj)
  | some i =>
    obtain ⟨husable, hi, hbefore⟩ := List.find?_range_eq_some.mp hfind
    refine ⟨i, Nat.le_of_lt_succ (List.mem_range.mp hi), ⟨available_iff.mp husable, ?_⟩, rfl⟩
    intro j hj hj'
    have hnot := hbefore j hj
    rw [Function.comp_apply, available_iff.mpr hj'] at hnot
    cases hnot

/-- The candidates for a name are different. -/
theorem candidate_injective {j : Nat} (h : candidate name i = candidate name j) : i = j := by
  -- both are among the names tried with as many parameters
  let q : Parameters := ⟨[], List.replicate (max i j) (name, .null)⟩
  have hnodup := q.nodup_candidates name
  rw [candidates_eq, List.length_replicate] at hnodup
  have hi : i < max i j + 1 := by omega
  have hj : j < max i j + 1 := by omega
  exact List.inj_on_of_nodup_map hnodup (List.mem_range.mpr hi) (List.mem_range.mpr hj) h

/-- A value is still bound to the same name if it is bound once more, be it in
another form. -/
theorem FirstUsable.set (h : p.FirstUsable name value i) (hkeys : value.KeysDistinct)
    (hsame : value.same value' = true) :
    (p.set (candidate name i) value).FirstUsable name value' i where
  usable old hold := by
    rw [Parameters.set, Dict.get?_insert_self] at hold
    cases hold
    exact hsame
  before j hj husable := by
    refine h.before j hj fun old hold => ?_
    have hne : candidate name i ≠ candidate name j := fun heq => by
      have := candidate_injective heq
      omega
    have hold' : (p.set (candidate name i) value).bound.get? (candidate name j) = some old := by
      rw [Parameters.set, Dict.get?_insert, if_neg hne]
      exact hold
    exact Json.same_trans (husable old hold') (Json.same_symm hkeys hsame)

/-- There is one first candidate that may be used. -/
theorem FirstUsable.unique {j : Nat} (hi : p.FirstUsable name value i)
    (hj : p.FirstUsable name value j) : i = j := by
  rcases Nat.lt_trichotomy i j with hlt | heq | hlt
  · exact absurd hi.usable (hj.before i hlt)
  · exact heq
  · exact absurd hj.usable (hi.before j hlt)

/-- The name that is chosen is the first candidate that may be used. -/
theorem FirstUsable.freeName_eq (h : p.FirstUsable name value i) :
    p.freeName name value = candidate name i := by
  obtain ⟨j, -, hj, heq⟩ := p.exists_firstUsable name value
  rw [heq, hj.unique h]

end

end Parameters

namespace Compiling

open Parameters

theorem run_bind (p : Parameters) (name : String) (value : Json) :
    (bind name value).run p
      = .ok (.parameter (p.freeName name value), p.set (p.freeName name value) value) := rfl

/-- **A value is bound to the first name that may stand for it**, which is found
after at most one try more than there are parameters. What was bound keeps its
value, up to equality of data, and an equal value that is bound next under the
same name gets the same parameter. -/
theorem bind_first_usable (p : Parameters) (name : String) (value : Json) :
    ∃ i ≤ p.bound.length, ∃ p', p.FirstUsable name value i
      ∧ p.freeName name value = candidate name i
      ∧ (bind name value).run p = .ok (.parameter (candidate name i), p')
      ∧ p'.bound.get? (candidate name i) = some value
      ∧ p.bound.Keeps p'.bound
      ∧ ∀ value', value.KeysDistinct → value.same value' = true →
          ∃ p'', (bind name value').run p' = .ok (.parameter (candidate name i), p'') := by
  obtain ⟨i, hi, hfirst, hname⟩ := p.exists_firstUsable name value
  refine ⟨i, hi, p.set (candidate name i) value, hfirst, hname, ?_, ?_, ?_, ?_⟩
  · rw [run_bind, hname]
  · exact Dict.get?_insert_self _ _ _
  · exact keeps_set (available_iff.mpr hfirst.usable)
  · intro value' hkeys hsame
    rw [run_bind, (hfirst.set hkeys hsame).freeName_eq]
    exact ⟨_, rfl⟩

/-- Two names are taken by other values, so the third is bound; an object with its
members in another order is equal to it. -/
theorem bind_first_usable_third :
    let p : Parameters := ⟨[], [("name", .str "Carrie"), ("name_1", .null)]⟩
    let born : Json := .obj [("year", .int 1964), ("month", .int 9)]
    let again : Json := .obj [("month", .int 9), ("year", .int 1964)]
    ∃ p' p'', (bind "name" born).run p = .ok (.parameter "name_2", p')
      ∧ born.KeysDistinct ∧ born.same again = true
      ∧ (bind "name" again).run p' = .ok (.parameter "name_2", p'') := by
  intro p born again
  obtain ⟨i, -, p', -, hname, hbind, -, -, hagain⟩ := bind_first_usable p "name" born
  have hthird : candidate "name" i = "name_2" := hname.symm.trans (by decide +kernel)
  have hkeys : born.KeysDistinct := ⟨by decide, trivial, trivial, trivial⟩
  have hsame : born.same again = true := by decide +kernel
  obtain ⟨p'', hsecond⟩ := hagain again hkeys hsame
  exact ⟨p', p'', hthird ▸ hbind, hkeys, hsame, hthird ▸ hsecond⟩

end Compiling

end PropertyGraphQL
