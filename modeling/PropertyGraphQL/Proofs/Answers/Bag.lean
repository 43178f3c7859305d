/-
When two results hold the same data.

The rows of a result are a bag, and the order of the elements of a list that
was collected or comprehended carries no meaning. Two values are alike if they
are equal up to the order of elements in the lists in them, at any depth.
-/
import Mathlib.Data.List.Perm.Basic
import PropertyGraphQL.Proofs.Semantics.Rows

namespace PropertyGraphQL.Cypher

mutual

/-- Two values are equal up to the order of elements in lists. -/
inductive Datum.Alike : Datum → Datum → Prop where
  | same (d : Datum) : Alike d d
  | list {as bs cs : List Datum} (hperm : as.Perm bs) (h : List.Forall₂ Datum.Alike bs cs) :
      Alike (.list as) (.list cs)
  | map {as bs : List (String × Datum)} (h : Datum.EntriesAlike as bs) : Alike (.map as) (.map bs)

/-- The same names, in their order, have values that are alike. -/
inductive Datum.EntriesAlike : List (String × Datum) → List (String × Datum) → Prop where
  | nil : EntriesAlike [] []
  | cons {key : String} {a b : Datum} {as bs : List (String × Datum)} (h : Datum.Alike a b)
      (hrest : Datum.EntriesAlike as bs) : EntriesAlike ((key, a) :: as) ((key, b) :: bs)

end

/-- Two bags of rows are equal up to the order of elements in lists. -/
def SameBag (rows rows' : List (Dict Datum)) : Prop :=
  ∃ reordered, rows.Perm reordered ∧ List.Forall₂ Datum.EntriesAlike reordered rows'

namespace Datum

/-- Lists that are alike have equally many elements. -/
theorem Alike.length_eq {as bs : List Datum} (h : Alike (.list as) (.list bs)) :
    as.length = bs.length := by
  cases h with
  | same => rfl
  | list hperm h => exact hperm.length_eq.trans h.length_eq

/-- Maps that are alike have values that are alike under their first key. -/
theorem EntriesAlike.head {key : String} {a b : Datum} {as bs : List (String × Datum)}
    (h : EntriesAlike ((key, a) :: as) ((key, b) :: bs)) : Alike a b := by
  cases h with
  | cons h _ => exact h

end Datum

end PropertyGraphQL.Cypher
