/-
Three-valued truth, which a condition has where a value may be missing.

A comparison with a missing value is neither true nor false. The
connectives are those of Kleene: an unknown operand leaves the result
open unless the other operand decides it. A quantifier over a list is
the connective over the truths of its elements, except that `SINGLE`
counts them.
-/
import PropertyGraphQL.Cypher.Expression

namespace PropertyGraphQL.Cypher

/-- The truth of a condition. -/
inductive Truth where
  | no
  | unknown
  | yes
deriving DecidableEq, Repr

namespace Truth

def ofBool (b : Bool) : Truth := if b then .yes else .no

/-- Not yes and no: the unknown stays unknown. -/
def not : Truth → Truth
  | .no => .yes
  | .unknown => .unknown
  | .yes => .no

/-- The lesser of two truths, where no is below unknown and unknown below
yes. -/
def and : Truth → Truth → Truth
  | .no, _ => .no
  | _, .no => .no
  | .yes, .yes => .yes
  | _, _ => .unknown

/-- The greater of two truths. -/
def or : Truth → Truth → Truth
  | .yes, _ => .yes
  | _, .yes => .yes
  | .no, .no => .no
  | _, _ => .unknown

/-- The conjunction of a list. -/
def all : List Truth → Truth
  | [] => .yes
  | t :: rest => t.and (all rest)

/-- The disjunction of a list. -/
def any : List Truth → Truth
  | [] => .no
  | t :: rest => t.or (any rest)

/-- Whether exactly one element is true. Two that are true refute it, and
otherwise an unknown element leaves it open. -/
def single (ts : List Truth) : Truth :=
  if 2 ≤ ts.count .yes then .no
  else if ts.contains .unknown then .unknown
  else ofBool (ts.count .yes = 1)

-- ================================================================ laws

theorem not_not (a : Truth) : a.not.not = a := by
  cases a <;> rfl

theorem no_and (a : Truth) : no.and a = no := rfl

theorem and_no (a : Truth) : a.and .no = .no := by
  cases a <;> rfl

theorem yes_and (a : Truth) : yes.and a = a := by
  cases a <;> rfl

theorem and_yes (a : Truth) : a.and .yes = a := by
  cases a <;> rfl

theorem and_self (a : Truth) : a.and a = a := by
  cases a <;> rfl

theorem and_assoc (a b c : Truth) : (a.and b).and c = a.and (b.and c) := by
  cases a <;> cases b <;> cases c <;> rfl

theorem yes_or (a : Truth) : yes.or a = yes := rfl

theorem or_yes (a : Truth) : a.or .yes = .yes := by
  cases a <;> rfl

theorem no_or (a : Truth) : no.or a = a := by
  cases a <;> rfl

theorem or_no (a : Truth) : a.or .no = a := by
  cases a <;> rfl

theorem or_self (a : Truth) : a.or a = a := by
  cases a <;> rfl

theorem or_assoc (a b c : Truth) : (a.or b).or c = a.or (b.or c) := by
  cases a <;> cases b <;> cases c <;> rfl

end Truth

/-- The truth of a quantified condition, from its truth for each element. -/
def Quantifier.truth : Quantifier → List Truth → Truth
  | .any, ts => Truth.any ts
  | .none, ts => (Truth.any ts).not
  | .all, ts => Truth.all ts
  | .single, ts => Truth.single ts

/-- A condition that always holds is satisfied by some element exactly if
there is one. -/
theorem Truth.any_map_yes {α : Type} (xs : List α) :
    Truth.any (xs.map fun _ => .yes) = .ofBool (!xs.isEmpty) := by
  cases xs with
  | nil => rfl
  | cons x xs => rfl

end PropertyGraphQL.Cypher
