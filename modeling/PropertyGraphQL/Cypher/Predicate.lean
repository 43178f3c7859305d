/-
Connectives that simplify as they go.

`and` and `or` absorb, drop units and drop a repeated operand; `not` turns
a comparison for equality, a test for null and a quantifier into its
opposite where there is one. `all` and `any` combine a whole list.
-/
import PropertyGraphQL.Cypher.Expression

namespace PropertyGraphQL.Cypher.Predicate

/-- The conjunction of two predicates. -/
def and : Predicate → Predicate → Predicate
  | .never, _ => .never
  | _, .never => .never
  | .always, q => q
  | p, .always => p
  | p, q => if p.same q then p else .conj p q

/-- The disjunction of two predicates. -/
def or : Predicate → Predicate → Predicate
  | .always, _ => .always
  | _, .always => .always
  | .never, q => q
  | p, .never => p
  | p, q => if p.same q then p else .disj p q

/-- The conjunction of all predicates of a list, taken from the left. -/
def all (ps : List Predicate) : Predicate :=
  ps.foldl and .always

/-- The disjunction of all predicates of a list, taken from the left. -/
def any (ps : List Predicate) : Predicate :=
  ps.foldl or .never

/-- The negation of a predicate. -/
def not : Predicate → Predicate
  | .always => .never
  | .never => .always
  | .compare .eq a b => .compare .neq a b
  | .compare .neq a b => .compare .eq a b
  | .isNull e => .isNotNull e
  | .isNotNull e => .isNull e
  | .quantified .any x e p => .quantified .none x e p
  | .quantified .none x e p => .quantified .any x e p
  | .neg p => p
  | p => .neg p

theorem and_never (p : Predicate) : and p .never = .never := by
  cases p <;> rfl

theorem or_always (p : Predicate) : or p .always = .always := by
  cases p <;> rfl

theorem and_always (p : Predicate) : and p .always = p := by
  cases p <;> rfl

theorem or_never (p : Predicate) : or p .never = p := by
  cases p <;> rfl

end PropertyGraphQL.Cypher.Predicate
