/-
Filter operators.

An operator other than equality is written behind the name of the field
it applies to, after an underscore: `born_gte`, `name_starts_with`. Such a
name is read with the longest suffix first, and only if what stands before
it is the name of a field; otherwise it means equality.
-/
import PropertyGraphQL.Model.Field
import PropertyGraphQL.Text.Affix

namespace PropertyGraphQL

/-- How a field is compared with the value of an argument. -/
inductive Operator where
  | eq
  | neq
  | gte
  | gt
  | lte
  | lt
  | notOneOf
  | oneOf
  | notContains
  | notStartsWith
  | notEndsWith
  | contains
  | startsWith
  | endsWith
  | some
  | none
  | every
  | single
deriving DecidableEq, Repr

namespace Operator

/-- What is written behind the field's name and an underscore; nothing for
equality. -/
def suffix : Operator → String
  | eq => ""
  | neq => "not"
  | gte => "gte"
  | gt => "gt"
  | lte => "lte"
  | lt => "lt"
  | notOneOf => "not_in"
  | oneOf => "in"
  | notContains => "not_contains"
  | notStartsWith => "not_starts_with"
  | notEndsWith => "not_ends_with"
  | contains => "contains"
  | startsWith => "starts_with"
  | endsWith => "ends_with"
  | some => "some"
  | none => "none"
  | every => "every"
  | single => "single"

/-- The operator without its negation. -/
def positive : Operator → Operator
  | neq => eq
  | notOneOf => oneOf
  | notContains => contains
  | notStartsWith => startsWith
  | notEndsWith => endsWith
  | op => op

def isNegated (op : Operator) : Bool := op.positive ≠ op

/-- The operators with a suffix, the longest suffixes first. -/
def longestFirst : List Operator :=
  [notStartsWith, notEndsWith, notContains, startsWith, endsWith, contains, notOneOf, single,
    every, some, none, neq, gte, lte, gt, lt, oneOf]

/-- What follows the field's name in the name of an argument. -/
def ending (op : Operator) : String :=
  match op with
  | eq => ""
  | op => "_" ++ op.suffix

/-- The name of the argument that applies the operator to the field. -/
def argumentName (op : Operator) (field : String) : String := field ++ op.ending

/-- The field that an argument's name refers to, and the operator. -/
def resolve (declared : String → Bool) (argument : String) : String × Operator :=
  (longestFirst.findSome? fun op =>
    (Text.dropTail? argument op.ending).bind fun field =>
      if declared field then Option.some (field, op) else Option.none).getD (argument, eq)

/-- The operators that compare texts. -/
def textual : List Operator :=
  [contains, notContains, startsWith, notStartsWith, endsWith, notEndsWith]

/-- The operators that ask how many related nodes satisfy a filter. -/
def quantifiers : List Operator := [some, none, every, single]

/-- The operators that apply to properties of a type. -/
def forType (t : FieldType) : List Operator :=
  match t.kind with
  | .boolean => [eq, neq]
  | .enum => [eq, neq, oneOf, notOneOf]
  | .object => [eq, neq, oneOf, notOneOf]
  | kind =>
      [eq, neq, oneOf, notOneOf, lt, lte, gt, gte] ++ if kind.isStringLike then textual else []

/-- The operators that apply to a relationship. -/
def forRelationship (r : RelationshipField) : List Operator :=
  [eq, neq, oneOf, notOneOf] ++ if r.multi then quantifiers else []

/-- Every operator but equality has its place in `longestFirst`. -/
theorem mem_longestFirst {op : Operator} : op ∈ longestFirst ↔ op ≠ eq := by
  cases op <;> decide

/-- No suffix in `longestFirst` is longer than one before it. -/
theorem pairwise_longestFirst :
    longestFirst.Pairwise fun a b => b.suffix.toList.length ≤ a.suffix.toList.length := by
  decide

end Operator

end PropertyGraphQL
