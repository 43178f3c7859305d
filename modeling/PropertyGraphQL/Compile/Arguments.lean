/-
What the arguments of a field ask of the entities it stands for: which of
them, in which order, and how many.

`first`, `offset`, `orderBy` and `filter` have their own meaning; any other
argument names a property with an operator, or the plural of a property,
which asks for one of several values. A plural is recognized by a final
`s` alone.
-/
import PropertyGraphQL.Compile.Filter
import PropertyGraphQL.Cypher.Clause
import PropertyGraphQL.Request.Selection
import PropertyGraphQL.Text.Case

namespace PropertyGraphQL

open Cypher

/-- What is asked of the entities of a field. -/
structure ScopeArguments where
  condition : Predicate
  /-- The properties to sort by, the most important first. -/
  orderBy : List (String × SortOrder)
  skip : Option Int
  limit : Option Int

-- ============================================== number and order of entities

/-- A number of entities: an integer from 0 to 2^63 - 1. -/
def Json.count (argument : String) (value : Json) : Except CompileError Int :=
  let invalid := CompileError.invalidArgument argument
    ("expected a non-negative integer, got " ++ value.compact)
  match value.asInt64? with
  | some n => if 0 ≤ n then .ok n else .error invalid
  | none => .error invalid

/-- The bounds of the part of a list that begins after `skip` elements and
has `limit` elements; both open if there is neither. The upper bound stays
below 2^63. -/
def sliceBounds (skip limit : Option Int) : Option Int × Option Int :=
  match skip, limit with
  | none, none => (none, none)
  | skip, limit =>
      let first := skip.getD 0
      (some first, limit.map fun n => min (first + n) maxInt64)

/-- An order, written as a property and `asc` or `desc` behind an underscore. -/
def EntityType.ordering (t : EntityType) (text : String) :
    Except CompileError (String × SortOrder) := do
  let some (property, word) := Text.splitLast? '_' text | throw (.invalidOrdering text)
  let ordering ←
    match Text.lowercase word with
    | "asc" => pure SortOrder.ascending
    | "desc" => pure SortOrder.descending
    | _ => throw (.invalidOrdering text)
  if (t.property? property).isSome then return (property, ordering)
  else throw (.invalidOrdering text)

/-- An order in a list of orders. -/
def EntityType.orderingOf (t : EntityType) : Json → Except CompileError (String × SortOrder)
  | .str text => t.ordering text
  | value => .error (.invalidOrdering value.compact)

/-- What to sort by: an order, a list of orders, or nothing. -/
def EntityType.orderings (t : EntityType) :
    Json → Except CompileError (List (String × SortOrder))
  | .null => .ok []
  | .arr elems => elems.mapM t.orderingOf
  | value => do return [← t.orderingOf value]

-- ====================================================== plain arguments

namespace Value

/-- Whether the value is a list, or a variable that is one. -/
def isList : Value → Compiling Bool
  | .list _ => pure true
  | .var name => do return (← Compiling.valueOf name).isArray
  | _ => pure false

/-- Whether the value is null, or a variable that is. -/
def isNull : Value → Compiling Bool
  | .null => pure true
  | .var name => do return (← Compiling.valueOf name).isNull
  | _ => pure false

end Value

namespace EntityType

/-- The property that a name is the plural of, if no field has that name. -/
def pluralOf? (t : EntityType) (name : String) : Option String :=
  (Text.dropTail? name "s").bind fun singular =>
    match t.property? singular with
    | some property =>
        if !t.hasField name && (Operator.forType property.type).contains .oneOf then some singular
        else none
    | none => none

/-- The condition of an argument that names a property and an operator. -/
def comparisonArgument (t : EntityType) (entity name : String) (value : Value) :
    Compiling Predicate := do
  let (field, op) := Operator.resolve t.properties.contains name
  let some property := t.property? field | throw (.unknownArgument t.name name)
  let rhs ← if ← value.isNull then pure none else some <$> value.expression
  op.predicate property (.property entity field) rhs

/-- The condition of an argument without a meaning of its own. -/
def plainArgument (t : EntityType) (entity name : String) (value : Value) :
    Compiling Predicate := do
  match t.pluralOf? name with
  | some singular =>
      if ← value.isList then
        return .compare .member (.property entity singular) (← value.expression)
      else t.comparisonArgument entity name value
  | none => t.comparisonArgument entity name value

end EntityType

-- ======================================================= all arguments

namespace ScopeArguments

/-- Nothing is asked. -/
def none : ScopeArguments := ⟨.always, [], Option.none, Option.none⟩

/-- The bounds of the part of the list of entities that is asked for. -/
def bounds (a : ScopeArguments) : Option Int × Option Int := sliceBounds a.skip a.limit

/-- The order asked for, of entities that a variable is bound to. -/
def orderByClause (a : ScopeArguments) (entity : String) : Option OrderBy :=
  if a.orderBy.isEmpty then Option.none
  else some (a.orderBy.map fun (property, ordering) => (.property entity property, ordering))

/-- What is asked so far, and the conditions besides. -/
abbrev Gathered := ScopeArguments × List Predicate

/-- Take a further argument into account. -/
def gather (catalog : Catalog) (t : EntityType) (entity : String) (sofar : Gathered)
    (argument : String × Value) : Compiling Gathered := do
  let (a, conditions) := sofar
  let (name, value) := argument
  match name with
  | "first" =>
      let n ← (← Compiling.resolve value).count name
      return ({ a with limit := some n }, conditions)
  | "offset" =>
      let n ← (← Compiling.resolve value).count name
      return ({ a with skip := some n }, conditions)
  | "orderBy" =>
      let orderBy ← t.orderings (← Compiling.resolve value)
      return ({ a with orderBy }, conditions)
  | "filter" =>
      let p ← (← Compiling.resolve value).filterPredicate catalog t entity
      return (a, conditions ++ [p])
  | _ =>
      let p ← t.plainArgument entity name value
      return (a, conditions ++ [p])

/-- What the arguments of a field ask of the entities that a variable is
bound to. Those in `declared` are meant for a statement and left out. -/
def ofArguments (catalog : Catalog) (t : EntityType) (entity : String)
    (declared : Dict DeclaredArgument) (arguments : Dict Value) : Compiling ScopeArguments := do
  let own := arguments.filter fun (name, _) => !declared.contains name
  let (a, conditions) ← own.foldlM (gather catalog t entity) (none, [])
  return { a with condition := .all conditions }

end ScopeArguments

end PropertyGraphQL
