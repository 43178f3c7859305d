/-
Filters: conditions on an entity given as data.

A filter is an object whose entries all have to hold. An entry is named
after a field with an operator. On a property the operator compares; on a
relationship it says how many related entities have to satisfy a filter of
their own. `AND` and `OR` combine filters. A filter can be read on any
type, and what is inside it is read on the types that its keys lead to.
-/
import PropertyGraphQL.Compile.Error
import PropertyGraphQL.Compile.Parameters
import PropertyGraphQL.Compile.Traversal
import PropertyGraphQL.Cypher.Predicate
import PropertyGraphQL.Json.Writer
import PropertyGraphQL.Model.Catalog
import PropertyGraphQL.Model.Operator

namespace PropertyGraphQL

open Cypher

namespace Operator

/-- The comparison that a positive operator makes of two values. -/
def comparison? : Operator → Option Comparison
  | eq => Option.some .eq
  | gte => Option.some .gte
  | gt => Option.some .gt
  | lte => Option.some .lte
  | lt => Option.some .lt
  | oneOf => Option.some .member
  | contains => Option.some .contains
  | startsWith => Option.some .startsWith
  | endsWith => Option.some .endsWith
  | _ => Option.none

/-- The condition that a positive operator puts on a property. Equality
with null asks whether there is a value. -/
def condition? (op : Operator) (lhs : Expression) (rhs : Option Expression) :
    Option Predicate :=
  match op, rhs with
  | eq, Option.none => Option.some (.isNull lhs)
  | op, rhs => op.comparison?.map fun c => .compare c lhs (rhs.getD (.literal .null))

/-- The condition that an operator puts on the property `lhs`; without
`rhs` it is compared with null. -/
def predicate (op : Operator) (property : PropertyField) (lhs : Expression)
    (rhs : Option Expression) : Except CompileError Predicate :=
  let unsupported := CompileError.unsupportedOperator property.name op.suffix
  if op ∉ forType property.type then .error unsupported
  else
    match op.positive.condition? lhs rhs with
    | Option.none => .error unsupported
    | Option.some p => .ok (if op.isNegated then p.not else p)

/-- How many related entities have to satisfy the operand of an operator. -/
def quantifier : Operator → Quantifier
  | neq => .none
  | notOneOf => .none
  | none => .none
  | every => .all
  | single => .single
  | _ => .any

end Operator

-- ============================================================= filters

/-- What a value inside a filter stands for, on any type and for the entity
that any variable is bound to. -/
structure Operand where
  isNull : Bool
  /-- The value as one filter. -/
  filter : EntityType → (entity : String) → Except CompileError Predicate
  /-- The value as a list of filters, given for `key`. -/
  filters : (key : String) → EntityType → (entity : String) →
    Except CompileError (List Predicate)

namespace Operand

/-- The condition that the operand of an operator puts on what a
relationship of the entity leads to. -/
def related (catalog : Catalog) (operand : Operand) (op : Operator) (r : RelationshipField)
    (entity : String) : Except CompileError Predicate := do
  let some target := catalog.type? r.shape.targetType | throw (.unknownType r.shape.targetType)
  if op ∉ Operator.forRelationship r then throw (.unsupportedOperator r.name op.suffix)
  let item := entity ++ "_" ++ r.name
  let all := Expression.patternComprehension (r.shape.pattern entity item target.name) .always
    (.var item)
  match op, operand.isNull with
  | .eq, true => return .quantified .none item all .always
  | .neq, true => return .quantified .any item all .always
  | .oneOf, _ | .notOneOf, _ =>
      let alternatives ← operand.filters (op.argumentName r.name) target item
      return .quantified op.quantifier item all (.any alternatives)
  | _, _ => return .quantified op.quantifier item all (← operand.filter target item)

/-- The condition of an entry of a filter. -/
def entry (catalog : Catalog) (key : String) (value : Json) (operand : Operand)
    (t : EntityType) (entity : String) : Except CompileError Predicate :=
  if key = "AND" then Predicate.all <$> operand.filters key t entity
  else if key = "OR" then Predicate.any <$> operand.filters key t entity
  else
    let (field, op) := Operator.resolve t.hasField key
    match t.property? field with
    | some property =>
        let rhs := if value.isNull then none else some (Expression.literal value.literal)
        op.predicate property (.property entity field) rhs
    | none =>
        match t.relationship? field with
        | some r => operand.related catalog op r entity
        | none => .error (.unknownFilterField t.name key)

/-- A value that is no filter and no list of filters. -/
def other (value : Json) : Operand where
  isNull := value.isNull
  filter := fun _ _ =>
    .error (.invalidArgument "filter" ("expected an object, got " ++ value.compact))
  filters := fun key _ _ =>
    .error (.invalidArgument key ("expected a list of filters, got " ++ value.compact))

end Operand

namespace Json

mutual

/-- What a value inside a filter stands for. -/
def operand (catalog : Catalog) : Json → Operand
  | .null => { Operand.other .null with filter := fun _ _ => .ok .always }
  | .obj entries =>
      let filter := fun t entity => Predicate.all <$> entryPredicates catalog entries t entity
      ⟨false, filter, fun _ t entity => (fun p => [p]) <$> filter t entity⟩
  | .arr elems =>
      { Operand.other (.arr elems) with
        filters := fun _ t entity => elemPredicates catalog elems t entity }
  | value => .other value

/-- The conditions of the entries of a filter. -/
def entryPredicates (catalog : Catalog) :
    List (String × Json) → EntityType → String → Except CompileError (List Predicate)
  | [], _, _ => .ok []
  | (key, value) :: rest, t, entity => do
      let first ← (operand catalog value).entry catalog key value t entity
      return first :: (← entryPredicates catalog rest t entity)

/-- The conditions of a list of filters. -/
def elemPredicates (catalog : Catalog) :
    List Json → EntityType → String → Except CompileError (List Predicate)
  | [], _, _ => .ok []
  | value :: rest, t, entity => do
      let first ← (operand catalog value).filter t entity
      return first :: (← elemPredicates catalog rest t entity)

end

/-- The condition that a filter puts on the entity of a type. -/
def filterPredicate (catalog : Catalog) (filter : Json) (t : EntityType) (entity : String) :
    Except CompileError Predicate :=
  (operand catalog filter).filter t entity

end Json

end PropertyGraphQL
