/-
What a filter says about a node, read straight off the data.

No condition is built and no variable is needed: an entry is looked up in
the graph at the node itself, and a relationship is followed to the nodes
it leads to, where the filter inside is read in turn. A value that is no
filter where one is expected has no meaning and reads as unknown.
-/
import PropertyGraphQL.Compile.Filter
import PropertyGraphQL.Proofs.Semantics.Graph

namespace PropertyGraphQL

open Cypher

variable (db : Database) (catalog : Catalog)

namespace Operator

/-- What an operator says about the value of a property. A negated operator
is the negation of its positive one, and equality with null says that there
is no value. -/
def compares (op : Operator) (value : Datum) (operand : Json) : Truth :=
  let positive (c : Comparison) := db.compare c value (.ofJson operand)
  let equal := if operand.isNull then .ofBool value.isNull else positive .eq
  match op with
  | eq => equal
  | neq => equal.not
  | gte => positive .gte
  | gt => positive .gt
  | lte => positive .lte
  | lt => positive .lt
  | oneOf => positive .member
  | notOneOf => (positive .member).not
  | contains => positive .contains
  | notContains => (positive .contains).not
  | startsWith => positive .startsWith
  | notStartsWith => (positive .startsWith).not
  | endsWith => positive .endsWith
  | notEndsWith => (positive .endsWith).not
  | some | none | every | single => .unknown

/-- What an operator says about related nodes, from what its operand says
about each. -/
def combines (op : Operator) (each : List Truth) : Truth :=
  match op with
  | neq | notOneOf | none => (Truth.any each).not
  | every => Truth.all each
  | single => Truth.single each
  | _ => Truth.any each

end Operator

namespace Json

/-- What a filter, or each filter of a list, says about a node of a type. -/
abbrev Reading (α : Type) := EntityType → (node : Nat) → α

/-- What an operator says about the nodes that a relationship leads to. -/
def relatedHolds (op : Operator) (r : RelationshipField) (operand : Json)
    (holds : Reading Truth) (alternatives : Reading (List Truth)) (node : Nat) : Truth :=
  match catalog.type? r.shape.targetType with
  | none => .unknown
  | some target =>
      let reached := db.graph.reached r.shape target.name node
      let ofEach (other : Nat) : Truth :=
        if op = .oneOf ∨ op = .notOneOf then Truth.any (alternatives target other)
        else holds target other
      if op = .eq ∧ operand.isNull then .ofBool reached.isEmpty
      else if op = .neq ∧ operand.isNull then .ofBool !reached.isEmpty
      else op.combines (reached.map ofEach)

/-- What an entry says about a node, from what its operand says as one
filter and as a list of filters. -/
def entryHolds (key : String) (operand : Json) (holds : Reading Truth)
    (alternatives : Reading (List Truth)) (t : EntityType) (node : Nat) : Truth :=
  if key = "AND" then Truth.all (alternatives t node)
  else if key = "OR" then Truth.any (alternatives t node)
  else
    let (field, op) := Operator.resolve t.hasField key
    match t.property? field, t.relationship? field with
    | some _, _ => op.compares db (db.graph.property node field) operand
    | none, some r => relatedHolds db catalog op r operand holds alternatives node
    | none, none => .unknown

mutual

/-- What a filter says about a node of a type. -/
def holds : Json → Reading Truth
  | .null, _, _ => .yes
  | .obj entries, t, node => Truth.all (entriesHold entries t node)
  | _, _, _ => .unknown

/-- What each filter of a list says about a node of a type. A single filter
may stand for the list of it. -/
def alternatives : Json → Reading (List Truth)
  | .arr elems, t, node => elemsHold elems t node
  | .obj entries, t, node => [Truth.all (entriesHold entries t node)]
  | _, _, _ => []

def entriesHold : List (String × Json) → Reading (List Truth)
  | [], _, _ => []
  | (key, operand) :: rest, t, node =>
      entryHolds db catalog key operand (holds operand) (alternatives operand) t node
        :: entriesHold rest t node

def elemsHold : List Json → Reading (List Truth)
  | [], _, _ => []
  | filter :: rest, t, node => holds filter t node :: elemsHold rest t node

end

end Json

end PropertyGraphQL
