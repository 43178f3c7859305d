/-
Values that a graph database returns.

As data, a node, a relationship or a path is an object with certain
members; `Shape.ofMembers` tells what an object stands for, and looks for
a node first. In a response, nodes and relationships are objects of their
properties, with what identifies them added under keys that begin with an
underscore.
-/
import PropertyGraphQL.Model.Record

namespace PropertyGraphQL

/-- A value that a graph database returns. -/
inductive GraphValue where
  | null
  | bool (b : Bool)
  | int (n : Int)
  | float (x : Binary64)
  | string (s : String)
  | list (elems : List GraphValue)
  | node (id : Int) (labels : List String) (properties : List (String × GraphValue))
  | relationship (id : Int) (type : String) (properties : List (String × GraphValue))
  | path (elements : List GraphValue)
  | map (entries : List (String × GraphValue))

instance : Inhabited GraphValue := ⟨.null⟩

/-- What an object stands for. -/
inductive Shape where
  /-- A node, whose properties are the member `properties`. -/
  | node (id : Int) (labels : List String)
  /-- A relationship, whose properties are the member `properties`. -/
  | relationship (id : Int) (type : String)
  /-- A path, whose nodes and relationships are the member `elements`. -/
  | path
  | map
deriving DecidableEq, Repr

namespace Shape

/-- An `id`, which is an integer of 64 bits, beside an object `properties`. -/
def entityId? (members : Dict Json) : Option Int := do
  let id ← (members.get? "id").bind Json.asInt64?
  let _ ← (members.get? "properties").bind Json.asObject?
  return id

/-- A node: it has labels, too. -/
def node? (members : Dict Json) : Option Shape := do
  let id ← entityId? members
  let labels ← (members.get? "labels").bind Json.asStrings?
  return .node id labels

/-- A relationship: it has a type, too. -/
def relationship? (members : Dict Json) : Option Shape := do
  let id ← entityId? members
  let type ← (members.get? "type").bind Json.asString?
  return .relationship id type

/-- A path: it has a list of elements. -/
def path? (members : Dict Json) : Option Shape := do
  let _ ← (members.get? "elements").bind Json.asArray?
  return .path

/-- What an object with the given members stands for. -/
def ofMembers (members : Dict Json) : Shape :=
  (node? members <|> relationship? members <|> path? members).getD .map

end Shape

namespace GraphValue

/-- An integer of 64 bits; a larger one is the nearest float. -/
def ofInt (n : Int) : GraphValue :=
  if minInt64 ≤ n ∧ n ≤ maxInt64 then .int n else .float (.ofInt n)

mutual

/-- The value that data stands for. -/
def ofJson : Json → GraphValue
  | .null => .null
  | .bool b => .bool b
  | .int n => ofInt n
  | .float x => .float x
  | .str s => .string s
  | .arr elems => .list (ofElems elems)
  | .obj members =>
      match Shape.ofMembers members with
      | .node id labels => .node id labels (entriesAt "properties" members)
      | .relationship id type => .relationship id type (entriesAt "properties" members)
      | .path => .path (elemsAt "elements" members)
      | .map => .map (ofMembers members)

def ofElems : List Json → List GraphValue
  | [] => []
  | j :: rest => ofJson j :: ofElems rest

def ofMembers : List (String × Json) → List (String × GraphValue)
  | [] => []
  | (k, j) :: rest => (k, ofJson j) :: ofMembers rest

/-- What the members of the object under a key stand for. -/
def entriesAt (key : String) : List (String × Json) → List (String × GraphValue)
  | [] => []
  | (k, .obj members) :: rest => if k = key then ofMembers members else entriesAt key rest
  | _ :: rest => entriesAt key rest

/-- What the elements of the array under a key stand for. -/
def elemsAt (key : String) : List (String × Json) → List GraphValue
  | [] => []
  | (k, .arr elems) :: rest => if k = key then ofElems elems else elemsAt key rest
  | _ :: rest => elemsAt key rest

end

/-- The properties of a node or relationship, and what identifies it. -/
def identified (id : Int) (mark : String) (value : Json) (properties : Dict Json) : Json :=
  .obj ((properties.insert "_id" (.int id)).insert mark value)

mutual

/-- The value in a response. -/
def toJson : GraphValue → Json
  | .null => .null
  | .bool b => .bool b
  | .int n => .int n
  | .float x => .ofBinary64 x
  | .string s => .str s
  | .list elems => .arr (elemsToJson elems)
  | .node id labels properties =>
      identified id "_labels" (.arr (labels.map .str)) (entriesToJson properties)
  | .relationship id type properties =>
      identified id "_type" (.str type) (entriesToJson properties)
  | .path elements => .arr (elemsToJson elements)
  | .map entries => .obj (entriesToJson entries)

def elemsToJson : List GraphValue → List Json
  | [] => []
  | v :: rest => toJson v :: elemsToJson rest

def entriesToJson : List (String × GraphValue) → List (String × Json)
  | [] => []
  | (k, v) :: rest => (k, toJson v) :: entriesToJson rest

end

end GraphValue

end PropertyGraphQL
