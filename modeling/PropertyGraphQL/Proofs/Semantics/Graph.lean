/-
Property graphs, and what a database makes of the values in them.

A graph is its nodes with labels and properties, and its relationships,
of which there may be several between the same two nodes. How values are
compared and what functions compute is the database's own; `Lawful` names
the two things about comparing that conditions rely on.
-/
import PropertyGraphQL.Compile.Traversal
import PropertyGraphQL.Proofs.Data.KeysDistinct
import PropertyGraphQL.Proofs.Semantics.Truth

namespace PropertyGraphQL.Cypher

-- =============================================================== values

/-- A value that an expression may have. -/
inductive Datum where
  | null
  | boolean (b : Bool)
  | int (n : Int)
  | float (x : Binary64)
  | string (s : String)
  | list (elems : List Datum)
  | map (entries : List (String × Datum))
  | node (id : Nat)
  | relationship (id : Nat)

namespace Datum

instance : Inhabited Datum := ⟨.null⟩

mutual

/-- The value of a constant. -/
def ofLiteral : Literal → Datum
  | .null => .null
  | .boolean b => .boolean b
  | .int n => .int n
  | .float x => .float x
  | .string s => .string s
  | .list elems => .list (ofElems elems)
  | .map entries => .map (ofEntries entries)

def ofElems : List Literal → List Datum
  | [] => []
  | l :: rest => ofLiteral l :: ofElems rest

def ofEntries : List (String × Literal) → List (String × Datum)
  | [] => []
  | (k, l) :: rest => (k, ofLiteral l) :: ofEntries rest

end

mutual

/-- Data as a value. Integers have 64 bits with a sign; one that needs more
is the nearest float. -/
def ofJson : Json → Datum
  | .null => .null
  | .bool b => .boolean b
  | .int n => if minInt64 ≤ n ∧ n ≤ maxInt64 then .int n else .float (.ofInt n)
  | .float x => .float x
  | .str s => .string s
  | .arr elems => .list (ofJsonElems elems)
  | .obj members => .map (ofJsonMembers members)

def ofJsonElems : List Json → List Datum
  | [] => []
  | j :: rest => ofJson j :: ofJsonElems rest

def ofJsonMembers : List (String × Json) → List (String × Datum)
  | [] => []
  | (k, j) :: rest => (k, ofJson j) :: ofJsonMembers rest

end

mutual

/-- Data written as a constant keeps its value. -/
theorem ofLiteral_literal (j : Json) : ofLiteral j.literal = ofJson j := by
  cases j with
  | int n =>
    rw [Json.literal, ofJson]
    split
    · rfl
    · rfl
  | arr elems => rw [Json.literal, ofLiteral, ofJson, ofElems_elemLiterals]
  | obj members => rw [Json.literal, ofLiteral, ofJson, ofEntries_memberLiterals]
  | _ => rfl

/-- The literals of a list denote its elements. -/
theorem ofElems_elemLiterals (elems : List Json) :
    ofElems (Json.elemLiterals elems) = ofJsonElems elems := by
  cases elems with
  | nil => rfl
  | cons j rest =>
    rw [Json.elemLiterals, ofElems, ofJsonElems, ofLiteral_literal,
      ofElems_elemLiterals rest]

/-- The literals of a map denote its members. -/
theorem ofEntries_memberLiterals (members : List (String × Json)) :
    ofEntries (Json.memberLiterals members) = ofJsonMembers members := by
  match members with
  | [] => rfl
  | (k, j) :: rest =>
    rw [Json.memberLiterals, ofEntries, ofJsonMembers, ofLiteral_literal,
      ofEntries_memberLiterals rest]

end

def isNull : Datum → Bool
  | .null => true
  | _ => false

def isNode (id : Nat) : Datum → Bool
  | .node other => other == id
  | _ => false

def isRelationship (id : Nat) : Datum → Bool
  | .relationship other => other == id
  | _ => false

/-- The elements of a list; nothing else has any. -/
def elements : Datum → List Datum
  | .list elems => elems
  | _ => []

/-- A place in a list of the given length; a negative one is counted from
the end. -/
def place (length : Nat) (i : Int) : Nat :=
  (if i < 0 then length + i else i).toNat

/-- The elements from `lower` to before `upper`. -/
def sliced (lower upper : Option Int) : Datum → Datum
  | .list elems =>
      let before := elems.take (upper.elim elems.length (place elems.length))
      .list (before.drop (lower.elim 0 (place elems.length)))
  | _ => .null

end Datum

-- =============================================================== graphs

/-- A relationship between two nodes, told from others by its number. -/
structure Relationship where
  id : Nat
  relType : String
  source : Nat
  target : Nat

/-- A property graph. A property that an entity does not have is null. -/
structure Graph where
  nodes : List Nat
  labels : (node : Nat) → List String
  property : (node : Nat) → (key : String) → Datum
  relationships : List Relationship
  relationshipProperty : (relationship : Nat) → (key : String) → Datum

namespace Graph

/-- The node that a relationship leads to from another, if it is followed in
the given direction. -/
def otherEnd? (r : Relationship) (direction : Direction) (node : Nat) : Option Nat :=
  match direction with
  | .outgoing => if r.source = node then some r.target else none
  | .incoming => if r.target = node then some r.source else none

/-- The relationships of a type from a node, each with the node that it
leads to. -/
def steps (g : Graph) (relType : String) (direction : Direction) (node : Nat) :
    List (Nat × Nat) :=
  (g.relationships.filter fun r => r.relType = relType).filterMap fun r =>
    (otherEnd? r direction node).map fun other => (r.id, other)

/-- The nodes with a label that relationships of a shape lead to from a
node, one for every relationship. -/
def reached (g : Graph) (shape : RelationshipShape) (label : String) (node : Nat) :
    List Nat :=
  ((g.steps shape.relationshipType shape.direction node).map Prod.snd).filter
    fun other => label ∈ g.labels other

/-- A property of an entity, or an entry of a map. -/
def propertyOf (g : Graph) : Datum → (key : String) → Datum
  | .node n, key => g.property n key
  | .relationship r, key => g.relationshipProperty r key
  | .map entries, key => (Dict.get? entries key).getD .null
  | _, _ => .null

end Graph

-- ============================================================ databases

/-- A graph, with what its database makes of values. -/
structure Database where
  graph : Graph
  compare : Comparison → Datum → Datum → Truth
  /-- The result of a function. -/
  call : (function : String) → (args : List Datum) → Datum
  /-- The value of a parameter. -/
  parameter : (name : String) → Datum

/-- What is known of comparing: inequality is the negation of equality, and
constants that are the same cannot be told apart. -/
structure Database.Lawful (db : Database) : Prop where
  neq : ∀ a b, db.compare .neq a b = (db.compare .eq a b).not
  same : ∀ c d {a b : Literal}, a.KeysDistinct → b.KeysDistinct → a.same b = true →
    db.compare c d (.ofLiteral a) = db.compare c d (.ofLiteral b)

end PropertyGraphQL.Cypher
