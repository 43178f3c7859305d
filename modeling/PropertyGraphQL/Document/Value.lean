/-
Values as they are written in documents: arguments, defaults, and the
arguments of directives.
-/
import PropertyGraphQL.Json

namespace PropertyGraphQL

/-- A value in a document. -/
inductive Value where
  | null
  | int (n : Int)
  | float (x : Binary64)
  | boolean (b : Bool)
  | string (s : String)
  /-- A name that stands for itself. -/
  | enum (name : String)
  | list (elems : List Value)
  /-- The keys are distinct. -/
  | object (entries : List (String × Value))
  /-- The value of a variable of the request. -/
  | var (name : String)

namespace Value

/-- A number. -/
def ofNumber : Json → Value
  | .int n => .int n
  | .float x => .float x
  | _ => .null

mutual

/-- The value as data. There are no variables where this is used; one
would be null. -/
def toJson : Value → Json
  | .null => .null
  | .int n => .int n
  | .float x => .ofBinary64 x
  | .boolean b => .bool b
  | .string s => .str s
  | .enum name => .str name
  | .list elems => .arr (elemsToJson elems)
  | .object entries => .obj (entriesToJson entries)
  | .var _ => .null

def elemsToJson : List Value → List Json
  | [] => []
  | v :: rest => toJson v :: elemsToJson rest

def entriesToJson : List (String × Value) → List (String × Json)
  | [] => []
  | (k, v) :: rest => (k, toJson v) :: entriesToJson rest

end

mutual

/-- The value with every integer that needs more than 64 bits with a sign
replaced by the nearest float. -/
def within64 : Value → Value
  | .int n => if minInt64 ≤ n ∧ n ≤ maxInt64 then .int n else .float (.ofInt n)
  | .list elems => .list (elemsWithin64 elems)
  | .object entries => .object (entriesWithin64 entries)
  | v => v

def elemsWithin64 : List Value → List Value
  | [] => []
  | v :: rest => within64 v :: elemsWithin64 rest

def entriesWithin64 : List (String × Value) → List (String × Value)
  | [] => []
  | (k, v) :: rest => (k, within64 v) :: entriesWithin64 rest

end

end Value

end PropertyGraphQL
