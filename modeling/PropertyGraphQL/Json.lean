/-
JSON data.

Objects keep the order of their members. An integer and a float are
different values even when they are numerically the same; `same` is the
equality of data, which compares floats as numbers and objects without
regard to order.
-/
import PropertyGraphQL.Dict
import PropertyGraphQL.Number.Binary64

namespace PropertyGraphQL

/-- A JSON value. -/
inductive Json where
  | null
  | bool (b : Bool)
  /-- A number written without fraction and exponent, between -2^63 and 2^64. -/
  | int (n : Int)
  | float (x : Binary64)
  | str (s : String)
  | arr (elems : List Json)
  | obj (members : List (String × Json))

instance : Inhabited Json := ⟨.null⟩

/-- The largest signed 64-bit integer. -/
def maxInt64 : Int := 9223372036854775807

/-- The smallest signed 64-bit integer. -/
def minInt64 : Int := -9223372036854775808

/-- The largest unsigned 64-bit integer. -/
def maxUInt64 : Nat := 18446744073709551615

namespace Json

mutual

/-- Equality of data. -/
def same : Json → Json → Bool
  | .null, .null => true
  | .bool a, .bool b => a == b
  | .int a, .int b => a == b
  | .float a, .float b => a.equal b
  | .str a, .str b => a == b
  | .arr a, .arr b => sameElems a b
  | .obj a, .obj b => a.length == b.length && sameMembers a b
  | _, _ => false

def sameElems : List Json → List Json → Bool
  | [], [] => true
  | a :: as, b :: bs => same a b && sameElems as bs
  | _, _ => false

/-- Every member on the left has an equal one on the right. -/
def sameMembers : List (String × Json) → List (String × Json) → Bool
  | [], _ => true
  | (k, a) :: rest, other =>
      (match Dict.get? other k with
        | some b => same a b
        | none => false) && sameMembers rest other

end

/-- A float as data: a number that is not finite has no JSON form and
stands for `null`. -/
def ofBinary64 (x : Binary64) : Json :=
  if x.isFinite then .float x else .null

def isNull : Json → Bool
  | .null => true
  | _ => false

def isArray : Json → Bool
  | .arr _ => true
  | _ => false

/-- The integer, if it fits into 64 bits with a sign. -/
def asInt64? : Json → Option Int
  | .int n => if minInt64 ≤ n ∧ n ≤ maxInt64 then some n else none
  | _ => none

def asString? : Json → Option String
  | .str s => some s
  | _ => none

def asBool? : Json → Option Bool
  | .bool b => some b
  | _ => none

def asArray? : Json → Option (List Json)
  | .arr elems => some elems
  | _ => none

def asObject? : Json → Option (Dict Json)
  | .obj members => some members
  | _ => none

/-- The member of an object with the given key. -/
def member? (j : Json) (key : String) : Option Json :=
  j.asObject?.bind (Dict.get? · key)

end Json

end PropertyGraphQL
