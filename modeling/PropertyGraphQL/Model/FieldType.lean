/-
The types of fields.

A field type is a named type, possibly in one list, with the number of its
non-null marks. Of a list with one mark, `required` tells which of the two
places it stands at: `[T]!` or `[T!]`.
-/
namespace PropertyGraphQL

/-- What a named type is; it decides which operators apply. -/
inductive Kind where
  | boolean
  | int
  | float
  | string
  | id
  | enum
  /-- A scalar declared by the schema. -/
  | custom
  /-- An object or interface type. -/
  | object
deriving DecidableEq, Repr

namespace Kind

/-- The kind of a scalar that needs no declaration. -/
def builtin? : String → Option Kind
  | "Boolean" => some boolean
  | "Int" => some int
  | "Long" => some int
  | "Float" => some float
  | "String" => some string
  | "ID" => some id
  | _ => none

/-- Whether values of the kind are texts. -/
def isStringLike : Kind → Bool
  | string => true
  | id => true
  | _ => false

end Kind

/-- The type of a field or argument. -/
structure FieldType where
  name : String
  isList : Bool
  /-- The number of non-null marks: `String!` has 1, `[String!]!` has 2. -/
  nonNullDepth : Nat
  /-- Whether the outermost type is non-null. -/
  required : Bool
  kind : Kind
deriving DecidableEq, Repr

namespace FieldType

/-- The nullable type with the name and kind. -/
def named (name : String) (kind : Kind) : FieldType := ⟨name, false, 0, false, kind⟩

/-- The nullable scalar with the name; one that needs a declaration is
taken as declared. -/
def scalar (name : String) : FieldType := named name ((Kind.builtin? name).getD .custom)

/-- Lists of the type. -/
def list (t : FieldType) : FieldType := { t with isList := true }

/-- The type with one more non-null mark; there are at most two. -/
def nonNull (t : FieldType) : FieldType :=
  { t with nonNullDepth := min (t.nonNullDepth + 1) 2, required := true }

def isEnum (t : FieldType) : Bool := t.kind = .enum

/-- Whether values are scalars, enum values, or lists of them. -/
def isBasic (t : FieldType) : Bool := t.kind ≠ .object

/-- The type as it is written in a schema. -/
def text (t : FieldType) : String :=
  if t.isList then
    match t.nonNullDepth, t.required with
    | 2, _ => "[" ++ t.name ++ "!]!"
    | 1, true => "[" ++ t.name ++ "]!"
    | 1, false => "[" ++ t.name ++ "!]"
    | _, _ => "[" ++ t.name ++ "]"
  else if t.required then t.name ++ "!"
  else t.name

end FieldType

end PropertyGraphQL
