/-
Schema documents: definitions of types.
-/
import PropertyGraphQL.Document.Executable

namespace PropertyGraphQL

/-- A type as it is written. -/
inductive TypeReference where
  | named (name : String) (nonNull : Bool)
  | list (element : TypeReference) (nonNull : Bool)
deriving DecidableEq, Repr

namespace TypeReference

/-- What a mark behind a type makes of it: an exclamation mark makes it
non-null, a closing bracket a list. -/
def mark (t : TypeReference) (c : Char) : TypeReference :=
  if c = '!' then
    match t with
    | named name _ => named name true
    | list element _ => list element true
  else list t false

/-- The type that a text stands for: opening brackets, a name, and marks. -/
def ofText (text : String) : TypeReference :=
  let inner := text.toList.dropWhile (· = '[')
  let isMark (c : Char) : Bool := c = '!' || c = ']'
  let name := inner.takeWhile fun c => !isMark c
  (inner.drop name.length).foldl mark (named (String.ofList name) false)

end TypeReference

/-- An argument that a field of a schema declares. -/
structure ArgumentDefinition where
  name : String
  type : TypeReference
  default : Option Value
  description : Option String

/-- A field of an object or interface type of a schema. -/
structure FieldDefinition where
  name : String
  type : TypeReference
  arguments : List ArgumentDefinition
  directives : List Directive
  description : Option String
  place : Position

/-- What a type definition says about its type. -/
inductive TypeBody where
  | scalar
  | object (interfaces : List String) (fields : List FieldDefinition)
  | interface (interfaces : List String) (fields : List FieldDefinition)
  | enum (values : List String)
  /-- A union or an input type. -/
  | other

/-- The definition of a type, or an extension of one defined elsewhere. -/
structure TypeDefinition where
  name : String
  isExtension : Bool
  description : Option String
  body : TypeBody
  place : Position

/-- A definition of a schema document. -/
inductive SchemaItem where
  /-- The names of the root types, where they are given. -/
  | roots (query mutation : Option String)
  | type (definition : TypeDefinition)
  | directive

/-- A schema document. -/
abbrev SchemaDocument := List SchemaItem

end PropertyGraphQL
