/-
The catalog of a schema document.

Object and interface types become entity types, an extension adding to an
earlier definition. A field whose type is a scalar or an enum, or a list of
them, becomes a property; any other becomes a relationship, which is named
after the field and points outward unless a directive says otherwise. The
fields of the root types become operations.

Definitions are taken in order, and the first error ends it.
-/
import PropertyGraphQL.Document.Reader
import PropertyGraphQL.Model.Catalog
import PropertyGraphQL.Model.SchemaError

namespace PropertyGraphQL

/-- What the names of a schema document stand for, wherever in the document
they are defined. -/
structure Vocabulary where
  enums : Dict (List String)
  scalars : List String
  queryRoot : String
  mutationRoot : String

namespace Vocabulary

/-- The names of a document without definitions. -/
def empty : Vocabulary := ⟨[], [], "Query", "Mutation"⟩

/-- What a definition adds. Values of an enum add up over its definitions. -/
def add (v : Vocabulary) : SchemaItem → Vocabulary
  | .roots query mutation =>
      { v with
        queryRoot := query.getD v.queryRoot
        mutationRoot := mutation.getD v.mutationRoot }
  | .type d =>
      match d.body with
      | .enum values =>
          { v with enums := v.enums.insert d.name ((v.enums.get? d.name).getD [] ++ values) }
      | .scalar => { v with scalars := d.name :: v.scalars }
      | _ => v
  | .directive => v

def ofDocument (document : SchemaDocument) : Vocabulary :=
  document.foldl add empty

/-- What the name of a type stands for. -/
def kind (v : Vocabulary) (name : String) : Kind :=
  match Kind.builtin? name with
  | some kind => kind
  | none =>
      if v.enums.contains name then .enum
      else if name ∈ v.scalars then .custom
      else .object

/-- The type of a field with its outermost non-null mark. -/
def marked (nonNull : Bool) (t : FieldType) : FieldType :=
  if nonNull then t.nonNull else { t with required := false }

/-- The type of a field as it is written. -/
def fieldType (v : Vocabulary) : TypeReference → FieldType
  | .named name nonNull => marked nonNull (.named name (v.kind name))
  | .list element nonNull => marked nonNull (fieldType v element).list

end Vocabulary

-- ========================================================== directives

namespace Directive

/-- The first directive of a name. -/
def find? (directives : List Directive) (name : String) : Option Directive :=
  directives.find? fun d => d.name = name

/-- The error that a directive lacks an argument. -/
def missing (d : Directive) (argument : String) : SchemaError :=
  .directive d.name ("missing \x60" ++ argument ++ "\x60 argument") d.place

/-- The error that an argument of a directive is not of the right sort. -/
def wrongSort (d : Directive) (a : DirectiveArgument) (sort : String) : SchemaError :=
  .directive d.name ("\x60" ++ a.name ++ "\x60 must be " ++ sort) a.place

/-- The text given for an argument; a name stands for its text. -/
def textArgument? (d : Directive) (argument : String) : Except SchemaError (Option String) :=
  match d.argument? argument with
  | none => .ok none
  | some a =>
      match a.value with
      | .string s => .ok (some s)
      | .enum s => .ok (some s)
      | _ => .error (wrongSort d a "a string")

/-- The static parameters given for a statement. -/
def staticParameters (d : Directive) : Except SchemaError (Dict Json) :=
  match d.argument? "params" with
  | none => .ok []
  | some a =>
      match a.value with
      | .object entries => .ok (Value.entriesToJson entries)
      | _ => .error (wrongSort d a "an object")

/-- Whether the result of a statement is returned as it is. -/
def passThrough (d : Directive) : Except SchemaError Bool :=
  match d.argument? "passThrough" with
  | none => .ok false
  | some a =>
      match a.value with
      | .boolean b => .ok b
      | _ => .error (wrongSort d a "a boolean")

/-- The statement that replaces the reading of a field, if there is one. -/
def customStatement? (directives : List Directive) :
    Except SchemaError (Option CustomStatement) :=
  match find? directives "cypher" with
  | none => .ok none
  | some d => do
      let some statement ← d.textArgument? "statement" | throw (d.missing "statement")
      let staticParameters ← d.staticParameters
      let passThrough ← d.passThrough
      return some ⟨statement, staticParameters, passThrough⟩

/-- The default of a property, if there is one. -/
def defaultValue? (directives : List Directive) : Except SchemaError (Option Json) :=
  match find? directives "defaultValue" with
  | none => .ok none
  | some d =>
      match d.argument? "value" with
      | some a => .ok (some a.value.toJson)
      | none => .error (d.missing "value")

/-- Whether a property is said to be unique. -/
def unique (directives : List Directive) : Bool :=
  (find? directives "isUnique").isSome || (find? directives "unique").isSome

/-- The relationship type, if it is given, and the direction: by `relation`
first, then by `out` and `in`. -/
def relationship (directives : List Directive) :
    Except SchemaError (Option String × Direction) :=
  match find? directives "relation" with
  | some d => do
      let name ← d.textArgument? "name"
      let direction ← d.textArgument? "direction"
      return (name, (direction.map Direction.ofText).getD .outgoing)
  | none =>
      match find? directives "out" with
      | some d => return (← d.textArgument? "name", .outgoing)
      | none =>
          match find? directives "in" with
          | some d => return (← d.textArgument? "name", .incoming)
          | none => return (none, .outgoing)

end Directive

-- ========================================================= definitions

/-- An operation on a model at a place of a document. -/
def atPlace {α : Type} (place : Position) : Except ModelError α → Except SchemaError α
  | .ok a => .ok a
  | .error e => .error (.model e place)

namespace Vocabulary

/-- The arguments that a field declares. -/
def arguments (v : Vocabulary) (definitions : List ArgumentDefinition) :
    Dict DeclaredArgument :=
  Dict.ofEntries <| definitions.map fun a =>
    (a.name, ⟨a.name, v.fieldType a.type, a.default.map Value.toJson, a.description⟩)

/-- Add a property for a field. The first required property that is no list
and is stored identifies nodes. -/
def addProperty (v : Vocabulary) (t : EntityType) (f : FieldDefinition)
    (custom : Option CustomStatement) : Except SchemaError EntityType := do
  let type := v.fieldType f.type
  let property : PropertyField :=
    { name := f.name
      type
      unique := Directive.unique f.directives
      default := ← Directive.defaultValue? f.directives
      description := f.description
      custom
      arguments := v.arguments f.arguments }
  let t ← atPlace f.place (t.addProperty property)
  return if type.required && !type.isList && custom.isNone then (t.registerIdProperty f.name).2
    else t

/-- Add a relationship for a field. -/
def addRelationship (v : Vocabulary) (t : EntityType) (f : FieldDefinition)
    (custom : Option CustomStatement) : Except SchemaError EntityType := do
  let type := v.fieldType f.type
  let (relationshipType, direction) ← Directive.relationship f.directives
  let relationship : RelationshipField :=
    { name := f.name
      shape := ⟨direction, relationshipType.getD f.name, type.name⟩
      multi := type.isList
      nonNullDepth := type.nonNullDepth
      description := f.description
      custom
      arguments := v.arguments f.arguments }
  atPlace f.place (t.mergeRelationship relationship)

/-- Add a field. -/
def addField (v : Vocabulary) (t : EntityType) (f : FieldDefinition) :
    Except SchemaError EntityType := do
  let custom ← Directive.customStatement? f.directives
  if (v.fieldType f.type).isBasic then v.addProperty t f custom else v.addRelationship t f custom

/-- The operation that a field of a root type declares. -/
def operation (v : Vocabulary) (f : FieldDefinition) :
    Except SchemaError (String × RootOperation) := do
  let custom ← Directive.customStatement? f.directives
  return (f.name, ⟨f.name, v.fieldType f.type, custom, v.arguments f.arguments, f.description⟩)

/-- The operations that the definition of a root type declares. -/
def operations (v : Vocabulary) : TypeBody → Except SchemaError (List (String × RootOperation))
  | .object _ fields => fields.mapM v.operation
  | _ => .ok []

/-- Add what the definition of an object or interface type says. -/
def addEntity (v : Vocabulary) (c : Catalog) (d : TypeDefinition) (isInterface : Bool)
    (interfaces : List String) (fields : List FieldDefinition) :
    Except SchemaError Catalog := do
  if !d.isExtension && c.types.contains d.name then
    throw (.model (.duplicateType d.name) d.place)
  let t := (c.type? d.name).getD
    { EntityType.blank d.name with isInterface, description := d.description }
  let t ← fields.foldlM v.addField (interfaces.foldl EntityType.addLabel t)
  return { c with types := c.types.insert d.name t }

/-- Add what a definition says. -/
def define (v : Vocabulary) (c : Catalog) : SchemaItem → Except SchemaError Catalog
  | .type d =>
      if d.name = v.queryRoot then do
        return { c with queries := c.queries.insertAll (← v.operations d.body) }
      else if d.name = v.mutationRoot then do
        return { c with mutations := c.mutations.insertAll (← v.operations d.body) }
      else
        match d.body with
        | .object interfaces fields => v.addEntity c d false interfaces fields
        | .interface interfaces fields => v.addEntity c d true interfaces fields
        | _ => .ok c
  | _ => .ok c

end Vocabulary

namespace Catalog

/-- The catalog of a schema document. -/
def ofDocument (document : SchemaDocument) : Except SchemaError Catalog :=
  let v := Vocabulary.ofDocument document
  document.foldlM v.define { empty with enums := v.enums }

/-- The catalog of the text of a schema document. -/
def parse (text : String) : Except SchemaError Catalog :=
  match SchemaDocument.parse text with
  | .ok document => ofDocument document
  | .error fault => .error (.ofFault fault)

end Catalog

end PropertyGraphQL
