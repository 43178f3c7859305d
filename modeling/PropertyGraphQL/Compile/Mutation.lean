/-
Compiling the fields of mutations into statements.

A field that the schema declares runs its statement. Any other is read
from its name: `create`, `update` and `delete` with the name of a type, and
`add` and `delete` with the name of a type and of a relationship field,
whose first letter is a capital then.
-/
import PropertyGraphQL.Compile.Query

namespace PropertyGraphQL

open Cypher

/-- What the name of a mutation stands for. -/
inductive GeneratedMutation where
  | create (t : EntityType)
  /-- Change the node that the identifying property tells. -/
  | update (t : EntityType)
  | delete (t : EntityType)
  /-- Connect a node with others. -/
  | addRelationship (t : EntityType) (r : RelationshipField)
  /-- Disconnect a node from others. -/
  | deleteRelationship (t : EntityType) (r : RelationshipField)

namespace Catalog

/-- The relationship field that the name of a type and the capitalized name
of a field stand for, together. The first type that has one decides. -/
def relationshipNamed? (c : Catalog) (name : String) : Option (EntityType × RelationshipField) :=
  c.types.values.findSome? fun t =>
    (Text.dropLead? name t.name).bind fun rest =>
      (t.relationships.values.find? fun r => Text.capitalize r.name = rest).map fun r => (t, r)

/-- What the name of a mutation stands for. -/
def mutationNamed? (c : Catalog) (name : String) : Option GeneratedMutation :=
  match Text.dropLead? name "create" with
  | some rest => (c.type? rest).map .create
  | none =>
  match Text.dropLead? name "update" with
  | some rest => (c.type? rest).map .update
  | none =>
  match Text.dropLead? name "delete" with
  | some rest =>
      match c.type? rest with
      | some t => some (.delete t)
      | none => (c.relationshipNamed? rest).map fun (t, r) => .deleteRelationship t r
  | none =>
  match Text.dropLead? name "add" with
  | some rest => (c.relationshipNamed? rest).map fun (t, r) => .addRelationship t r
  | none => none

end Catalog

namespace FieldHead

/-- The number of rows, under the response key. -/
def countClause (head : FieldHead) : Clause :=
  .returnItems [.aliased .countAll head.responseKey] none none none

/-- Refuse arguments other than the given ones. -/
def allowOnly (head : FieldHead) (t : EntityType) (allowed : List String) : Compiling Unit :=
  match head.arguments.keys.find? fun name => !allowed.contains name with
  | some name => throw (.unknownArgument t.name name)
  | none => pure ()

/-- The property that identifies nodes of a type. -/
def idProperty (head : FieldHead) (t : EntityType) : Compiling PropertyField :=
  match t.idPropertyField? with
  | some p => pure p
  | none =>
      throw (.unsupportedMutation head.name ("type '" ++ t.name ++ "' has no id property"))

/-- The node whose identifying property has the value of its argument. -/
def identifiedNode (head : FieldHead) (t : EntityType) (id : PropertyField) (entity : String) :
    Compiling NodePattern := do
  let some argument := head.arguments.get? id.name
    | throw (.invalidArgument id.name "required to identify the entity")
  let value ← Compiling.bind id.name (← Compiling.resolve argument)
  return ⟨some entity, [t.name], [(id.name, value)]⟩

/-- The values of stored properties that the arguments give, one excepted. -/
def storedProperties (head : FieldHead) (t : EntityType) (excluded : Option String) :
    Compiling (Dict Json) :=
  (head.arguments.filter fun (name, _) => excluded ≠ some name).mapM fun (name, value) =>
    match t.property? name with
    | some property =>
        if property.isStored then do return (name, ← Compiling.resolve value)
        else throw (.unknownArgument t.name name)
    | none => throw (.unknownArgument t.name name)

end FieldHead

namespace EntityType

/-- Values of properties, with the defaults of those that have none. -/
def withDefaults (t : EntityType) (values : Dict Json) : Dict Json :=
  t.properties.foldl (fun values (name, property) =>
    match property.default with
    | some default => values.insertNew name default
    | none => values) values

end EntityType

namespace Compiler

/-- Return what is selected of a node that was written, or the number of
rows if nothing is. -/
def returning (c : Compiler) (f : RootField) (t : EntityType) (entity : String) :
    Compiling (List Clause) := do
  if f.selections.isEmpty then return [f.head.countClause]
  let (projection, nested) ← c.project t entity f.selections
  let reading := if nested.isEmpty then [] else .withItems [.carried entity] none :: nested
  return reading ++ [.returnItems [.aliased projection f.head.responseKey] none none none]

/-- Make a node of the type with the given properties. -/
def createClauses (c : Compiler) (f : RootField) (t : EntityType) : Compiling (List Clause) := do
  let entity := rootVariable t.name f.head.responseKey
  let given ← f.head.storedProperties t none
  let properties ← Compiling.bind "properties" (.obj (t.withDefaults given))
  return .create (.node ⟨some entity, t.allLabels, []⟩) :: .set [.replace entity properties]
    :: (← c.returning f t entity)

/-- Set the given properties of an identified node. -/
def updateClauses (c : Compiler) (f : RootField) (t : EntityType) : Compiling (List Clause) := do
  let entity := rootVariable t.name f.head.responseKey
  let id ← f.head.idProperty t
  let node ← f.head.identifiedNode t id entity
  let given ← f.head.storedProperties t (some id.name)
  let properties ← Compiling.bind "properties" (.obj given)
  return .matching (.node node) false .always :: .set [.merge entity properties]
    :: (← c.returning f t entity)

/-- Delete an identified node. -/
def deleteClauses (f : RootField) (t : EntityType) : Compiling (List Clause) := do
  let entity := rootVariable t.name f.head.responseKey
  let id ← f.head.idProperty t
  f.head.allowOnly t [id.name]
  let node ← f.head.identifiedNode t id entity
  return [.matching (.node node) false .always, .delete [entity] true, f.head.countClause]

/-- The identifiers of related nodes: a list, or a single one. -/
def targetIds : Json → Json
  | .arr ids => .arr ids
  | id => .arr [id]

/-- Connect an identified node with the nodes whose identifiers are given,
or disconnect it from them. -/
def relateClauses (c : Compiler) (f : RootField) (t : EntityType) (r : RelationshipField)
    (connect : Bool) : Compiling (List Clause) := do
  let id ← f.head.idProperty t
  let some target := c.catalog.type? r.shape.targetType | throw (.unknownType r.shape.targetType)
  let targetId ← f.head.idProperty target
  f.head.allowOnly t [id.name, r.name]
  let source ← f.head.identifiedNode t id "from"
  let some argument := f.head.arguments.get? r.name
    | throw (.invalidArgument r.name "required to identify the related entities")
  let ids ← Compiling.bind r.name (targetIds (← Compiling.resolve argument))
  let listed := Predicate.compare .member (.property "to" targetId.name) ids
  let related (binder : Option String) (next : NodePattern) : Pattern :=
    (Pattern.node (.named "from")).related ⟨binder, r.shape.relationshipType, r.shape.direction⟩
      next
  let targetNode := NodePattern.labelled "to" target.name
  let write : List Clause :=
    if connect then
      [.matching (.node targetNode) false listed, .merge (related none (.named "to"))]
    else
      [.matching (related (some "r") targetNode) false listed, .delete ["r"] false]
  return .matching (.node source) false .always :: write ++ [f.head.countClause]

/-- The clauses of a mutation read from its name. -/
def mutationClauses (c : Compiler) (f : RootField) : GeneratedMutation → Compiling (List Clause)
  | .create t => c.createClauses f t
  | .update t => c.updateClauses f t
  | .delete t => deleteClauses f t
  | .addRelationship t r => c.relateClauses f t r true
  | .deleteRelationship t r => c.relateClauses f t r false

/-- Compile a field of a mutation. -/
def mutation (c : Compiler) (f : RootField) (vars : Dict Json) :
    Except CompileError Compiled :=
  match c.catalog.mutations.get? f.head.name with
  | some operation =>
      match operation.custom with
      | some custom => declaredOperation f.head operation custom vars
      | none => .error (.missingStatement f.head.name)
  | none =>
      match c.catalog.mutationNamed? f.head.name with
      | some generated => do
          let (clauses, p) ← runWith vars (c.mutationClauses f generated)
          return finish f.head clauses p false
      | none => .error (.unknownField "Mutation" f.head.name)

/-- Compile a field of an operation. -/
def compile (c : Compiler) (isMutation : Bool) (f : RootField) (vars : Dict Json) :
    Except CompileError Compiled :=
  if isMutation then c.mutation f vars else c.query f vars

end Compiler

end PropertyGraphQL
