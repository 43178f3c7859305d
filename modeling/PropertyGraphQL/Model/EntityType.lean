/-
Entity types: how an object or interface type stands for nodes of a graph.

A node of the type has the type's name as a label, and the labels of the
interfaces. A field is a property or a relationship, never both; adding
one that would break this fails and leaves the type as it was.
-/
import PropertyGraphQL.Model.Field

namespace PropertyGraphQL

/-- Why a field or type cannot be added to a model. -/
inductive ModelError where
  | duplicateField (typeName fieldName : String)
  | relationshipMismatch (typeName fieldName : String) (existing observed : RelationshipShape)
  | duplicateType (typeName : String)
deriving DecidableEq, Repr

namespace ModelError

def message : ModelError → String
  | duplicateField typeName fieldName =>
      "Field '" ++ fieldName ++ "' is declared more than once in type '" ++ typeName ++ "'"
  | relationshipMismatch typeName fieldName existing observed =>
      "Conflicting definitions of relationship '" ++ fieldName ++ "' in type '" ++ typeName
        ++ "': " ++ existing.text ++ " vs " ++ observed.text
  | duplicateType typeName => "Type '" ++ typeName ++ "' is declared more than once"

end ModelError

/-- An object or interface type. -/
structure EntityType where
  name : String
  /-- The labels of its nodes besides the name. -/
  labels : List String
  isInterface : Bool
  properties : Dict PropertyField
  relationships : Dict RelationshipField
  idProperty : Option String
  description : Option String

namespace EntityType

/-- A type without labels and fields. -/
def blank (name : String) : EntityType := ⟨name, [], false, [], [], none, none⟩

def property? (t : EntityType) (field : String) : Option PropertyField :=
  t.properties.get? field

def relationship? (t : EntityType) (field : String) : Option RelationshipField :=
  t.relationships.get? field

def hasField (t : EntityType) (field : String) : Bool :=
  t.properties.contains field || t.relationships.contains field

/-- The name and the further labels, each once. -/
def allLabels (t : EntityType) : List String :=
  (t.name :: t.labels).eraseDups

/-- Whether nodes of the other type may be nodes of this one, which is
when they have a label in common. -/
def isCompatibleWith (t other : EntityType) : Bool :=
  other.allLabels.any t.allLabels.contains

/-- Add a label. The type's name is one already. -/
def addLabel (t : EntityType) (label : String) : EntityType :=
  if label = t.name ∨ label ∈ t.labels then t else { t with labels := t.labels ++ [label] }

/-- Add a property whose name no field has. -/
def addProperty (t : EntityType) (p : PropertyField) : Except ModelError EntityType :=
  if t.hasField p.name then .error (.duplicateField t.name p.name)
  else .ok { t with properties := t.properties.insert p.name p }

/-- Add a relationship, or what it adds to the one of the same name. -/
def mergeRelationship (t : EntityType) (r : RelationshipField) : Except ModelError EntityType :=
  if t.properties.contains r.name then .error (.duplicateField t.name r.name)
  else
    match t.relationship? r.name with
    | none => .ok { t with relationships := t.relationships.insert r.name r }
    | some existing =>
        if existing.shape ≠ r.shape then
          .error (.relationshipMismatch t.name existing.name existing.shape r.shape)
        else
          .ok { t with relationships := t.relationships.insert r.name (existing.enrich r) }

/-- Make a property the one that identifies nodes, unless there is one
already. Tells whether it was accepted. -/
def registerIdProperty (t : EntityType) (field : String) : Bool × EntityType :=
  match t.idProperty with
  | some _ => (false, t)
  | none => (true, { t with idProperty := some field })

/-- The property that identifies nodes of the type. -/
def idPropertyField? (t : EntityType) : Option PropertyField :=
  t.idProperty.bind t.property?

end EntityType

end PropertyGraphQL
