/-
The fields of entity types: properties of a node, and relationships to
other nodes.
-/
import PropertyGraphQL.Direction
import PropertyGraphQL.Model.FieldType

namespace PropertyGraphQL

/-- A statement that is run instead of the default reading of a field. -/
structure CustomStatement where
  statement : String
  /-- Parameters given to the statement besides the field's arguments. -/
  staticParameters : Dict Json
  /-- Whether the result is returned as it is, without the selection. -/
  passThrough : Bool

namespace CustomStatement

/-- A statement without parameters of its own. -/
def plain (statement : String) : CustomStatement := ⟨statement, [], false⟩

end CustomStatement

/-- An argument that a field declares. -/
structure DeclaredArgument where
  name : String
  type : FieldType
  default : Option Json
  description : Option String

namespace DeclaredArgument

/-- An argument without default and description. -/
def plain (name : String) (type : FieldType) : DeclaredArgument := ⟨name, type, none, none⟩

end DeclaredArgument

/-- A property of a node. -/
structure PropertyField where
  name : String
  type : FieldType
  unique : Bool
  default : Option Json
  description : Option String
  custom : Option CustomStatement
  arguments : Dict DeclaredArgument

namespace PropertyField

/-- A property with nothing but its name and type. -/
def plain (name : String) (type : FieldType) : PropertyField :=
  ⟨name, type, false, none, none, none, []⟩

/-- Whether the value is stored in the node, not computed by a statement. -/
def isStored (p : PropertyField) : Bool := p.custom.isNone

end PropertyField

/-- What two observations of a relationship field have to agree in. -/
structure RelationshipShape where
  direction : Direction
  relationshipType : String
  targetType : String
deriving DecidableEq, Repr

namespace RelationshipShape

/-- The shape in words. -/
def text (s : RelationshipShape) : String :=
  s.direction.shortName ++ " " ++ s.relationshipType ++ " to " ++ s.targetType

end RelationshipShape

/-- A relationship from a node to others. -/
structure RelationshipField where
  name : String
  shape : RelationshipShape
  /-- Whether there may be several, so that the field is a list. -/
  multi : Bool
  nonNullDepth : Nat
  description : Option String
  custom : Option CustomStatement
  arguments : Dict DeclaredArgument

namespace RelationshipField

/-- A relationship with nothing but its name and shape. -/
def plain (name : String) (shape : RelationshipShape) (multi : Bool) : RelationshipField :=
  ⟨name, shape, multi, 0, none, none, []⟩

/-- A field together with what a further observation of the same shape
adds: once a list always a list, the greater non-null depth, and whatever
the first left open. -/
def enrich (r other : RelationshipField) : RelationshipField :=
  { r with
    multi := r.multi || other.multi
    nonNullDepth := max r.nonNullDepth other.nonNullDepth
    custom := r.custom <|> other.custom
    description := r.description <|> other.description
    arguments := other.arguments.foldl (fun d entry => d.insertNew entry.1 entry.2) r.arguments }

end RelationshipField

end PropertyGraphQL
