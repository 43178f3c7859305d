/-
A catalog described in lines: every type with its fields, then the declared
operations.
-/
import PropertyGraphQL.Model.Catalog

namespace PropertyGraphQL

/-- What is written behind a field with a statement of its own. -/
def CustomStatement.mark (custom : Option CustomStatement) : String :=
  if custom.isSome then " @cypher" else ""

namespace PropertyField

def describe (p : PropertyField) : String :=
  "  " ++ p.name ++ ": " ++ p.type.text ++ CustomStatement.mark p.custom

end PropertyField

namespace RelationshipField

/-- The arrow of a pattern for the relationship. -/
def arrow (r : RelationshipField) : String :=
  match r.shape.direction with
  | .outgoing => "-[:" ++ r.shape.relationshipType ++ "]->"
  | .incoming => "<-[:" ++ r.shape.relationshipType ++ "]-"

/-- The type at the other end, in brackets if there may be several. -/
def target (r : RelationshipField) : String :=
  if r.multi then "[" ++ r.shape.targetType ++ "]" else r.shape.targetType

def describe (r : RelationshipField) : String :=
  "  " ++ r.name ++ ": " ++ r.arrow ++ " " ++ r.target ++ CustomStatement.mark r.custom

end RelationshipField

namespace EntityType

/-- The line for the type itself. -/
def heading (t : EntityType) : String :=
  (if t.isInterface then "interface " else "type ") ++ t.name
    ++ " (:" ++ ":".intercalate t.allLabels ++ ")"
    ++ (match t.idProperty with
      | some id => " id: " ++ id
      | none => "")

def describe (t : EntityType) : List String :=
  t.heading :: t.properties.values.map PropertyField.describe
    ++ t.relationships.values.map RelationshipField.describe

end EntityType

namespace RootOperation

def describe (o : RootOperation) : String :=
  "  " ++ o.name ++ ": " ++ o.returnType.text ++ CustomStatement.mark o.custom

/-- The lines for the operations of a root type, if there are any. -/
def describeAll (title : String) (operations : Dict RootOperation) : List String :=
  if operations.isEmpty then [] else title :: operations.values.map describe

end RootOperation

namespace Catalog

/-- The lines of the description. -/
def descriptionLines (c : Catalog) : List String :=
  c.types.values.flatMap EntityType.describe
    ++ RootOperation.describeAll "Query" c.queries
    ++ RootOperation.describeAll "Mutation" c.mutations

/-- The description, every line ended by a line feed. -/
def describe (c : Catalog) : String :=
  String.join (c.descriptionLines.map (· ++ "\n"))

end Catalog

end PropertyGraphQL
