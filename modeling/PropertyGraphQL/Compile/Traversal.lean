/-
Following a relationship from an entity to related ones, as a pattern.
-/
import PropertyGraphQL.Cypher.Expression
import PropertyGraphQL.Model.Field

namespace PropertyGraphQL

open Cypher

/-- The relationships of a shape from the entity `source` to entities with
the label `label`, which `target` is bound to. -/
def RelationshipShape.pattern (shape : RelationshipShape) (source target label : String) :
    Pattern :=
  (Pattern.node (.named source)).related ⟨none, shape.relationshipType, shape.direction⟩
    (.labelled target label)

end PropertyGraphQL
