/-
Plans as one expression: every traversal becomes a comprehension inside the
projection of its parent.

Entities that are asked for in an order are sorted before they are cut and
projected.
-/
import PropertyGraphQL.Compile.Plan

namespace PropertyGraphQL

open Cypher

namespace Traversal

/-- The related entities that satisfy the condition, each as itself. -/
def matching (t : Traversal) : Expression :=
  match t.source with
  | none => .patternComprehension t.pattern t.arguments.condition (.var t.entity)
  | some source =>
      if t.arguments.condition.isAlways then source
      else .listComprehension t.entity source t.arguments.condition none

/-- The related entities that satisfy the condition, projected. -/
def projected (t : Traversal) (projection : Expression) : Expression :=
  match t.source with
  | none => .patternComprehension t.pattern t.arguments.condition projection
  | some source => .listComprehension t.entity source t.arguments.condition (some projection)

/-- A sort key of the function that sorts. -/
def sortKey (property : String) : SortOrder → Expression
  | .ascending => .literal (.string ("^" ++ property))
  | .descending => .literal (.string property)

/-- What is asked of the related entities, in a list. -/
def related (t : Traversal) (sortFunction : String) (projection : Expression) : Expression :=
  let (lower, upper) := t.arguments.bounds
  if t.arguments.orderBy.isEmpty then (t.projected projection).sliced lower upper
  else
    let keys := t.arguments.orderBy.map fun (property, order) => sortKey property order
    let sorted := Expression.call sortFunction [t.matching, .list keys]
    .listComprehension t.entity (sorted.sliced lower upper) .always (some projection)

/-- The list, or its first element where there is only one. -/
def single (t : Traversal) (list : Expression) : Expression :=
  if t.multi then list else list.head

end Traversal

/-- An entry of the projection of an entity: a property under its own name
is only named. -/
def projectionItem (entity key : String) (value : Expression) : MapItem :=
  match value with
  | .property owner property =>
      if owner = entity ∧ property = key then .property property else .entry key value
  | value => .entry key value

namespace Plan

mutual

/-- The entries of the projection of an entity. -/
def projectionItems (sortFunction : String) (entity : String) :
    List (String × Plan) → List MapItem
  | [] => []
  | (key, plan) :: rest =>
      projectionItem entity key (expression sortFunction plan)
        :: projectionItems sortFunction entity rest

/-- What is read for a field, as an expression. -/
def expression (sortFunction : String) : Plan → Expression
  | .value e => e
  | .traversal t entries =>
      let items := projectionItems sortFunction t.entity entries
      t.single (t.related sortFunction (.projection t.entity items))

end

end Plan

end PropertyGraphQL
