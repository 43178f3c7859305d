/-
Plans as clauses: every traversal is matched by a clause of its own and
collected before the statement goes on.

A `WITH` keeps only what it names, so the variables that are still needed
are carried through each of them.
-/
import PropertyGraphQL.Compile.Comprehension

namespace PropertyGraphQL

open Cypher

/-- The variables in scope, followed by a further item. -/
def carrying (scope : List String) (item : ReturnItem) : List ReturnItem :=
  scope.map .carried ++ [item]

namespace Traversal

/-- The variable of the list that a statement gives. -/
def listName (t : Traversal) : String := t.entity ++ "_list"

/-- The elements of a list, or null for an empty one, so that the row of
the parent stays. -/
def elementsOrNull (list : String) : Expression :=
  .conditional (.eq (.call "size" [.var list]) (.literal (.int 0)))
    (.list [.literal .null]) (.var list)

/-- The clauses that bind the related entities, with the variables in scope. -/
def opening (t : Traversal) (scope : List String) : List Clause :=
  match t.source with
  | none => [.matching t.pattern true t.arguments.condition]
  | some _ =>
      [.withItems (carrying scope (.aliased t.matching t.listName)) none,
        .unwind (elementsOrNull t.listName) t.entity]

/-- The clause that sorts the related entities, where an order is asked
for. All variables in scope are carried. -/
def sorting (t : Traversal) (scope : List String) : List Clause :=
  match t.arguments.orderByClause t.entity with
  | none => []
  | some orderBy => [.withItems (scope.map .carried) (some orderBy)]

/-- The clause that collects the related entities, projected, under their
own variable. -/
def closing (t : Traversal) (scope : List String) (projection : Expression) : List Clause :=
  let element := Expression.conditional (.isNull (.var t.entity)) (.literal .null) projection
  let (lower, upper) := t.arguments.bounds
  let collected := t.single (element.collect.sliced lower upper)
  [.withItems (carrying scope (.aliased collected t.entity)) none]

end Traversal

/-- Clauses, and what holds behind them. -/
structure Stage (α : Type) where
  result : α
  clauses : List Clause
  /-- The variables in scope behind the clauses. -/
  scope : List String

namespace Plan

mutual

/-- The entries of the projection of an entity, behind the clauses that
they need. -/
def stageEntries (scope : List String) : List (String × Plan) → Stage (List (String × Expression))
  | [] => ⟨[], [], scope⟩
  | (key, plan) :: rest =>
      let first := stage scope plan
      let more := stageEntries first.scope rest
      ⟨(key, first.result) :: more.result, first.clauses ++ more.clauses, more.scope⟩

/-- What is read for a field, behind the clauses that it needs. -/
def stage (scope : List String) : Plan → Stage Expression
  | .value e => ⟨e, [], scope⟩
  | .traversal t entries =>
      let below := stageEntries (scope ++ [t.entity]) entries
      let clauses := t.opening scope ++ below.clauses ++ t.sorting below.scope
        ++ t.closing scope (.map below.result)
      ⟨.var t.entity, clauses, scope ++ [t.entity]⟩

end

end Plan

end PropertyGraphQL
