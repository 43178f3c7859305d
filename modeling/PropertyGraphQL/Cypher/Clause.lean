/-
Clauses and statements.
-/
import PropertyGraphQL.Cypher.Predicate

namespace PropertyGraphQL.Cypher

/-- Which of two values comes first. -/
inductive SortOrder where
  | ascending
  | descending
deriving DecidableEq, Repr

/-- What rows are sorted by, the most important first. -/
abbrev OrderBy := List (Expression × SortOrder)

/-- A column: an expression and the name it is given. -/
structure ReturnItem where
  expression : Expression
  rename : Option String

namespace ReturnItem

/-- A column with a name. -/
def aliased (expression : Expression) (name : String) : ReturnItem := ⟨expression, some name⟩

/-- A variable carried over under its own name. -/
def carried (name : String) : ReturnItem := ⟨.var name, none⟩

end ReturnItem

/-- A change made to an entity. -/
inductive SetItem where
  /-- All properties are replaced by those of a map. -/
  | replace (target : String) (value : Expression)
  /-- The properties of a map are added. -/
  | merge (target : String) (value : Expression)
  | labels (target : String) (labels : List String)

inductive Clause where
  | matching (pattern : Pattern) (optional : Bool) (condition : Predicate)
  | withItems (items : List ReturnItem) (orderBy : Option OrderBy)
  | unwind (source : Expression) (binder : String)
  | create (pattern : Pattern)
  | merge (pattern : Pattern)
  | set (items : List SetItem)
  | delete (targets : List String) (detach : Bool)
  | returnItems (items : List ReturnItem) (orderBy : Option OrderBy) (skip limit : Option Int)

/-- A report on how the database runs the statement. -/
inductive PlanReport where
  | profile
  | explain
deriving DecidableEq, Repr

/-- Clauses that are run one after the other. -/
structure Statement where
  report : Option PlanReport
  clauses : List Clause

end PropertyGraphQL.Cypher
