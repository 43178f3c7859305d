/-
What the clauses of a query do with rows.

A row binds variables to values. `MATCH` goes on with a row for every match,
`OPTIONAL MATCH` also where there is none, with null for what would be bound.
`WITH` makes new rows of columns: one from each row, or, where a column is made
from many rows, one from each group of rows that are equal in the other
columns. What is collected leaves nulls out, and the first of no elements is
null. The order of rows carries no meaning, so clauses that sort or cut are not
described, nor are those that change the graph.
-/
import Mathlib.Data.List.Dedup
import PropertyGraphQL.Proofs.Scope.Closed
import PropertyGraphQL.Proofs.Semantics.Evaluation

namespace PropertyGraphQL.Cypher

-- ================================================================= values

namespace Datum

mutual

/-- Whether two values are equal. -/
def same : Datum → Datum → Bool
  | .null, .null => true
  | .boolean a, .boolean b => a == b
  | .int a, .int b => a == b
  | .float a, .float b => a == b
  | .string a, .string b => a == b
  | .list as, .list bs => sameElems as bs
  | .map as, .map bs => sameEntries as bs
  | .node a, .node b => a == b
  | .relationship a, .relationship b => a == b
  | _, _ => false

def sameElems : List Datum → List Datum → Bool
  | [], [] => true
  | a :: as, b :: bs => same a b && sameElems as bs
  | _, _ => false

def sameEntries : List (String × Datum) → List (String × Datum) → Bool
  | [], [] => true
  | (k, a) :: as, (l, b) :: bs => k == l && same a b && sameEntries as bs
  | _, _ => false

end

mutual

/-- Values are the same exactly if they are equal. -/
theorem same_iff (a b : Datum) : same a b = true ↔ a = b := by
  cases a with
  | list as =>
    cases b with
    | list bs => rw [same, sameElems_iff, list.injEq]
    | _ => simp only [same, Bool.false_eq_true, reduceCtorEq]
  | map as =>
    cases b with
    | map bs => rw [same, sameEntries_iff, map.injEq]
    | _ => simp only [same, Bool.false_eq_true, reduceCtorEq]
  | _ =>
    cases b with
    | _ => simp [same]

/-- Lists are the same exactly if they are equal. -/
theorem sameElems_iff (as bs : List Datum) : sameElems as bs = true ↔ as = bs := by
  match as, bs with
  | [], [] => simp only [sameElems]
  | [], _ :: _ => simp only [sameElems, Bool.false_eq_true, reduceCtorEq]
  | _ :: _, [] => simp only [sameElems, Bool.false_eq_true, reduceCtorEq]
  | a :: as, b :: bs =>
    rw [sameElems, Bool.and_eq_true, same_iff a b, sameElems_iff as bs, List.cons.injEq]

/-- Maps are the same exactly if they are equal. -/
theorem sameEntries_iff (as bs : List (String × Datum)) :
    sameEntries as bs = true ↔ as = bs := by
  match as, bs with
  | [], [] => simp only [sameEntries]
  | [], _ :: _ => simp only [sameEntries, Bool.false_eq_true, reduceCtorEq]
  | _ :: _, [] => simp only [sameEntries, Bool.false_eq_true, reduceCtorEq]
  | (k, a) :: as, (l, b) :: bs =>
    rw [sameEntries, Bool.and_eq_true, Bool.and_eq_true, beq_iff_eq, same_iff a b,
      sameEntries_iff as bs, List.cons.injEq, Prod.mk.injEq]

end

instance : DecidableEq Datum := fun a b => decidable_of_iff _ (same_iff a b)

end Datum

-- =================================================================== rows

namespace Environment

/-- The environment with null for those of the names that are not bound. -/
def orNull (env : Environment) (names : List String) : Environment :=
  fun name => if name ∈ names then some (env.value name) else env name

/-- The environment that a row of columns makes. -/
def ofColumns (columns : Dict Datum) : Environment := columns.get?

end Environment

variable (db : Database)

/-- The value that is made of many rows, by an expression that is made of
many. -/
def Expression.overRows? (rows : List Environment) : Expression → Option Datum
  | .call "collect" [e] =>
      some (.list ((rows.map fun env => e.eval db env).filter fun d => !d.isNull))
  | .call "head" [e] => (overRows? rows e).map fun d => d.elements.headD .null
  | .slice e lower upper => (overRows? rows e).map (Datum.sliced lower upper)
  | .countAll => some (.int rows.length)
  | _ => none

namespace ReturnItem

/-- Whether the column is made of many rows. -/
def isGrouped (item : ReturnItem) : Bool := (item.expression.overRows? db []).isSome

/-- The columns of a group of rows that are equal where no column is made of
many: any of them gives the others. -/
def columns (items : List ReturnItem) (group : List Environment) : Dict Datum :=
  items.filterMap fun item => item.name?.map fun name =>
    (name, (item.expression.overRows? db group).getD
      (item.expression.eval db (group.headD .unbound)))

/-- The values of the columns that rows are grouped by. -/
def groupedBy (items : List ReturnItem) (env : Environment) : List Datum :=
  (items.filter fun item => !item.isGrouped db).map fun item => item.expression.eval db env

/-- The rows of columns made from rows. If all columns are made of many rows,
there is one group, even of no rows. -/
def tabulate (items : List ReturnItem) (rows : List Environment) : List (Dict Datum) :=
  if items.any (isGrouped db) then
    let keys :=
      if items.all (isGrouped db) then [[]] else (rows.map (groupedBy db items)).dedup
    keys.map fun key =>
      columns db items (rows.filter fun env => groupedBy db items env = key)
  else rows.map fun env => columns db items [env]

end ReturnItem

namespace Clause

/-- The rows behind a clause; nothing for a clause that is not described. -/
def rows? (rows : List Environment) : Clause → Option (List Environment)
  | .matching pattern optional condition =>
      some (rows.flatMap fun env =>
        let found := (Pattern.matchings db env pattern).filter fun env =>
          condition.eval db env = .yes
        if optional && found.isEmpty then [env.orNull pattern.names] else found)
  | .withItems items none =>
      some ((ReturnItem.tabulate db items rows).map Environment.ofColumns)
  | _ => none

/-- The rows behind a list of clauses. -/
def allRows? (rows : List Environment) : List Clause → Option (List Environment)
  | [] => some rows
  | clause :: rest => (clause.rows? db rows).bind fun rows => allRows? rows rest

/-- The rows of columns that clauses return. -/
def answers? (rows : List Environment) : List Clause → Option (List (Dict Datum))
  | [.returnItems items none none none] => some (ReturnItem.tabulate db items rows)
  | clause :: rest => (clause.rows? db rows).bind fun rows => answers? rows rest
  | [] => none

variable {db}

/-- Clauses one after another make their rows one after another. -/
theorem allRows?_append (rows : List Environment) (first second : List Clause) :
    allRows? db rows (first ++ second)
      = (allRows? db rows first).bind fun rows => allRows? db rows second := by
  induction first generalizing rows with
  | nil => rfl
  | cons clause rest ih =>
    rw [List.cons_append, allRows?, allRows?, Option.bind_assoc]
    congr 1
    funext rows
    exact ih rows

/-- What is returned behind clauses is made of the rows behind them. -/
theorem answers?_append (rows : List Environment) (clauses : List Clause)
    (items : List ReturnItem) :
    answers? db rows (clauses ++ [.returnItems items none none none])
      = (allRows? db rows clauses).map (ReturnItem.tabulate db items) := by
  induction clauses generalizing rows with
  | nil => rfl
  | cons clause rest ih =>
    rw [List.cons_append, allRows?, Option.map_bind]
    have hmore : rest ++ [.returnItems items none none none] ≠ [] := by simp
    rw [answers?]
    · congr 1
      funext rows
      exact ih rows
    · rintro items' - heq
      exact hmore heq

end Clause

end PropertyGraphQL.Cypher
