/-
What the closing of a traversal makes of rows.

A plain traversal is closed by a `WITH` that carries the variables in scope and
collects (`columns_carrying`). Rows are grouped by what they carry. Where rows
that are distinct bind these variables and no other, and at least one row has
come from each of them, the groups stand for them one by one
(`perm_tabulate`).
-/
import PropertyGraphQL.Proofs.Answers.Opening

namespace PropertyGraphQL

open Cypher

variable {db : Database}

-- ================================================================= columns

variable (db) in
/-- What is collected from a group of rows. -/
def Cypher.Expression.collected (e : Expression) (group : List Cypher.Environment) : List Datum :=
  (group.map fun env => e.eval db env).filter fun d => !d.isNull

namespace Cypher.ReturnItem

/-- The carried variables are what a closing `WITH` groups by. -/
theorem filter_carried (scope : List String) :
    (scope.map carried).filter (fun item => !item.isGrouped db) = scope.map carried := by
  refine List.filter_eq_self.mpr fun item hitem => ?_
  obtain ⟨name, -, rfl⟩ := List.mem_map.mp hitem
  rfl

/-- Rows are grouped by the variables that are carried. -/
theorem groupedBy_carrying (scope : List String) (e : Expression) (name : String)
    (env : Environment) :
    groupedBy db (carrying scope (.aliased e.collect name)) env = env.tuple scope := by
  unfold groupedBy carrying
  rw [List.filter_append, filter_carried]
  show ((scope.map carried) ++ []).map _ = _
  rw [List.append_nil, List.map_map]
  refine List.map_congr_left fun other _ => ?_
  show Expression.eval db env (.var other) = _
  rw [Expression.eval]

/-- The columns of a group: the carried variables as in any of its rows, and the list of what is
collected. -/
theorem columns_carrying (scope : List String) (e : Expression) (name : String)
    (group : List Environment) :
    columns db (carrying scope (.aliased e.collect name)) group
      = scope.map (fun other => (other, (group.headD .unbound).value other))
        ++ [(name, .list (e.collected db group))] := by
  unfold columns carrying
  rw [List.filterMap_append, List.filterMap_map]
  congr 1
  rw [← List.filterMap_eq_map]
  refine List.filterMap_congr fun other _ => ?_
  show some (other, Expression.eval db _ (.var other)) = _
  rw [Expression.eval]
  rfl

/-- There is a row for each combination of values of the carried variables, over the rows that
have it. -/
theorem tabulate_carrying {scope : List String} (hscope : scope ≠ []) (e : Expression)
    (name : String) (rows : List Environment) :
    tabulate db (carrying scope (.aliased e.collect name)) rows
      = (rows.map fun env => env.tuple scope).dedup.map fun key =>
          columns db (carrying scope (.aliased e.collect name))
            (rows.filter fun env => env.tuple scope = key) := by
  have hany : (carrying scope (.aliased e.collect name)).any (isGrouped db) = true := by
    unfold carrying
    rw [List.any_append]
    exact Bool.or_true _
  have hall : (carrying scope (.aliased e.collect name)).all (isGrouped db) = false := by
    unfold carrying
    cases scope with
    | nil => exact absurd rfl hscope
    | cons => rfl
  have hkey : groupedBy db (carrying scope (.aliased e.collect name))
      = fun env => env.tuple scope := funext (groupedBy_carrying scope e name)
  unfold tabulate
  rw [hany, hall, hkey]
  rfl

end Cypher.ReturnItem

/-- The row that carries the values of another and has a new column is that
one with a new variable. -/
theorem Cypher.Environment.ofColumns_eq_bind {env row : Cypher.Environment} {scope : List String}
    {name : String} (hbinds : env.Binds scope) (hnew : name ∉ scope)
    (htuple : row.tuple scope = env.tuple scope) (d : Datum) :
    ofColumns (scope.map (fun other => (other, row.value other)) ++ [(name, d)])
      = env.bind name d := by
  have hget : ∀ names : List String, ∀ other,
      Dict.get? (names.map (fun other => (other, row.value other)) ++ [(name, d)]) other
        = if other ∈ names then some (row.value other)
          else if other = name then some d else none := by
    intro names other
    induction names with
    | nil =>
      rw [List.map_nil, List.nil_append, Dict.get?_cons, Dict.get?_nil]
      simp only [List.not_mem_nil, if_false, eq_comm]
    | cons first rest ih =>
      rw [List.map_cons, List.cons_append, Dict.get?_cons, ih]
      by_cases heq : first = other
      · rw [if_pos heq, heq, if_pos List.mem_cons_self]
      · simp only [if_neg heq, List.mem_cons, Ne.symm heq, false_or]
  funext other
  unfold ofColumns bind
  rw [hget]
  by_cases hother : other ∈ scope
  · have hne : other ≠ name := fun heq => hnew (heq ▸ hother)
    rw [if_pos hother, if_neg hne, hbinds.eq_value hother]
    exact congrArg some (List.map_inj_left.mp htuple other hother)
  · rw [if_neg hother, hbinds.eq_none hother]

-- ================================================================= groups

namespace Cypher.Environment

/-- Rows that come from other rows, at least one from each, are grouped by what
they carry into one row for each of these. -/
theorem perm_tabulate {scope : List String} (hscope : scope ≠ []) {name : String}
    (hnew : name ∉ scope) {rows out : List Environment} (hbinds : ∀ env ∈ rows, env.Binds scope)
    (hnodup : rows.Nodup) (hmem : ∀ key, key ∈ out.map (fun env => env.tuple scope)
      ↔ key ∈ rows.map fun env => env.tuple scope) (e : Expression) :
    ((ReturnItem.tabulate db (carrying scope (.aliased e.collect name)) out).map
        ofColumns).Perm
      (rows.map fun env => env.bind name (.list
        (e.collected db (out.filter fun other => other.tuple scope = env.tuple scope)))) := by
  have hkeys : (out.map fun env => env.tuple scope).dedup.Perm
      (rows.map fun env => env.tuple scope) := by
    refine (List.perm_ext_iff_of_nodup (List.nodup_dedup _) ?_).mpr fun key => ?_
    · exact List.Nodup.map_on (fun env henv env' henv' htuple =>
        (hbinds env henv).eq_of_tuple_eq (hbinds env' henv') htuple) hnodup
    · rw [List.mem_dedup]
      exact hmem key
  rw [ReturnItem.tabulate_carrying hscope, List.map_map]
  refine (hkeys.map _).trans (List.Perm.of_eq ?_)
  rw [List.map_map]
  refine List.map_congr_left fun env henv => ?_
  rw [Function.comp_apply, Function.comp_apply, ReturnItem.columns_carrying]
  refine ofColumns_eq_bind (hbinds env henv) hnew ?_ _
  -- the group is not empty, and all its rows carry the values of `env`
  have hkey := (hmem _).mpr (List.mem_map_of_mem (f := fun env => env.tuple scope) henv)
  obtain ⟨other, hother, htuple⟩ := List.mem_map.mp hkey
  have hgroup : other ∈ out.filter fun other => other.tuple scope = env.tuple scope :=
    List.mem_filter.mpr ⟨hother, decide_eq_true htuple⟩
  cases hfilter : out.filter fun other => other.tuple scope = env.tuple scope with
  | nil =>
    rw [hfilter] at hgroup
    cases hgroup
  | cons head rest =>
    have hhead : head ∈ out.filter fun other => other.tuple scope = env.tuple scope := by
      rw [hfilter]
      exact List.mem_cons_self
    exact of_decide_eq_true (List.mem_filter.mp hhead).2

end Cypher.Environment

end PropertyGraphQL
