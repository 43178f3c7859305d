/-
What a plan reads from a node, and that comprehensions read it.

The nodes that a traversal goes to are those its relationships lead to that
satisfy its condition, each once for every relationship (`Traversal.targets`).
What is read for a field depends on the node of its entity alone, whatever else
is bound: an expression names no other variable, and a condition only binds
names that are free. So the projection of an entity that is made of
comprehensions has just what the plan reads from the node
(`Formed.evalList_projectionItems`), where no traversal is sorted or cut, goes over
the list of a statement, or keeps only the first.
-/
import PropertyGraphQL.Proofs.Dialects.Plan
import PropertyGraphQL.Proofs.Filter.Evaluation
import PropertyGraphQL.Proofs.Freshness.Clause
import PropertyGraphQL.Proofs.Semantics.Rows

namespace PropertyGraphQL

open Cypher

variable {db : Database} {parameters : Dict Json} {entity : String}

-- ============================================================= what is read

/-- A traversal along relationships, whose list is kept as it is. -/
structure Emitted.IsPlain (e : Emitted) : Prop where
  related : e.origin.isLeft = true
  unsorted : e.order = []
  uncut : e.bounds = (none, none)
  whole : e.multi = true

section

variable (db)

namespace Traversal

/-- The nodes that a traversal goes to from a node, each once for every
relationship. -/
def targets (t : Traversal) (n : Nat) : List Nat :=
  (db.graph.reached t.shape t.label n).filter fun m =>
    t.arguments.condition.eval db (Environment.unbound.bind t.entity (.node m)) = .yes

end Traversal

namespace Plan

mutual

/-- What a plan reads from a node for its fields. -/
def readAll (entity : String) (n : Nat) : List (String × Plan) → List (String × Datum)
  | [] => []
  | (key, plan) :: rest => (key, read entity n plan) :: readAll entity n rest

/-- What is read for a field: a value, or a map for each related node. -/
def read (entity : String) (n : Nat) : Plan → Datum
  | .value e => e.eval db (Environment.unbound.bind entity (.node n))
  | .traversal t below => .list ((t.targets db n).map fun m => .map (readAll t.entity m below))

end

end Plan

end

-- ================================================================ dependence

namespace Cypher

/-- To bind a variable to the value that it has changes nothing. -/
theorem Environment.bind_eq_self {env : Environment} {name : String} {d : Datum}
    (h : env name = some d) : env.bind name d = env := by
  funext other
  unfold bind
  split
  · next heq => rw [heq, h]
  · rfl

/-- A bound variable has the value that it is bound to. -/
theorem Environment.value_of_eq {env : Environment} {name : String} {d : Datum}
    (h : env name = some d) : env.value name = d := by
  unfold value
  rw [h, Option.getD_some]

theorem Environment.value_bind_self (env : Environment) (name : String) (d : Datum) :
    (env.bind name d).value name = d :=
  value_of_eq (bind_self env name d)

namespace Expression

/-- Lists of expressions evaluate alike where their elements do. -/
theorem evalList_congr {env env' : Environment} {es : List Expression}
    (h : ∀ e ∈ es, e.eval db env = e.eval db env') :
    Expression.evalList db env es = Expression.evalList db env' es := by
  induction es with
  | nil => rfl
  | cons e rest ih =>
    obtain ⟨hfirst, hrest⟩ := List.forall_mem_cons.mp h
    rw [Expression.evalList, Expression.evalList, hfirst, ih hrest]

/-- Map entries evaluate alike where their values do. -/
theorem evalEntries_congr {env env' : Environment} {entries : List (String × Expression)}
    (h : ∀ entry ∈ entries, entry.2.eval db env = entry.2.eval db env') :
    Expression.evalEntries db env entries = Expression.evalEntries db env' entries := by
  induction entries with
  | nil => rfl
  | cons entry rest ih =>
    obtain ⟨hfirst, hrest⟩ := List.forall_mem_cons.mp h
    rw [Expression.evalEntries, Expression.evalEntries, hfirst, ih hrest]

/-- Data has its value everywhere. -/
theorem Ground.eval_eq {e : Expression} (h : e.Ground parameters) (env env' : Environment) :
    e.eval db env = e.eval db env' := by
  induction h with
  | literal | parameter => rfl
  | list _ ih => rw [Expression.eval, Expression.eval, evalList_congr ih]
  | map _ ih => rw [Expression.eval, Expression.eval, evalEntries_congr ih]

/-- What is read from an entity depends on the value of its variable alone. -/
theorem Reading.eval_eq {e : Expression} (h : e.Reading parameters entity)
    {env env' : Environment} (hentity : env.value entity = env'.value entity) :
    e.eval db env = e.eval db env' := by
  induction h with
  | ground h => exact h.eval_eq env env'
  | var => rw [Expression.eval, Expression.eval, hentity]
  | property => rw [Expression.eval, Expression.eval, hentity]
  | call _ ih => rw [Expression.eval, Expression.eval, evalList_congr ih]
  | map _ ih => rw [Expression.eval, Expression.eval, evalEntries_congr ih]

end Expression

/-- A condition on an entity depends on its node alone, where the names that its
quantifiers bind are free. -/
theorem Predicate.Filtering.eval_eq {p : Predicate}
    (h : p.Filtering (Expression.Ground parameters) entity) {env env' : Environment} {n : Nat}
    (hn : env entity = some (.node n)) (hn' : env' entity = some (.node n))
    (hfree : ∀ name ∈ p.binders, env name = none)
    (hfree' : ∀ name ∈ p.binders, env' name = none) : p.eval db env = p.eval db env' := by
  induction h generalizing env env' n with
  | always | never => rfl
  | compare compared =>
    simp only [Predicate.eval, Expression.eval, Environment.value_of_eq hn,
      Environment.value_of_eq hn', compared.eval_eq env env']
  | isNull | isNotNull =>
    simp only [Predicate.eval, Expression.eval, Environment.value_of_eq hn,
      Environment.value_of_eq hn']
  | @quantified entity key label q shape p inner ih =>
    obtain ⟨hitem, hinner⟩ := List.forall_mem_cons.mp hfree
    obtain ⟨hitem', hinner'⟩ := List.forall_mem_cons.mp hfree'
    -- the name bound here is bound nowhere inside
    have hne : ∀ name ∈ p.binders, name ≠ entity ++ "_" ++ key :=
      fun name hname => (inner.binders_below name hname).ne
    rw [Predicate.eval, Predicate.eval, shape.eval_related hn hitem,
      shape.eval_related hn' hitem']
    dsimp only
    congr 1
    refine List.map_congr_left fun d hd => ?_
    obtain ⟨m, -, rfl⟩ := List.mem_map.mp hd
    refine ih (Environment.bind_self _ _ _) (Environment.bind_self _ _ _) ?_ ?_
    · intro name hname
      rw [Environment.bind_other _ (hne name hname)]
      exact hinner name hname
    · intro name hname
      rw [Environment.bind_other _ (hne name hname)]
      exact hinner' name hname
  | conj _ _ ihp ihq =>
    obtain ⟨hp, hq⟩ := List.forall_mem_append.mp hfree
    obtain ⟨hp', hq'⟩ := List.forall_mem_append.mp hfree'
    rw [Predicate.eval, Predicate.eval, ihp hn hn' hp hp', ihq hn hn' hq hq']
  | disj _ _ ihp ihq =>
    obtain ⟨hp, hq⟩ := List.forall_mem_append.mp hfree
    obtain ⟨hp', hq'⟩ := List.forall_mem_append.mp hfree'
    rw [Predicate.eval, Predicate.eval, ihp hn hn' hp hp', ihq hn hn' hq hq']
  | neg _ ih => rw [Predicate.eval, Predicate.eval, ih hn hn' hfree hfree']

end Cypher

-- ============================================================= traversals

namespace Traversal

variable {t : Traversal}

/-- What makes a traversal plain. -/
theorem plain_of_emitted {keys : List String} (h : (t.emitted keys).IsPlain) :
    t.source = none ∧ t.arguments.orderBy = [] ∧ t.arguments.bounds = (none, none)
      ∧ t.multi = true := by
  obtain ⟨hrelated, hunsorted, huncut, hwhole⟩ := h
  refine ⟨?_, ?_, huncut, hwhole⟩
  · cases hsource : t.source with
    | none => rfl
    | some source =>
      unfold emitted origin at hrelated
      rw [hsource] at hrelated
      cases hrelated
  · unfold emitted order ScopeArguments.orderByClause at hunsorted
    cases horder : t.arguments.orderBy with
    | nil => rfl
    | cons first rest =>
      rw [horder] at hunsorted
      cases hunsorted

/-- The environments that the pattern and the condition of a traversal let
through bind its variable to the targets. -/
theorem filter_matchings (h : t.Formed parameters entity) {env : Cypher.Environment} {n : Nat}
    (hn : env entity = some (.node n)) (hentity : env t.entity = none)
    (hfree : ∀ name ∈ t.arguments.condition.binders, env name = none) :
    ((Pattern.matchings db env t.pattern).filter fun env =>
        t.arguments.condition.eval db env = .yes)
      = (t.targets db n).map fun m => env.bind t.entity (.node m) := by
  have hbinders : ∀ name ∈ t.arguments.condition.binders, name ≠ t.entity :=
    fun name hname => (h.condition.binders_below name hname).ne
  unfold pattern targets
  rw [h.parent, t.shape.matchings_pattern hn hentity, Environment.bind_eq_self hn,
    List.filter_map]
  congr 1
  refine List.filter_congr fun m _ => ?_
  rw [Function.comp_apply]
  congr 2
  refine h.condition.eval_eq (Environment.bind_self _ _ _) (Environment.bind_self _ _ _) ?_ ?_
  · intro name hname
    rw [Environment.bind_other _ (hbinders name hname)]
    exact hfree name hname
  · intro name hname
    rw [Environment.bind_other _ (hbinders name hname)]
    rfl

end Traversal

-- ========================================================== comprehensions

/-- Whether an item of a projection is short or written out, it gives the value under the key. -/
theorem eval_projectionItem {env : Cypher.Environment} {d : Datum} (h : env.value entity = d)
    (key : String) (value : Expression) :
    MapItem.eval db env d (projectionItem entity key value) = (key, value.eval db env) := by
  unfold projectionItem
  split
  · split
    · next heq =>
      obtain ⟨rfl, rfl⟩ := heq
      rw [MapItem.eval, Expression.eval, h]
    · rfl
  · rfl

namespace Plan.Formed

variable {entries : List (String × Plan)}

/-- The projection that is made of comprehensions has what the plan reads. -/
theorem evalList_projectionItems (h : Formed parameters entity entries)
    (hplain : ∀ e ∈ allTraversals entries, e.IsPlain) {env : Cypher.Environment} {n : Nat}
    (hn : env entity = some (.node n)) (hfresh : env.FreshBelow entity) (sortFunction : String) :
    MapItem.evalList db env (.node n) (projectionItems sortFunction entity entries)
      = readAll db entity n entries := by
  induction h generalizing env n with
  | nil => rfl
  | value h _ ih =>
    rw [projectionItems, MapItem.evalList, eval_projectionItem (Environment.value_of_eq hn),
      readAll, ih hplain hn hfresh, Plan.expression, Plan.read]
    -- the projection has the node for its owner, whatever else is bound
    rw [h.eval_eq ((Environment.value_of_eq hn).trans (Environment.value_bind_self _ _ _).symm)]
  | @traversal entity key t below rest h hbelow _ ihbelow ihrest =>
    obtain ⟨hown, hrest⟩ := List.forall_mem_append.mp hplain
    obtain ⟨hplain, hinside⟩ := List.forall_mem_cons.mp hown
    obtain ⟨hsource, horder, hbounds, hmulti⟩ := Traversal.plain_of_emitted hplain
    -- nothing below the entity is bound yet, so the pattern matches freely
    have hbinder : ∀ {name}, NamedBelow entity name → env name = none := by
      rintro _ ⟨rest, rfl⟩
      exact hfresh rest
    have hexpression : Plan.expression sortFunction (.traversal t below)
        = .patternComprehension t.pattern t.arguments.condition
          (.projection t.entity (projectionItems sortFunction t.entity below)) := by
      rw [Plan.expression]
      unfold Traversal.single Traversal.related Traversal.projected
      rw [hmulti, horder, hbounds, hsource]
      rfl
    rw [projectionItems, MapItem.evalList, eval_projectionItem (Environment.value_of_eq hn),
      readAll, ihrest hrest hn hfresh, hexpression, Expression.eval,
      Traversal.filter_matchings h hn (hbinder h.named)
        (fun name hname => hbinder (h.named.trans (h.condition.binders_below name hname))),
      List.map_map, Plan.read]
    -- each related node is read by the plan below, in turn
    congr 3
    refine List.map_congr_left fun m _ => ?_
    have hm : (env.bind t.entity (.node m)) t.entity = some (.node m) :=
      Environment.bind_self _ _ _
    have hbelow : (env.bind t.entity (.node m)).FreshBelow t.entity := by
      obtain ⟨name, hname⟩ := h.named
      rw [hname]
      exact hfresh.bind name _
    rw [Function.comp_apply, Expression.eval, Environment.value_of_eq hm, ihbelow hinside hm hbelow]
    rfl

end Plan.Formed

end PropertyGraphQL
