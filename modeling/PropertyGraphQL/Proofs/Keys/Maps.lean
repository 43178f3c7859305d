/-
Statements in which no map has a key twice.

Maps stand in expressions, as projections of an entity, as constants, and as
the properties that a pattern asks of a node. What a condition compares with is
all that can bring a map into it (`Filtering.keysDistinct`). A plan has distinct
keys if all that it reads has them and no two fields of an entity have one key;
either dialect writes the maps of the plan, each of them, and no others
(`Compiler.keysDistinct_projected`).
-/
import PropertyGraphQL.Proofs.Data.KeysDistinct
import PropertyGraphQL.Proofs.Dialects.Plan
import PropertyGraphQL.Proofs.Outcome.Statement

namespace PropertyGraphQL

open Cypher

namespace Cypher

-- ============================================================= expressions

mutual

/-- No map in an expression has a key twice. -/
@[simp] def Expression.KeysDistinct : Expression → Prop
  | .literal l => l.KeysDistinct
  | .parameter _ => True
  | .var _ => True
  | .property _ _ => True
  | .call _ args => Expression.AllKeysDistinct args
  | .map entries => (entries.map Prod.fst).Nodup ∧ Expression.EntriesKeysDistinct entries
  | .projection _ items => (items.map MapItem.key).Nodup ∧ MapItem.AllKeysDistinct items
  | .list elems => Expression.AllKeysDistinct elems
  | .patternComprehension pattern condition result =>
      Pattern.KeysDistinct pattern ∧ Predicate.KeysDistinct condition
        ∧ Expression.KeysDistinct result
  | .listComprehension _ source condition result =>
      Expression.KeysDistinct source ∧ Predicate.KeysDistinct condition
        ∧ Expression.ResultKeysDistinct result
  | .slice source _ _ => Expression.KeysDistinct source
  | .conditional condition yes no =>
      Predicate.KeysDistinct condition ∧ Expression.KeysDistinct yes ∧ Expression.KeysDistinct no
  | .countAll => True

@[simp] def Expression.ResultKeysDistinct : Option Expression → Prop
  | none => True
  | some e => Expression.KeysDistinct e

@[simp] def Expression.AllKeysDistinct : List Expression → Prop
  | [] => True
  | e :: rest => Expression.KeysDistinct e ∧ Expression.AllKeysDistinct rest

/-- No map in the values of entries has a key twice. -/
@[simp] def Expression.EntriesKeysDistinct : List (String × Expression) → Prop
  | [] => True
  | (_, e) :: rest => Expression.KeysDistinct e ∧ Expression.EntriesKeysDistinct rest

@[simp] def MapItem.KeysDistinct : MapItem → Prop
  | .property _ => True
  | .entry _ value => Expression.KeysDistinct value

@[simp] def MapItem.AllKeysDistinct : List MapItem → Prop
  | [] => True
  | item :: rest => MapItem.KeysDistinct item ∧ MapItem.AllKeysDistinct rest

/-- The properties that a pattern asks of a node are a map. -/
@[simp] def NodePattern.KeysDistinct : NodePattern → Prop
  | ⟨_, _, properties⟩ =>
      (properties.map Prod.fst).Nodup ∧ Expression.EntriesKeysDistinct properties

@[simp] def NodePattern.HopsKeysDistinct : List (RelationshipPattern × NodePattern) → Prop
  | [] => True
  | (_, node) :: rest => NodePattern.KeysDistinct node ∧ NodePattern.HopsKeysDistinct rest

@[simp] def Pattern.KeysDistinct : Pattern → Prop
  | ⟨start, hops⟩ => NodePattern.KeysDistinct start ∧ NodePattern.HopsKeysDistinct hops

/-- No map in a predicate has a key twice. -/
@[simp] def Predicate.KeysDistinct : Predicate → Prop
  | .always => True
  | .never => True
  | .compare _ lhs rhs => Expression.KeysDistinct lhs ∧ Expression.KeysDistinct rhs
  | .isNull subject => Expression.KeysDistinct subject
  | .isNotNull subject => Expression.KeysDistinct subject
  | .quantified _ _ source condition =>
      Expression.KeysDistinct source ∧ Predicate.KeysDistinct condition
  | .conj lhs rhs => Predicate.KeysDistinct lhs ∧ Predicate.KeysDistinct rhs
  | .disj lhs rhs => Predicate.KeysDistinct lhs ∧ Predicate.KeysDistinct rhs
  | .neg inner => Predicate.KeysDistinct inner

end

/-- Several expressions have distinct keys if each of them has. -/
theorem Expression.allKeysDistinct_iff (es : List Expression) :
    Expression.AllKeysDistinct es ↔ ∀ e ∈ es, e.KeysDistinct := by
  induction es with
  | nil => simp
  | cons e rest ih => simp [ih]

/-- The entries of a map have distinct keys further in if each of its values has. -/
theorem Expression.entriesKeysDistinct_iff (entries : List (String × Expression)) :
    Expression.EntriesKeysDistinct entries ↔ ∀ entry ∈ entries, entry.2.KeysDistinct := by
  induction entries with
  | nil => simp
  | cons entry rest ih => simp [ih]

-- ================================================================= clauses

/-- No map in what rows are sorted by has a key twice. -/
def OrderBy.KeysDistinct (orderBy : Option OrderBy) : Prop :=
  ∀ key ∈ orderBy.getD [], key.1.KeysDistinct

/-- No map in a change made to an entity has a key twice. -/
@[simp] def SetItem.KeysDistinct : SetItem → Prop
  | .replace _ value => value.KeysDistinct
  | .merge _ value => value.KeysDistinct
  | .labels _ _ => True

/-- No map in a clause has a key twice. -/
@[simp] def Clause.KeysDistinct : Clause → Prop
  | .matching pattern _ condition => pattern.KeysDistinct ∧ condition.KeysDistinct
  | .withItems items orderBy =>
      (∀ item ∈ items, item.expression.KeysDistinct) ∧ OrderBy.KeysDistinct orderBy
  | .unwind source _ => source.KeysDistinct
  | .create pattern => pattern.KeysDistinct
  | .merge pattern => pattern.KeysDistinct
  | .set items => ∀ item ∈ items, item.KeysDistinct
  | .delete _ _ => True
  | .returnItems items orderBy _ _ =>
      (∀ item ∈ items, item.expression.KeysDistinct) ∧ OrderBy.KeysDistinct orderBy

/-- No map in the clauses has a key twice. -/
def Clause.AllKeysDistinct (clauses : List Clause) : Prop :=
  ∀ clause ∈ clauses, clause.KeysDistinct

@[simp] theorem Clause.allKeysDistinct_nil : Clause.AllKeysDistinct [] :=
  List.forall_mem_nil _

/-- Clauses have distinct keys if the first one and the others have. -/
@[simp] theorem Clause.allKeysDistinct_cons (clause : Clause) (rest : List Clause) :
    Clause.AllKeysDistinct (clause :: rest)
      ↔ clause.KeysDistinct ∧ Clause.AllKeysDistinct rest :=
  List.forall_mem_cons

/-- Clauses have distinct keys one part after the other. -/
@[simp] theorem Clause.allKeysDistinct_append (clauses more : List Clause) :
    Clause.AllKeysDistinct (clauses ++ more)
      ↔ Clause.AllKeysDistinct clauses ∧ Clause.AllKeysDistinct more :=
  List.forall_mem_append

/-- No map in a statement has a key twice. -/
def Statement.KeysDistinct (s : Statement) : Prop := Clause.AllKeysDistinct s.clauses

end Cypher

-- ============================================================== conditions

/-- Nothing is asked of the properties of related nodes. -/
@[simp] theorem RelationshipShape.keysDistinct_pattern (shape : RelationshipShape)
    (source target label : String) : (shape.pattern source target label).KeysDistinct := by
  simp [RelationshipShape.pattern, Pattern.related, Pattern.node, NodePattern.named,
    NodePattern.labelled]

/-- A condition has no maps but those in what properties are compared with. -/
theorem Cypher.Predicate.Filtering.keysDistinct {entity : String} {p : Predicate}
    (h : p.Filtering Expression.KeysDistinct entity) : p.KeysDistinct := by
  induction h with
  | compare compared => exact ⟨trivial, compared⟩
  | quantified _ ih => simpa [RelationshipShape.related] using ih
  | conj _ _ ihp ihq => exact ⟨ihp, ihq⟩
  | disj _ _ ihp ihq => exact ⟨ihp, ihq⟩
  | neg _ ih => exact ih
  | _ => simp

-- =================================================================== plans

namespace Traversal

/-- No map in where related entities come from, or in the condition on them, has a
key twice. -/
def KeysDistinct (t : Traversal) : Prop :=
  (∀ source ∈ t.source, source.KeysDistinct) ∧ t.arguments.condition.KeysDistinct

end Traversal

namespace Plan

mutual

/-- No map that is read has a key twice, and no two fields of an entity have one
key. -/
def KeysDistinct : Plan → Prop
  | .value e => e.KeysDistinct
  | .traversal t entries =>
      t.KeysDistinct ∧ (entries.map Prod.fst).Nodup ∧ EntriesKeysDistinct entries

def EntriesKeysDistinct : List (String × Plan) → Prop
  | [] => True
  | (_, plan) :: rest => KeysDistinct plan ∧ EntriesKeysDistinct rest

end

end Plan

-- ================================================================ dialects

/-- Rows are sorted by properties. -/
theorem ScopeArguments.keysDistinct_orderByClause (a : ScopeArguments) (entity : String) :
    OrderBy.KeysDistinct (a.orderByClause entity) := by
  unfold orderByClause
  split
  · exact List.forall_mem_nil _
  · intro key hkey
    obtain ⟨_, -, rfl⟩ := List.mem_map.mp hkey
    trivial

namespace Traversal

variable (t : Traversal)

/-- What matches the entities of a traversal has the keys of its source and its condition. -/
theorem keysDistinct_matching : t.matching.KeysDistinct ↔ t.KeysDistinct := by
  unfold matching KeysDistinct
  cases t.source with
  | none => simp [pattern]
  | some source =>
    dsimp only
    split
    · next halways =>
      have hcondition : t.arguments.condition = .always := by
        cases hp : t.arguments.condition with
        | always => rfl
        | _ => simp [hp, Predicate.isAlways] at halways
      simp [hcondition]
    · simp

/-- Bounds have no keys. -/
theorem keysDistinct_sliced (e : Expression) (lower upper : Option Int) :
    (e.sliced lower upper).KeysDistinct ↔ e.KeysDistinct := by
  unfold Expression.sliced
  split <;> simp

/-- To take the head of a list adds no keys. -/
theorem keysDistinct_single (e : Expression) :
    (t.single e).KeysDistinct ↔ e.KeysDistinct := by
  unfold single
  split <;> simp [Expression.head]

/-- However the related entities are asked for, all maps of the traversal are
there. -/
theorem keysDistinct_related (sortFunction : String) (projection : Expression) :
    (t.related sortFunction projection).KeysDistinct
      ↔ t.KeysDistinct ∧ projection.KeysDistinct := by
  unfold related
  dsimp only
  split
  · rw [keysDistinct_sliced]
    unfold projected KeysDistinct
    cases t.source with
    | none => simp [pattern]
    | some source => simp [and_assoc]
  · have hkeys : Expression.AllKeysDistinct
        (t.arguments.orderBy.map fun key => sortKey key.1 key.2) := by
      refine (Expression.allKeysDistinct_iff _).mpr fun e he => ?_
      obtain ⟨⟨property, order⟩, -, rfl⟩ := List.mem_map.mp he
      cases order <;> simp [sortKey, Literal.KeysDistinct]
    simp [keysDistinct_sliced, keysDistinct_matching, hkeys]

/-- The clauses that open a traversal have its keys. -/
theorem keysDistinct_opening (scope : List String) :
    Clause.AllKeysDistinct (t.opening scope) ↔ t.KeysDistinct := by
  have hmatching := t.keysDistinct_matching
  unfold opening
  cases hsource : t.source with
  | none => simp [KeysDistinct, hsource, pattern]
  | some source =>
    simp [carrying, ReturnItem.carried, ReturnItem.aliased, hmatching, elementsOrNull,
      Predicate.eq, OrderBy.KeysDistinct, Literal.KeysDistinct, or_imp, forall_and]

/-- The clauses that sort a traversal have no maps. -/
theorem keysDistinct_sorting (scope : List String) : Clause.AllKeysDistinct (t.sorting scope) := by
  have horder := t.arguments.keysDistinct_orderByClause t.entity
  unfold sorting
  split
  · simp
  · next orderBy hsome =>
    rw [hsome] at horder
    simp [ReturnItem.carried, horder]

/-- The clauses that close a traversal have the keys of what is projected. -/
theorem keysDistinct_closing (scope : List String) (projection : Expression) :
    Clause.AllKeysDistinct (t.closing scope projection) ↔ projection.KeysDistinct := by
  unfold closing
  simp [carrying, ReturnItem.carried, ReturnItem.aliased, keysDistinct_single,
    keysDistinct_sliced, Expression.collect, OrderBy.KeysDistinct, Literal.KeysDistinct, or_imp,
    forall_and]

end Traversal

/-- An item of a projection has the keys of its value. -/
theorem keysDistinct_projectionItem (entity key : String) (value : Expression) :
    (projectionItem entity key value).KeysDistinct ↔ value.KeysDistinct := by
  unfold projectionItem
  split
  · split <;> simp
  · simp

namespace Plan

mutual

/-- The maps of a projection are those of the plan. -/
theorem keysDistinct_projectionItems (sortFunction entity : String)
    (entries : List (String × Plan)) :
    MapItem.AllKeysDistinct (projectionItems sortFunction entity entries)
      ↔ EntriesKeysDistinct entries := by
  match entries with
  | [] => simp [projectionItems, EntriesKeysDistinct]
  | (key, plan) :: rest =>
    rw [projectionItems, MapItem.AllKeysDistinct, EntriesKeysDistinct,
      keysDistinct_projectionItem, keysDistinct_expression sortFunction plan,
      keysDistinct_projectionItems sortFunction entity rest]

/-- The expression for a plan has distinct keys exactly if the plan has. -/
theorem keysDistinct_expression (sortFunction : String) (plan : Plan) :
    (expression sortFunction plan).KeysDistinct ↔ plan.KeysDistinct := by
  match plan with
  | .value e => rw [expression, KeysDistinct]
  | .traversal t entries =>
    rw [expression, KeysDistinct, t.keysDistinct_single, t.keysDistinct_related,
      Expression.KeysDistinct, keys_projectionItems,
      keysDistinct_projectionItems sortFunction t.entity entries]

end

mutual

/-- The maps of the clauses and of what stands behind them are those of the plan. -/
theorem keysDistinct_stageEntries (scope : List String) (entries : List (String × Plan)) :
    Expression.EntriesKeysDistinct (stageEntries scope entries).result
        ∧ Clause.AllKeysDistinct (stageEntries scope entries).clauses
      ↔ EntriesKeysDistinct entries := by
  match entries with
  | [] => simp [stageEntries, EntriesKeysDistinct]
  | (key, plan) :: rest =>
    have hfirst := keysDistinct_stage scope plan
    have hrest := keysDistinct_stageEntries (stage scope plan).scope rest
    rw [EntriesKeysDistinct, ← hfirst, ← hrest, stageEntries]
    simp only [Expression.EntriesKeysDistinct, Clause.allKeysDistinct_append]
    exact iff_of_eq (by ac_rfl)

/-- The clauses for a plan and their result have distinct keys exactly if the plan has. -/
theorem keysDistinct_stage (scope : List String) (plan : Plan) :
    (stage scope plan).result.KeysDistinct ∧ Clause.AllKeysDistinct (stage scope plan).clauses
      ↔ plan.KeysDistinct := by
  match plan with
  | .value e => simp [stage, KeysDistinct]
  | .traversal t entries =>
    have hbelow := keysDistinct_stageEntries (scope ++ [t.entity]) entries
    rw [KeysDistinct, ← hbelow, stage, ← keys_stageEntries (scope ++ [t.entity]) entries]
    simp only [Clause.allKeysDistinct_append, t.keysDistinct_opening, t.keysDistinct_sorting,
      t.keysDistinct_closing, Expression.KeysDistinct, true_and, and_true]
    exact iff_of_eq (by ac_rfl)

end

end Plan

/-- What is projected of an entity, with the clauses in front of it, has the maps of
the plan, in either dialect, and one for the entity itself. -/
theorem Compiler.keysDistinct_projected (c : Compiler) (entity : String)
    (entries : List (String × Plan)) :
    (c.projected entity entries).1.KeysDistinct
        ∧ Clause.AllKeysDistinct (c.projected entity entries).2
      ↔ (entries.map Prod.fst).Nodup ∧ Plan.EntriesKeysDistinct entries := by
  unfold projected
  cases c.options.dialect with
  | comprehension =>
    simp [Plan.keys_projectionItems, Plan.keysDistinct_projectionItems]
  | staged =>
    have hentries := Plan.keysDistinct_stageEntries [entity] entries
    simp [Plan.keys_stageEntries, ← hentries, and_assoc]

end PropertyGraphQL
