/-
The values that are supplied, and those that the statement refers to.

Both dialects keep whatever a plan refers to (`Compiler.mem_projected`). So
the parameters of a translation are those of its text and, besides, those
that were bound for a condition in a scope where another one is `false`
(`Compiler.keys_iff`): a filter that nothing satisfies takes the other
arguments of its field with it, but not their values.
-/
import PropertyGraphQL.Proofs.Outcome.Statement
import PropertyGraphQL.Proofs.Parameters.Scopes

namespace PropertyGraphQL

open Cypher Compiling

-- ================================================================= clauses

namespace Cypher

/-- The parameters that a clause refers to. -/
def Clause.references (clause : Clause) : List String := referenced clause.lexemes

/-- A column refers to the parameters of its expression. -/
theorem ReturnItem.referenced_lexemes (item : ReturnItem) :
    referenced item.lexemes = item.expression.references := by
  obtain ⟨e, rename⟩ := item
  cases rename <;> simp [lexemes, Expression.references]

theorem referenced_itemsLexemes (items : List ReturnItem) :
    referenced (itemsLexemes items) = items.flatMap (·.expression.references) := by
  rw [itemsLexemes, referenced_separated, List.flatMap_map]
  simp only [ReturnItem.referenced_lexemes]

theorem OrderBy.referenced_lexemes (orderBy : OrderBy) :
    referenced orderBy.lexemes = orderBy.flatMap (·.1.references) := by
  simp [lexemes, List.flatMap_map, Expression.references]

namespace Clause

@[simp] theorem references_matching (pattern : Pattern) (optional : Bool)
    (condition : Predicate) :
    (matching pattern optional condition).references
      = pattern.references ++ condition.references := by
  simp [references, lexemes, Pattern.references]

@[simp] theorem references_withItems (items : List ReturnItem) (orderBy : Option OrderBy) :
    (withItems items orderBy).references
      = items.flatMap (·.expression.references)
        ++ orderBy.elim [] (·.flatMap (·.1.references)) := by
  cases orderBy <;>
    simp [references, lexemes, referenced_itemsLexemes, OrderBy.referenced_lexemes]

@[simp] theorem references_unwind (source : Expression) (binder : String) :
    (unwind source binder).references = source.references := by
  simp [references, lexemes, Expression.references]

@[simp] theorem references_create (pattern : Pattern) :
    (create pattern).references = pattern.references := by
  simp [references, lexemes, Pattern.references]

@[simp] theorem references_merge (pattern : Pattern) :
    (merge pattern).references = pattern.references := by
  simp [references, lexemes, Pattern.references]

@[simp] theorem references_replace (target : String) (value : Expression) :
    (set [.replace target value]).references = value.references := by
  simp [references, lexemes, SetItem.lexemes, Expression.references]

@[simp] theorem references_add (target : String) (value : Expression) :
    (set [.merge target value]).references = value.references := by
  simp [references, lexemes, SetItem.lexemes, Expression.references]

@[simp] theorem references_delete (targets : List String) (detach : Bool) :
    (delete targets detach).references = [] := by
  simp [references, lexemes, List.flatMap_map]

@[simp] theorem references_returnItems (items : List ReturnItem) (orderBy : Option OrderBy)
    (skip limit : Option Int) :
    (returnItems items orderBy skip limit).references
      = items.flatMap (·.expression.references)
        ++ orderBy.elim [] (·.flatMap (·.1.references)) := by
  cases orderBy <;> cases skip <;> cases limit <;>
    simp [references, lexemes, referenced_itemsLexemes, OrderBy.referenced_lexemes]

end Clause

/-- The parameters that clauses refer to. -/
def Clause.allReferences (clauses : List Clause) : List String :=
  clauses.flatMap Clause.references

@[simp] theorem Clause.allReferences_nil : Clause.allReferences [] = [] := rfl

@[simp] theorem Clause.allReferences_cons (clause : Clause) (rest : List Clause) :
    Clause.allReferences (clause :: rest) = clause.references ++ Clause.allReferences rest := rfl

/-- Clauses refer to the parameters of each part. -/
@[simp] theorem Clause.allReferences_append (clauses more : List Clause) :
    Clause.allReferences (clauses ++ more)
      = Clause.allReferences clauses ++ Clause.allReferences more :=
  List.flatMap_append

/-- A statement refers to what its clauses do. -/
theorem Statement.mem_parameters (s : Statement) (name : String) :
    name ∈ s.parameters ↔ name ∈ Clause.allReferences s.clauses := by
  have hreferenced : referenced s.lexemes = Clause.allReferences s.clauses := by
    unfold Statement.lexemes
    rw [referenced_append, referenced_separated, List.flatMap_map]
    cases s.report <;> rfl
  rw [Statement.parameters, parametersOf, List.mem_eraseDups]
  show name ∈ referenced s.lexemes ↔ _
  rw [hreferenced]

end Cypher

-- ================================================================ dialects

namespace Traversal

variable (t : Traversal)

@[simp] theorem references_pattern : t.pattern.references = [] :=
  t.shape.references_pattern _ _ _

/-- What matches the entities of a traversal refers to its parameters. -/
theorem references_matching : t.matching.references = t.references := by
  unfold matching references
  cases t.source with
  | none => simp
  | some source =>
    dsimp only
    split
    · next halways =>
      have hcondition : t.arguments.condition.references = [] := by
        cases hp : t.arguments.condition with
        | always => rfl
        | _ => simp [hp, Predicate.isAlways] at halways
      simp [hcondition]
    · simp

/-- Bounds refer to no parameters. -/
theorem references_sliced (e : Expression) (lower upper : Option Int) :
    (e.sliced lower upper).references = e.references := by
  unfold Expression.sliced
  split <;> simp

theorem references_single (e : Expression) : (t.single e).references = e.references := by
  unfold single
  split <;> simp [Expression.head]

/-- However the related entities are asked for, all that the traversal refers
to is there. -/
theorem references_related (sortFunction : String) (projection : Expression) :
    (t.related sortFunction projection).references
      = t.references ++ projection.references := by
  unfold related
  dsimp only
  split
  · rw [references_sliced]
    unfold projected references
    cases t.source <;> simp
  · have hkey (key : String × SortOrder) : (sortKey key.1 key.2).references = [] := by
      cases key.2 <;> rfl
    simp [references_sliced, references_matching, List.flatMap_map, hkey]

/-- The clauses that open a traversal refer to its parameters. -/
theorem references_opening (scope : List String) :
    Clause.allReferences (t.opening scope) = t.references := by
  have hmatching := t.references_matching
  unfold opening
  cases hsource : t.source with
  | none => simp [references, hsource]
  | some source =>
    simp [carrying, ReturnItem.carried, ReturnItem.aliased, hmatching, elementsOrNull,
      Predicate.eq, List.flatMap_map]

/-- The clauses that sort a traversal refer to no parameters. -/
theorem references_sorting (scope : List String) :
    Clause.allReferences (t.sorting scope) = [] := by
  unfold sorting ScopeArguments.orderByClause
  split
  · rfl
  · next orderBy horder =>
    split at horder
    · cases horder
    · cases horder
      simp [List.flatMap_map, ReturnItem.carried]

/-- The clauses that close a traversal refer to the parameters of what is projected. -/
theorem references_closing (scope : List String) (projection : Expression) :
    Clause.allReferences (t.closing scope projection) = projection.references := by
  simp [closing, carrying, ReturnItem.carried, ReturnItem.aliased, references_single,
    references_sliced, Expression.collect, List.flatMap_map]

end Traversal

/-- An item of a projection refers to the parameters of its value. -/
theorem references_projectionItem (entity key : String) (value : Expression) :
    (projectionItem entity key value).references = value.references := by
  unfold projectionItem
  split
  · split <;> simp
  · simp

namespace Plan

mutual

/-- A projection refers to what the plan does. -/
theorem references_projectionItems (sortFunction entity : String)
    (entries : List (String × Plan)) :
    (projectionItems sortFunction entity entries).flatMap MapItem.references
      = entriesReferences entries := by
  match entries with
  | [] => rfl
  | (key, plan) :: rest =>
    rw [projectionItems, entriesReferences, List.flatMap_cons, references_projectionItem,
      references_expression sortFunction plan, references_projectionItems sortFunction entity rest]

/-- The expression for a plan refers to the parameters of the plan. -/
theorem references_expression (sortFunction : String) (plan : Plan) :
    (expression sortFunction plan).references = plan.references := by
  match plan with
  | .value e => rw [expression, references]
  | .traversal t entries =>
    rw [expression, references, t.references_single, t.references_related,
      Expression.references_projection, references_projectionItems sortFunction t.entity entries]

end

mutual

/-- The clauses and the map behind them refer to what the plan does. -/
theorem mem_stageEntries (scope : List String) (entries : List (String × Plan)) (name : String) :
    (name ∈ (stageEntries scope entries).result.flatMap (·.2.references)
        ∨ name ∈ Clause.allReferences (stageEntries scope entries).clauses)
      ↔ name ∈ entriesReferences entries := by
  match entries with
  | [] => simp [stageEntries, entriesReferences]
  | (key, plan) :: rest =>
    have hfirst := mem_stage scope plan name
    have hrest := mem_stageEntries (stage scope plan).scope rest name
    rw [entriesReferences, List.mem_append, ← hfirst, ← hrest, stageEntries]
    simp only [List.flatMap_cons, List.mem_append, Clause.allReferences_append]
    exact iff_of_eq (by ac_rfl)

/-- The clauses for a plan and their result together refer to the parameters of the plan. -/
theorem mem_stage (scope : List String) (plan : Plan) (name : String) :
    (name ∈ (stage scope plan).result.references
        ∨ name ∈ Clause.allReferences (stage scope plan).clauses)
      ↔ name ∈ plan.references := by
  match plan with
  | .value e => simp [stage, references]
  | .traversal t entries =>
    have hbelow := mem_stageEntries (scope ++ [t.entity]) entries name
    rw [references, List.mem_append, ← hbelow, stage]
    simp only [Clause.allReferences_append, t.references_opening, t.references_sorting,
      t.references_closing, Expression.references_var, Expression.references_map, List.mem_append,
      List.append_nil, List.not_mem_nil, false_or]
    exact iff_of_eq (by ac_rfl)

end

end Plan

/-- What is projected of an entity, with the clauses in front of it, refers to
what the plan does, in either dialect. -/
theorem Compiler.mem_projected (c : Compiler) (entity : String) (entries : List (String × Plan))
    (name : String) :
    (name ∈ (c.projected entity entries).1.references
        ∨ name ∈ Clause.allReferences (c.projected entity entries).2)
      ↔ name ∈ Plan.entriesReferences entries := by
  unfold projected
  cases c.options.dialect with
  | comprehension => simp [Plan.references_projectionItems]
  | staged => simpa using Plan.mem_stageEntries [entity] entries name

-- =============================================================== statement

namespace FieldHead

variable (head : FieldHead) (t : EntityType) (before : List String)

theorem binds_allowOnly (allowed : List String) :
    Binds before (head.allowOnly t allowed) fun _ => before := by
  unfold allowOnly
  split
  · exact .throw
  · exact .pure fun _ => Iff.rfl

theorem binds_idProperty : Binds before (head.idProperty t) fun _ => before := by
  unfold idProperty
  split
  · exact .pure fun _ => Iff.rfl
  · exact .throw

/-- To match a node by its property binds the parameters that this refers to. -/
theorem binds_identifiedNode (id : PropertyField) (entity : String) :
    Binds before (head.identifiedNode t id entity) fun node => before ++ node.references := by
  unfold identifiedNode
  split
  · refine (binds_resolve before _).bind fun j => (binds_bind before id.name j).bind fun e =>
      .pure fun name => ?_
    simp
  · exact .throw

/-- Reading the arguments binds nothing. -/
theorem binds_storedProperties (excluded : Option String) :
    Binds before (head.storedProperties t excluded) fun _ => before := by
  unfold storedProperties
  refine (Binds.mapM (fun _ => []) fun argument _ before => ?_).mono
    fun given name => by simp
  dsimp only
  split
  · split
    · exact (binds_resolve before _).bind fun j => .pure fun name => by simp
    · exact .throw
  · exact .throw

end FieldHead

namespace Compiler

variable {c : Compiler} {f : RootField} {vars : Dict Json}

/-- A translation comes to a scope, in the state that follows: that of the
field's own arguments, or one that planning the selection comes to. -/
inductive Reaches (c : Compiler) (f : RootField) (vars : Dict Json) :
    Purpose → ArgumentScope → Parameters → Prop where
  | root {t : EntityType} :
      Reaches c f vars (.select t)
        ⟨t, rootVariable t.name f.head.responseKey, [], f.head.arguments⟩ ⟨vars, []⟩
  | selected {t : EntityType} {a : ScopeArguments} {p q : Parameters} {s : ArgumentScope}
      (ha : (ScopeArguments.ofArguments c.catalog t (rootVariable t.name f.head.responseKey) []
        f.head.arguments).run ⟨vars, []⟩ = .ok (a, p))
      (h : c.Comes (rootVariable t.name f.head.responseKey)
        (Collected.collect c.catalog t f.selections) p s q) :
      Reaches c f vars (.select t) s q
  | created {t : EntityType} {given : Dict Json} {properties : Expression}
      {p p' q : Parameters} {s : ArgumentScope}
      (hgiven : (f.head.storedProperties t none).run ⟨vars, []⟩ = .ok (given, p))
      (hproperties : (Compiling.bind "properties" (.obj (t.withDefaults given))).run p
        = .ok (properties, p'))
      (h : c.Comes (rootVariable t.name f.head.responseKey)
        (Collected.collect c.catalog t f.selections) p' s q) :
      Reaches c f vars (.change (.create t)) s q
  | updated {t : EntityType} {id : PropertyField} {node : NodePattern} {given : Dict Json}
      {properties : Expression} {p p' p'' q : Parameters} {s : ArgumentScope}
      (hid : t.idPropertyField? = some id)
      (hnode : (f.head.identifiedNode t id (rootVariable t.name f.head.responseKey)).run ⟨vars, []⟩
        = .ok (node, p))
      (hgiven : (f.head.storedProperties t (some id.name)).run p = .ok (given, p'))
      (hproperties : (Compiling.bind "properties" (.obj given)).run p' = .ok (properties, p''))
      (h : c.Comes (rootVariable t.name f.head.responseKey)
        (Collected.collect c.catalog t f.selections) p'' s q) :
      Reaches c f vars (.change (.update t)) s q

/-- A projection is made from what is planned for the collected fields. -/
theorem project_eq_ok {t : EntityType} {entity : String} {selections : List Selection}
    {projection : Expression × List Clause} {p q : Parameters}
    (h : (c.project t entity selections).run p = .ok (projection, q)) :
    ∃ entries, (c.planFields entity (Collected.collect c.catalog t selections)).run p
        = .ok (entries, q)
      ∧ projection = c.projected entity entries := by
  unfold project at h
  obtain ⟨⟨entries, q'⟩, hplan, h⟩ := bind_eq_ok_iff.mp h
  refine ⟨entries, ?_⟩
  unfold projected
  cases hdialect : c.options.dialect with
  | comprehension =>
    rw [hdialect] at h
    cases h
    exact ⟨hplan, rfl⟩
  | staged =>
    rw [hdialect] at h
    cases h
    exact ⟨hplan, rfl⟩

/-- What is bound for the projection of an entity. -/
theorem keys_project {t : EntityType} {entity : String} {selections : List Selection}
    {projection : Expression × List Clause} {p q : Parameters}
    (h : (c.project t entity selections).run p = .ok (projection, q)) (name : String) :
    name ∈ q.bound.keys ↔ name ∈ p.bound.keys
      ∨ (name ∈ projection.1.references ∨ name ∈ Clause.allReferences projection.2)
      ∨ ∃ s r, c.Comes entity (Collected.collect c.catalog t selections) p s r
        ∧ s.Drops c.catalog r name := by
  obtain ⟨entries, hplan, rfl⟩ := project_eq_ok h
  rw [keys_planFields hplan, c.mem_projected]

/-- What is bound behind a change. -/
theorem keys_returning {t : EntityType} {entity : String} {clauses : List Clause}
    {p q : Parameters} (h : (c.returning f t entity).run p = .ok (clauses, q)) (name : String) :
    name ∈ q.bound.keys ↔ name ∈ p.bound.keys
      ∨ name ∈ Clause.allReferences clauses
      ∨ ∃ s r, c.Comes entity (Collected.collect c.catalog t f.selections) p s r
        ∧ s.Drops c.catalog r name := by
  unfold returning at h
  split at h
  · next hempty =>
    cases h
    have hcollect : Collected.collect c.catalog t f.selections = [] := by
      rw [List.isEmpty_iff.mp hempty]
      rfl
    have hnone : ¬ ∃ s r, c.Comes entity (Collected.collect c.catalog t f.selections) p s r
        ∧ s.Drops c.catalog r name := by
      rw [hcollect]
      rintro ⟨s, r, h, -⟩
      cases h
    simp [hnone, FieldHead.countClause, ReturnItem.aliased]
  · obtain ⟨⟨⟨projection, nested⟩, q'⟩, hproject, h⟩ := bind_eq_ok_iff.mp h
    cases h
    rw [keys_project hproject, or_comm (a := name ∈ projection.references)]
    cases nested with
    | nil => simp [ReturnItem.aliased]
    | cons clause rest => simp [ReturnItem.aliased, ReturnItem.carried, or_assoc]

/-- Behind a selection just those names are bound that its clauses refer to, and
those that are dropped. -/
theorem keys_scopeClauses {t : EntityType} {clauses : List Clause} {q : Parameters}
    (h : (c.scopeClauses f t).run ⟨vars, []⟩ = .ok (clauses, q)) (name : String) :
    name ∈ q.bound.keys ↔ name ∈ Clause.allReferences clauses
      ∨ ∃ s r, c.Reaches f vars (.select t) s r ∧ s.Drops c.catalog r name := by
  obtain ⟨⟨a, p⟩, ha, h⟩ := bind_eq_ok_iff.mp h
  obtain ⟨⟨⟨projection, nested⟩, p'⟩, hproject, h⟩ := bind_eq_ok_iff.mp h
  cases h
  -- the scope of the root is compiled before all others
  have hreaches : (∃ s r, c.Reaches f vars (.select t) s r ∧ s.Drops c.catalog r name)
      ↔ (ArgumentScope.mk t (rootVariable t.name f.head.responseKey) []
          f.head.arguments).Drops c.catalog ⟨vars, []⟩ name
        ∨ ∃ s r, c.Comes (rootVariable t.name f.head.responseKey)
            (Collected.collect c.catalog t f.selections) p s r
          ∧ s.Drops c.catalog r name := by
    constructor
    · rintro ⟨s, r, hreaches, hdrops⟩
      cases hreaches with
      | root => exact .inl hdrops
      | selected ha' hcomes =>
        cases ha.symm.trans ha'
        exact .inr ⟨s, r, hcomes, hdrops⟩
    · rintro (hdrops | ⟨s, r, hcomes, hdrops⟩)
      · exact ⟨_, _, .root, hdrops⟩
      · exact ⟨s, r, .selected ha hcomes, hdrops⟩
  -- an order is by properties, which refer to no parameters
  have hsort : (a.orderByClause (rootVariable t.name f.head.responseKey)).elim []
      (·.flatMap (·.1.references)) = [] := by
    unfold ScopeArguments.orderByClause
    split
    · rfl
    · simp [List.flatMap_map]
  rw [keys_project hproject, ScopeArguments.keys_ofArguments ha, hreaches]
  simp only [Dict.keys, List.map_nil, List.not_mem_nil, false_or, Pattern.node,
    NodePattern.labelled, ReturnItem.aliased, List.cons_append, Clause.allReferences_cons,
    Clause.allReferences_append, Clause.references_matching, Clause.references_returnItems,
    Pattern.references_mk, NodePattern.references_mk, List.flatMap_nil, List.flatMap_cons,
    Clause.allReferences_nil, hsort, List.append_nil, List.nil_append, List.mem_append]
  exact iff_of_eq (by ac_rfl)

/-- What is bound when an entity is created is referred to, or dropped by a conjunction that
never holds. -/
theorem keys_createClauses {t : EntityType} {clauses : List Clause} {q : Parameters}
    (h : (c.createClauses f t).run ⟨vars, []⟩ = .ok (clauses, q)) (name : String) :
    name ∈ q.bound.keys ↔ name ∈ Clause.allReferences clauses
      ∨ ∃ s r, c.Reaches f vars (.change (.create t)) s r ∧ s.Drops c.catalog r name := by
  unfold createClauses at h
  rw [StateT.run_bind] at h
  obtain ⟨⟨given, p⟩, hgiven, h⟩ := bind_eq_ok_iff.mp h
  rw [StateT.run_bind] at h
  obtain ⟨⟨properties, p'⟩, hproperties, h⟩ := bind_eq_ok_iff.mp h
  rw [StateT.run_bind] at h
  obtain ⟨⟨returning, p''⟩, hreturning, h⟩ := bind_eq_ok_iff.mp h
  cases h
  -- the arguments of a new node are properties, so scopes come with the returned fields only
  have hreaches : (∃ s r, c.Reaches f vars (.change (.create t)) s r ∧ s.Drops c.catalog r name)
      ↔ ∃ s r, c.Comes (rootVariable t.name f.head.responseKey)
          (Collected.collect c.catalog t f.selections) p' s r ∧ s.Drops c.catalog r name := by
    constructor
    · rintro ⟨s, r, hreaches, hdrops⟩
      cases hreaches with
      | created hgiven' hproperties' hcomes =>
        cases hgiven.symm.trans hgiven'
        cases hproperties.symm.trans hproperties'
        exact ⟨s, r, hcomes, hdrops⟩
    · rintro ⟨s, r, hcomes, hdrops⟩
      exact ⟨s, r, .created hgiven hproperties hcomes, hdrops⟩
  have hp := (f.head.binds_storedProperties t [] none).keys hgiven name
  have hp' := (binds_bind [] "properties" _).keys hproperties name
  rw [keys_returning hreturning, hreaches, hp', hp]
  simp [Dict.keys, Pattern.node, or_assoc]

/-- What is bound when an entity is updated is referred to, or dropped by a conjunction that
never holds. -/
theorem keys_updateClauses {t : EntityType} {clauses : List Clause} {q : Parameters}
    (h : (c.updateClauses f t).run ⟨vars, []⟩ = .ok (clauses, q)) (name : String) :
    name ∈ q.bound.keys ↔ name ∈ Clause.allReferences clauses
      ∨ ∃ s r, c.Reaches f vars (.change (.update t)) s r ∧ s.Drops c.catalog r name := by
  unfold updateClauses at h
  rw [StateT.run_bind] at h
  obtain ⟨⟨id, p₀⟩, hid, h⟩ := bind_eq_ok_iff.mp h
  rw [StateT.run_bind] at h
  obtain ⟨⟨node, p⟩, hnode, h⟩ := bind_eq_ok_iff.mp h
  rw [StateT.run_bind] at h
  obtain ⟨⟨given, p'⟩, hgiven, h⟩ := bind_eq_ok_iff.mp h
  rw [StateT.run_bind] at h
  obtain ⟨⟨properties, p''⟩, hproperties, h⟩ := bind_eq_ok_iff.mp h
  rw [StateT.run_bind] at h
  obtain ⟨⟨returning, p'''⟩, hreturning, h⟩ := bind_eq_ok_iff.mp h
  cases h
  have hidentified : t.idPropertyField? = some id ∧ p₀ = ⟨vars, []⟩ := by
    unfold FieldHead.idProperty at hid
    split at hid
    · next id' hid' =>
      cases hid
      exact ⟨hid', rfl⟩
    · cases hid
  obtain ⟨hidentified, rfl⟩ := hidentified
  have hreaches : (∃ s r, c.Reaches f vars (.change (.update t)) s r ∧ s.Drops c.catalog r name)
      ↔ ∃ s r, c.Comes (rootVariable t.name f.head.responseKey)
          (Collected.collect c.catalog t f.selections) p'' s r ∧ s.Drops c.catalog r name := by
    constructor
    · rintro ⟨s, r, hreaches, hdrops⟩
      cases hreaches with
      | updated hid' hnode' hgiven' hproperties' hcomes =>
        cases hidentified.symm.trans hid'
        cases hnode.symm.trans hnode'
        cases hgiven.symm.trans hgiven'
        cases hproperties.symm.trans hproperties'
        exact ⟨s, r, hcomes, hdrops⟩
    · rintro ⟨s, r, hcomes, hdrops⟩
      exact ⟨s, r, .updated hidentified hnode hgiven hproperties hcomes, hdrops⟩
  have hp := (f.head.binds_identifiedNode t [] id _).keys hnode name
  have hp' := (f.head.binds_storedProperties t [] _).keys hgiven name
  have hp'' := (binds_bind [] "properties" _).keys hproperties name
  rw [keys_returning hreturning, hreaches, hp'', hp', hp]
  simp [Dict.keys, Pattern.node, or_assoc]

/-- Deleting binds what it refers to. -/
theorem binds_deleteClauses (t : EntityType) :
    Binds [] (deleteClauses f t) Clause.allReferences := by
  unfold deleteClauses
  refine (f.head.binds_idProperty t []).bind fun id =>
    (f.head.binds_allowOnly t [] _).bind fun _ =>
      (f.head.binds_identifiedNode t [] id _).bind fun node => .pure fun name => ?_
  simp [Pattern.node, FieldHead.countClause, ReturnItem.aliased]

/-- Relating binds what it refers to. -/
theorem binds_relateClauses (t : EntityType) (r : RelationshipField) (connect : Bool) :
    Binds [] (c.relateClauses f t r connect) Clause.allReferences := by
  unfold relateClauses
  refine (f.head.binds_idProperty t []).bind fun id => ?_
  split
  · refine (f.head.binds_idProperty _ []).bind fun targetId =>
      (f.head.binds_allowOnly t [] _).bind fun _ =>
        (f.head.binds_identifiedNode t [] id _).bind fun source => ?_
    split
    · refine (binds_resolve _ _).bind fun j => (binds_bind _ r.name _).bind fun ids =>
        .pure fun name => ?_
      cases connect <;>
        simp [Pattern.node, Pattern.related, NodePattern.named, NodePattern.labelled,
          FieldHead.countClause, ReturnItem.aliased]
    · exact .throw
  · exact .throw

/-- Behind a translation just those names are bound that its clauses refer to,
and those that are dropped in the scopes it comes to. -/
theorem keys_purposeClauses {purpose : Purpose} {clauses : List Clause} {q : Parameters}
    (h : (c.purposeClauses f purpose).run ⟨vars, []⟩ = .ok (clauses, q)) (name : String) :
    name ∈ q.bound.keys ↔ name ∈ Clause.allReferences clauses
      ∨ ∃ s r, c.Reaches f vars purpose s r ∧ s.Drops c.catalog r name := by
  -- what only counts has no field that asks for a scope
  have hclosed {mutation : GeneratedMutation} {step : Compiling (List Clause)}
      (hbinds : Binds [] step Clause.allReferences)
      (hstep : step.run ⟨vars, []⟩ = .ok (clauses, q))
      (hreaches : ∀ s r, ¬ c.Reaches f vars (.change mutation) s r) :
      name ∈ q.bound.keys ↔ name ∈ Clause.allReferences clauses
        ∨ ∃ s r, c.Reaches f vars (.change mutation) s r ∧ s.Drops c.catalog r name := by
    rw [hbinds.keys hstep]
    simp [Dict.keys, hreaches]
  cases purpose with
  | select t => exact keys_scopeClauses h name
  | change mutation =>
    cases mutation with
    | create t => exact keys_createClauses h name
    | update t => exact keys_updateClauses h name
    | delete t =>
      refine hclosed (binds_deleteClauses t) h fun _ _ hreaches => ?_
      cases hreaches
    | addRelationship t r =>
      refine hclosed (c.binds_relateClauses t r true) h fun _ _ hreaches => ?_
      cases hreaches
    | deleteRelationship t r =>
      refine hclosed (c.binds_relateClauses t r false) h fun _ _ hreaches => ?_
      cases hreaches

end Compiler

-- ================================================================= filters

/-- An operator with its operands is no constant. -/
theorem Operator.predicate_ne_never {op : Operator} {property : PropertyField}
    {lhs : Expression} {rhs : Option Expression} {p : Predicate}
    (h : op.predicate property lhs rhs = .ok p) : p ≠ .never := by
  have hcondition {op' : Operator} {p' : Predicate}
      (h : op'.condition? lhs rhs = Option.some p') : p' ≠ .never ∧ p'.not ≠ .never := by
    unfold Operator.condition? at h
    split at h
    · cases h
      exact ⟨nofun, nofun⟩
    · obtain ⟨c, -, rfl⟩ := Option.map_eq_some_iff.mp h
      cases c <;> exact ⟨nofun, nofun⟩
  unfold Operator.predicate at h
  dsimp only at h
  split at h
  · cases h
  · split at h
    · cases h
    · next p' hp' =>
      cases h
      obtain ⟨hplain, hnot⟩ := hcondition hp'
      split
      · exact hnot
      · exact hplain

namespace Outcome

variable {catalog : Catalog} {vars parameters : Dict Json} {t : EntityType} {entity : String}

/-- A comparison by the plain name of a field may hold. -/
theorem Plain.ne_never {name : String} {x : Value} {p : Predicate}
    (h : Plain vars parameters t entity name x p) : p ≠ .never := by
  cases h with
  | oneOf => exact nofun
  | comparison _ h =>
    obtain ⟨_, _, _, hp⟩ := h
    exact Operator.predicate_ne_never hp

/-- Of all arguments only a filter may come to `false`. -/
theorem GathersAll.never {g g' : ScopeArguments.Gathered} {arguments : List (String × Value)}
    (h : GathersAll catalog vars parameters t entity g arguments g') (hnever : .never ∈ g'.2) :
    .never ∈ g.2 ∨ ∃ x j, ("filter", x) ∈ arguments ∧ x.StandsFor vars j
      ∧ j.filterPredicate catalog t entity = .ok .never := by
  induction h with
  | nil => exact .inl hnever
  | @cons g g' g'' argument rest hfirst _ ih =>
    rcases ih hnever with hnever | ⟨x, j, hmem, hj, hp⟩
    · cases hfirst with
      | first | offset | orderBy => exact .inl hnever
      | filter hj hp =>
        rcases List.mem_append.mp hnever with hnever | hnever
        · exact .inl hnever
        · rw [List.mem_singleton] at hnever
          subst hnever
          exact .inr ⟨_, _, List.mem_cons_self, hj, hp⟩
      | plain _ hp =>
        rcases List.mem_append.mp hnever with hnever | hnever
        · exact .inl hnever
        · exact absurd (List.mem_singleton.mp hnever).symm hp.ne_never
    · exact .inr ⟨x, j, List.mem_cons_of_mem _ hmem, hj, hp⟩

end Outcome

namespace ArgumentScope

/-- The filter of the scope is one that nothing satisfies. -/
def Excludes (catalog : Catalog) (vars : Dict Json) (s : ArgumentScope) : Prop :=
  ∃ x j, ("filter", x) ∈ s.arguments ∧ x.StandsFor vars j
    ∧ j.filterPredicate catalog s.type s.entity = .ok .never

/-- What is dropped, a filter that nothing satisfies has taken with it. -/
theorem excludes_of_drops {catalog : Catalog} {s : ArgumentScope} {p : Parameters}
    {name : String} (h : s.Drops catalog p name) : s.Excludes catalog p.vars := by
  obtain ⟨a, conditions, q, hrun, hnever, -⟩ := h
  have hyields := ScopeArguments.yields_foldlM catalog s.type s.entity _ _ rfl hrun
  have hgathers := hyields.2.2 (.refl q.bound)
  rcases hgathers.never hnever with hnever | ⟨x, j, hmem, hj, hp⟩
  · cases hnever
  · exact ⟨x, j, List.mem_of_mem_filter hmem, hj, hp⟩

end ArgumentScope

-- ================================================================== result

namespace Compiler

variable {c : Compiler} {f : RootField} {vars : Dict Json}

/-- **What is supplied.** The keys of the parameters are those that the statement
refers to, and besides just those that were bound for a condition in a scope where
another one is `false`, which only a filter can be. So nothing is supplied in vain
exactly if all of these are referred to in some other place; in particular if no
field has a filter that nothing satisfies. -/
theorem parameters_referred_iff {purpose : Purpose} {compiled : Compiled}
    (h : c.Translates f vars purpose compiled) :
    ∃ s, compiled.body = .clauses s
      ∧ (∀ name, name ∈ compiled.parameters.keys ↔ name ∈ s.parameters
        ∨ ∃ scope p, c.Reaches f vars purpose scope p ∧ scope.Drops c.catalog p name)
      ∧ ((∀ name ∈ compiled.parameters.keys, name ∈ s.parameters)
        ↔ ∀ scope p name, c.Reaches f vars purpose scope p → scope.Drops c.catalog p name →
          name ∈ s.parameters)
      ∧ ((∀ scope p, c.Reaches f vars purpose scope p → ¬ scope.Excludes c.catalog p.vars) →
        ∀ name ∈ compiled.parameters.keys, name ∈ s.parameters) := by
  obtain ⟨clauses, p, isList, hrun, rfl⟩ := run_of_translates h
  let s : Statement := ⟨f.head.planReport?, clauses⟩
  have hkeys (name : String) : name ∈ p.bound.keys ↔ name ∈ s.parameters
      ∨ ∃ scope q, c.Reaches f vars purpose scope q ∧ scope.Drops c.catalog q name := by
    rw [keys_purposeClauses hrun, Statement.mem_parameters]
  refine ⟨s, rfl, hkeys, ?_, fun hnone name hname => ?_⟩
  · constructor
    · intro hreferred scope q name hreaches hdrops
      exact hreferred name ((hkeys name).mpr (.inr ⟨scope, q, hreaches, hdrops⟩))
    · intro hdropped name hname
      rcases (hkeys name).mp hname with hname | ⟨scope, q, hreaches, hdrops⟩
      · exact hname
      · exact hdropped scope q name hreaches hdrops
  · rcases (hkeys name).mp hname with hname | ⟨scope, q, hreaches, hdrops⟩
    · exact hname
    · exact absurd (ArgumentScope.excludes_of_drops hdrops) (hnone scope q hreaches)

end Compiler

-- ============================================================= an instance

/-- People of a name, of whom a filter wants none. -/
def RootField.nobody : RootField where
  head := ⟨"Person", none, [("name", .var "name"), ("filter", .object [("OR", .list [])])], []⟩
  selections := [.field (.plain "name") []]

/-- A value for the name. -/
def RootField.nobodyVars : Dict Json := [("name", .str "Keanu")]

namespace Compiler

/-- The clauses for nobody: the name is compared nowhere. -/
theorem compiled_nobody (dialect : Dialect) :
    ∃ compiled s, (Compiler.movies dialect).Translates .nobody RootField.nobodyVars
        (.select .person) compiled
      ∧ compiled.body = .clauses s ∧ compiled.parameters = RootField.nobodyVars
      ∧ s.parameters = [] := by
  have hroot : rootVariable EntityType.person.name RootField.nobody.head.responseKey
      = "person" := by decide
  have hpurpose : (Compiler.movies dialect).purpose? false .nobody = some (.select .person) := rfl
  refine ⟨_, _, .compile hpurpose (scopeQuery_eq_of_runs true hroot rfl
    (run_planFields_value rfl (run_planFields_nil _ _))), rfl, rfl, ?_⟩
  cases dialect with
  | staged => decide
  | comprehension => decide

/-- The name is supplied, as it was bound in a scope that drops it. -/
theorem parameters_referred_iff_nobody :
    ∃ compiled scope p, (Compiler.movies .comprehension).Translates .nobody RootField.nobodyVars
        (.select .person) compiled
      ∧ compiled.parameters.keys = ["name"]
      ∧ (Compiler.movies .comprehension).Reaches .nobody RootField.nobodyVars (.select .person)
        scope p
      ∧ scope.Drops (Compiler.movies .comprehension).catalog p "name" := by
  obtain ⟨compiled, s, h, hbody, hkeys, hnone⟩ := compiled_nobody .comprehension
  obtain ⟨s', hbody', hiff, -⟩ := parameters_referred_iff h
  rw [hbody] at hbody'
  cases hbody'
  have hname : "name" ∈ compiled.parameters.keys := by
    rw [hkeys]
    decide
  rcases (hiff "name").mp hname with hname | ⟨scope, p, hreaches, hdrops⟩
  · rw [hnone] at hname
    cases hname
  · exact ⟨compiled, scope, p, h, by rw [hkeys]; rfl, hreaches, hdrops⟩

/-- So not every value that is supplied is referred to. -/
theorem not_parameters_referred :
    ¬ ∀ (c : Compiler) (f : RootField) (vars : Dict Json) (purpose : Purpose)
        (compiled : Compiled) (s : Statement),
      c.Translates f vars purpose compiled → compiled.body = .clauses s →
        ∀ name ∈ compiled.parameters.keys, name ∈ s.parameters := by
  intro hreferred
  obtain ⟨compiled, s, h, hbody, hkeys, hnone⟩ := compiled_nobody .comprehension
  have hname : "name" ∈ compiled.parameters.keys := by
    rw [hkeys]
    decide
  have hmem := hreferred _ _ _ _ compiled s h hbody "name" hname
  rw [hnone] at hmem
  cases hmem

end Compiler

end PropertyGraphQL
