/-
No binder shadows a variable in statements made of comprehensions.

Patterns of comprehensions, list comprehensions and quantifiers bind names for
parts of an expression. A binding is such a name with the variables in scope
where it is bound (`Expression.bindings`). The names come from two sides: from
response keys, one field inside the other, and from the relationships that
filters go along. On both a name is made from that of the entity it hangs
on, so it is longer. The invariant is that no variable in scope is longer
than that of the entity an expression is about (`NoLonger`); what is bound
next is then none of them.
-/
import PropertyGraphQL.Proofs.Scope.Statement

namespace PropertyGraphQL

open Cypher

namespace Cypher

-- =============================================================== bindings

/-- A name that is bound for a part of a statement, and the variables in scope
where it is bound. -/
structure Binding where
  name : String
  scope : List String
deriving DecidableEq, Repr

mutual

/-- The bindings inside an expression, given the variables in scope. -/
@[simp] def Expression.bindings (scope : List String) : Expression → List Binding
  | .literal _ => []
  | .parameter _ => []
  | .var _ => []
  | .property _ _ => []
  | .call _ args => Expression.allBindings scope args
  | .map entries => Expression.entriesBindings scope entries
  | .projection _ items => MapItem.allBindings scope items
  | .list elems => Expression.allBindings scope elems
  | .patternComprehension pattern condition result =>
      pattern.introduced.map (⟨·, scope⟩) ++ Pattern.bindings scope pattern
        ++ Predicate.bindings (scope ++ pattern.introduced) condition
        ++ Expression.bindings (scope ++ pattern.introduced) result
  | .listComprehension binder source condition result =>
      ⟨binder, scope⟩ :: Expression.bindings scope source
        ++ Predicate.bindings (scope ++ [binder]) condition
        ++ Expression.resultBindings (scope ++ [binder]) result
  | .slice source _ _ => Expression.bindings scope source
  | .conditional condition yes no =>
      Predicate.bindings scope condition ++ Expression.bindings scope yes
        ++ Expression.bindings scope no
  | .countAll => []

@[simp] def Expression.resultBindings (scope : List String) : Option Expression → List Binding
  | none => []
  | some e => Expression.bindings scope e

@[simp] def Expression.allBindings (scope : List String) : List Expression → List Binding
  | [] => []
  | e :: rest => Expression.bindings scope e ++ Expression.allBindings scope rest

@[simp] def Expression.entriesBindings (scope : List String) :
    List (String × Expression) → List Binding
  | [] => []
  | (_, e) :: rest => Expression.bindings scope e ++ Expression.entriesBindings scope rest

@[simp] def MapItem.bindings (scope : List String) : MapItem → List Binding
  | .property _ => []
  | .entry _ value => Expression.bindings scope value

@[simp] def MapItem.allBindings (scope : List String) : List MapItem → List Binding
  | [] => []
  | item :: rest => MapItem.bindings scope item ++ MapItem.allBindings scope rest

@[simp] def NodePattern.bindings (scope : List String) : NodePattern → List Binding
  | ⟨_, _, properties⟩ => Expression.entriesBindings scope properties

@[simp] def NodePattern.hopsBindings (scope : List String) :
    List (RelationshipPattern × NodePattern) → List Binding
  | [] => []
  | (_, node) :: rest => NodePattern.bindings scope node ++ NodePattern.hopsBindings scope rest

/-- The bindings inside the properties that a pattern asks of its nodes. -/
@[simp] def Pattern.bindings (scope : List String) : Pattern → List Binding
  | ⟨start, hops⟩ => NodePattern.bindings scope start ++ NodePattern.hopsBindings scope hops

/-- The bindings inside a predicate, given the variables in scope. -/
@[simp] def Predicate.bindings (scope : List String) : Predicate → List Binding
  | .always => []
  | .never => []
  | .compare _ lhs rhs => Expression.bindings scope lhs ++ Expression.bindings scope rhs
  | .isNull subject => Expression.bindings scope subject
  | .isNotNull subject => Expression.bindings scope subject
  | .quantified _ binder source condition =>
      ⟨binder, scope⟩ :: Expression.bindings scope source
        ++ Predicate.bindings (scope ++ [binder]) condition
  | .conj lhs rhs => Predicate.bindings scope lhs ++ Predicate.bindings scope rhs
  | .disj lhs rhs => Predicate.bindings scope lhs ++ Predicate.bindings scope rhs
  | .neg inner => Predicate.bindings scope inner

end

/-- The bindings inside what rows are sorted by. -/
def OrderBy.bindings (scope : List String) (orderBy : Option OrderBy) : List Binding :=
  (orderBy.getD []).flatMap fun key => key.1.bindings scope

/-- The bindings inside a change made to an entity. -/
def SetItem.bindings (scope : List String) : SetItem → List Binding
  | .replace _ value => value.bindings scope
  | .merge _ value => value.bindings scope
  | .labels _ _ => []

namespace Clause

/-- The bindings inside a clause, given the variables in scope before it. What
the clause itself introduces is in scope behind it and bound nowhere. -/
def bindings (scope : List String) : Clause → List Binding
  | .matching pattern _ condition =>
      pattern.bindings scope ++ condition.bindings (scope ++ pattern.introduced)
  | .withItems items orderBy =>
      (items.flatMap fun item => item.expression.bindings scope)
        ++ OrderBy.bindings (items.filterMap ReturnItem.name?) orderBy
  | .unwind source _ => source.bindings scope
  | .create pattern => pattern.bindings scope
  | .merge pattern => pattern.bindings scope
  | .set items => items.flatMap (SetItem.bindings scope)
  | .delete _ _ => []
  | .returnItems items orderBy _ _ =>
      (items.flatMap fun item => item.expression.bindings scope) ++ OrderBy.bindings scope orderBy

/-- The bindings inside a list of clauses, each with the variables that are in
scope behind those before it. -/
def allBindings (scope : List String) : List Clause → List Binding
  | [] => []
  | clause :: rest => clause.bindings scope ++ allBindings (clause.scopeAfter scope) rest

end Clause

-- ================================================================== fresh

/-- No name of a list of bindings is in scope where it is bound. -/
def Fresh (bindings : List Binding) : Prop :=
  ∀ b ∈ bindings, b.name ∉ b.scope

namespace Fresh

variable {first second : List Binding}

theorem nil : Fresh [] := List.forall_mem_nil _

theorem cons {b : Binding} (h : b.name ∉ b.scope) (hrest : Fresh first) : Fresh (b :: first) :=
  List.forall_mem_cons.mpr ⟨h, hrest⟩

theorem append (h : Fresh first) (h' : Fresh second) : Fresh (first ++ second) :=
  List.forall_mem_append.mpr ⟨h, h'⟩

theorem of_eq_nil {bindings : List Binding} (h : bindings = []) : Fresh bindings := by
  rw [h]
  exact .nil

end Fresh

-- ================================================================ lengths

/-- No variable in scope is longer than that of an entity. -/
def NoLonger (scope : List String) (entity : String) : Prop :=
  ∀ name ∈ scope, name.length ≤ entity.length

section

variable {scope : List String} {entity name : String}

theorem noLonger_self (entity : String) : NoLonger [entity] entity := by
  intro name hname
  have hsame : name = entity := List.mem_singleton.mp hname
  exact Nat.le_of_eq (congrArg String.length hsame)

/-- What is named below an entity has a longer name than the entity. -/
theorem NamedBelow.length_lt (h : NamedBelow entity name) : entity.length < name.length := by
  obtain ⟨key, rfl⟩ := h
  rw [String.length_append, String.length_append]
  have hone : "_".length = 1 := rfl
  omega

/-- What is named after the entity is not in scope. -/
theorem NoLonger.not_mem (h : NoLonger scope entity) (hbelow : NamedBelow entity name) :
    name ∉ scope := by
  intro hmem
  have hlonger := hbelow.length_lt
  have hnoLonger := h name hmem
  omega

/-- It may be the next entity: nothing in scope is longer, itself included. -/
theorem NoLonger.below (h : NoLonger scope entity) (hbelow : NamedBelow entity name) :
    NoLonger (scope ++ [name]) name := by
  refine List.forall_mem_append.mpr ⟨fun other hother => ?_, noLonger_self name⟩
  have hlonger := hbelow.length_lt
  have hnoLonger := h other hother
  omega

end

-- ================================================================= leaves

namespace Expression

variable {parameters : Dict Json} {scope : List String} {entity : String} {e : Expression}

/-- A list of expressions that bind nothing binds nothing. -/
theorem allBindings_eq_nil {es : List Expression} (h : ∀ e ∈ es, e.bindings scope = []) :
    Expression.allBindings scope es = [] := by
  induction es with
  | nil => rfl
  | cons e rest ih =>
    obtain ⟨he, hrest⟩ := List.forall_mem_cons.mp h
    rw [Expression.allBindings, he, ih hrest]
    rfl

/-- A map of expressions that bind nothing binds nothing. -/
theorem entriesBindings_eq_nil {entries : List (String × Expression)}
    (h : ∀ entry ∈ entries, entry.2.bindings scope = []) :
    Expression.entriesBindings scope entries = [] := by
  induction entries with
  | nil => rfl
  | cons entry rest ih =>
    obtain ⟨he, hrest⟩ := List.forall_mem_cons.mp h
    rw [Expression.entriesBindings, he, ih hrest]
    rfl

/-- An expression without variables binds nothing. -/
theorem Ground.bindings_eq_nil (h : e.Ground parameters) : e.bindings scope = [] := by
  induction h with
  | literal | parameter => simp [Expression.bindings]
  | list _ ih =>
    rw [Expression.bindings]
    exact allBindings_eq_nil ih
  | map _ ih =>
    rw [Expression.bindings]
    exact entriesBindings_eq_nil ih

/-- What is read from an entity binds nothing. -/
theorem Reading.bindings_eq_nil (h : e.Reading parameters entity) : e.bindings scope = [] := by
  induction h with
  | ground h => exact h.bindings_eq_nil
  | var | property => simp [Expression.bindings]
  | call _ ih =>
    rw [Expression.bindings]
    exact allBindings_eq_nil ih
  | map _ ih =>
    rw [Expression.bindings]
    exact entriesBindings_eq_nil ih

/-- A slice binds what the list binds. -/
theorem bindings_sliced (e : Expression) (lower upper : Option Int) :
    (e.sliced lower upper).bindings scope = e.bindings scope := by
  unfold sliced
  split
  · rfl
  · rw [Expression.bindings]

end Expression

end Cypher

-- ============================================================= conditions

variable {parameters : Dict Json} {entity : String} {scope : List String}

/-- All that a pattern of a shape binds is its target. -/
theorem RelationshipShape.bindings_comprehension (shape : RelationshipShape)
    (source target label : String) (condition : Predicate) (result : Expression) :
    (Expression.patternComprehension (shape.pattern source target label) condition
        result).bindings scope
      = ⟨target, scope⟩ :: (condition.bindings (scope ++ [target])
          ++ result.bindings (scope ++ [target])) := by
  rw [Expression.bindings]
  rfl

/-- Filters bind names that are not in scope, at every depth. -/
theorem Cypher.Predicate.Filtering.fresh_bindings {p : Predicate}
    (h : p.Filtering (Expression.Ground parameters) entity) (hscope : NoLonger scope entity) :
    Fresh (p.bindings scope) := by
  induction h generalizing scope with
  | always | never => exact .nil
  | compare compared =>
    rw [Predicate.bindings, compared.bindings_eq_nil, Expression.bindings]
    exact .nil
  | isNull | isNotNull =>
    rw [Predicate.bindings, Expression.bindings]
    exact .nil
  | @quantified entity name label _ shape p _ ih =>
    have hbelow := NamedBelow.intro entity name
    have hitem := hscope.not_mem hbelow
    -- the related entities are listed outside of the quantifier, under the same name
    have hsource : Fresh ((shape.related entity (entity ++ "_" ++ name) label).bindings scope) := by
      rw [RelationshipShape.related, shape.bindings_comprehension]
      refine .cons hitem (.of_eq_nil ?_)
      rw [Predicate.bindings, Expression.bindings]
      rfl
    rw [Predicate.bindings]
    exact (Fresh.cons hitem hsource).append (ih (hscope.below hbelow))
  | conj _ _ ihp ihq | disj _ _ ihp ihq =>
    rw [Predicate.bindings]
    exact (ihp hscope).append (ihq hscope)
  | neg _ ih =>
    rw [Predicate.bindings]
    exact ih hscope

-- ============================================================= traversals

namespace Traversal.Formed

variable {t : Traversal} (h : t.Formed parameters entity) (hscope : NoLonger scope entity)

include h hscope

theorem fresh_condition : Fresh (t.arguments.condition.bindings (scope ++ [t.entity])) :=
  h.condition.fresh_bindings (hscope.below h.named)

/-- The comprehension that matches the related nodes binds fresh names. -/
theorem fresh_matching : Fresh (t.matching.bindings scope) := by
  have hentity := hscope.not_mem h.named
  unfold matching
  split
  · rw [Traversal.pattern, t.shape.bindings_comprehension, Expression.bindings]
    exact .cons hentity ((h.fresh_condition hscope).append .nil)
  · next source hsource =>
    have hnil : source.bindings scope = [] := (h.source source hsource).bindings_eq_nil
    split
    · exact .of_eq_nil hnil
    · rw [Expression.bindings, hnil, Expression.resultBindings]
      exact ((Fresh.cons hentity .nil).append (h.fresh_condition hscope)).append .nil

/-- A traversal binds fresh names if what it projects does with the related node in scope. -/
theorem fresh_projected {projection : Expression}
    (hprojection : Fresh (projection.bindings (scope ++ [t.entity]))) :
    Fresh ((t.projected projection).bindings scope) := by
  have hentity := hscope.not_mem h.named
  unfold projected
  split
  · rw [Traversal.pattern, t.shape.bindings_comprehension]
    exact .cons hentity ((h.fresh_condition hscope).append hprojection)
  · next source hsource =>
    rw [Expression.bindings, (h.source source hsource).bindings_eq_nil, Expression.resultBindings]
    exact ((Fresh.cons hentity .nil).append (h.fresh_condition hscope)).append hprojection

/-- The comprehension of a traversal binds names that are not in scope. -/
theorem fresh_related (sortFunction : String) {projection : Expression}
    (hprojection : Fresh (projection.bindings (scope ++ [t.entity]))) :
    Fresh ((t.related sortFunction projection).bindings scope) := by
  unfold related
  dsimp only
  split
  · rw [Expression.bindings_sliced]
    exact h.fresh_projected hscope hprojection
  · -- what is sorted is found outside of the list comprehension, under the same name
    have hsource {keys : List Expression} (hkeys : Expression.allBindings scope keys = []) :
        Fresh ((Expression.call sortFunction [t.matching, .list keys]).bindings scope) := by
      rw [Expression.bindings, Expression.allBindings, Expression.allBindings,
        Expression.allBindings, Expression.bindings, hkeys]
      exact (h.fresh_matching hscope).append .nil
    rw [Expression.bindings, Expression.bindings_sliced, Predicate.bindings,
      Expression.resultBindings]
    refine ((Fresh.cons (hscope.not_mem h.named) (hsource ?_)).append .nil).append hprojection
    refine Expression.allBindings_eq_nil fun key hkey => ?_
    obtain ⟨⟨property, order⟩, -, rfl⟩ := List.mem_map.mp hkey
    cases order with
    | ascending | descending => simp [sortKey, Expression.bindings]

end Traversal.Formed

/-- The first element of a list binds what the list binds. -/
theorem Traversal.bindings_single (t : Traversal) (list : Expression) :
    (t.single list).bindings scope = list.bindings scope := by
  unfold single
  split
  · rfl
  · rw [Expression.head, Expression.bindings, Expression.allBindings, Expression.allBindings,
      List.append_nil]

/-- An item of a projection binds what its expression binds. -/
theorem bindings_projectionItem (entity key : String) (e : Expression) :
    (projectionItem entity key e).bindings scope = e.bindings scope := by
  unfold projectionItem
  split
  · split
    · simp [MapItem.bindings, Expression.bindings]
    · rw [MapItem.bindings]
  · rw [MapItem.bindings]

-- ================================================================== plans

/-- The projection of an entity binds names that are not in scope, as long as
nothing in scope is longer than the variable of the entity. -/
theorem Plan.Formed.fresh_projectionItems {entries : List (String × Plan)}
    (h : Plan.Formed parameters entity entries) (sortFunction : String)
    (hscope : NoLonger scope entity) :
    Fresh (MapItem.allBindings scope (Plan.projectionItems sortFunction entity entries)) := by
  induction h generalizing scope with
  | nil =>
    rw [projectionItems]
    exact .nil
  | value h _ ih =>
    rw [projectionItems, expression, MapItem.allBindings, bindings_projectionItem,
      h.bindings_eq_nil]
    exact ih hscope
  | @traversal _ _ t below _ h _ _ ihbelow ihrest =>
    have hprojection : Fresh ((Expression.projection t.entity
        (projectionItems sortFunction t.entity below)).bindings (scope ++ [t.entity])) := by
      rw [Expression.bindings]
      exact ihbelow (hscope.below h.named)
    rw [projectionItems, expression, MapItem.allBindings, bindings_projectionItem,
      t.bindings_single]
    exact (h.fresh_related hscope sortFunction hprojection).append (ihrest hscope)

-- ================================================================ clauses

variable {c : Compiler} {vars : Dict Json} {f : RootField}

/-- In the dialect of comprehensions a projection is one expression, with no clause behind it. -/
theorem Compiler.projected_comprehension (hc : c.options.dialect = .comprehension)
    (entity : String) (entries : List (String × Plan)) :
    c.projected entity entries
      = (.projection entity (Plan.projectionItems c.options.sortFunction entity entries), []) := by
  unfold projected
  rw [hc]

/-- Returning one column binds what the column binds. -/
theorem Cypher.Clause.bindings_returning (e : Expression) (key : String)
    (skip limit : Option Int) :
    Clause.bindings scope (.returnItems [.aliased e key] none skip limit) = e.bindings scope := by
  show (e.bindings scope ++ []) ++ [] = _
  rw [List.append_nil, List.append_nil]

/-- Returning the number of rows binds nothing. -/
theorem FieldHead.bindings_countClause (head : FieldHead) (scope : List String) :
    Clause.allBindings scope [head.countClause] = [] := by
  rw [Clause.allBindings, countClause, Clause.bindings_returning, Expression.bindings]
  rfl

/-- Ordering by properties binds nothing. -/
theorem ScopeArguments.bindings_orderByClause (a : ScopeArguments) (entity : String) :
    OrderBy.bindings scope (a.orderByClause entity) = [] := by
  unfold OrderBy.bindings
  cases horder : a.orderByClause entity with
  | none => rfl
  | some keys =>
    refine List.flatMap_eq_nil_iff.mpr fun key hkey => ?_
    obtain ⟨property, hproperty⟩ := eq_property_of_mem horder hkey
    rw [hproperty, Expression.bindings]

namespace Outcome

/-- To match a node by its identity binds nothing. -/
theorem Identified.bindings_matching {head : FieldHead} {t : EntityType} {id : PropertyField}
    {node : NodePattern} (h : Identified vars parameters head t id entity node) :
    Clause.bindings scope (.matching (.node node) false .always) = [] := by
  obtain ⟨-, -, he⟩ := h
  show ((Expression.bindings scope _ ++ []) ++ []) ++ [] = []
  rw [he.ground.bindings_eq_nil]
  rfl

/-- What is returned behind a change binds names that are not in scope. -/
theorem Returning.fresh {t : EntityType} {clauses : List Clause}
    (hc : c.options.dialect = .comprehension)
    (h : Returning c vars parameters f t entity clauses) :
    Fresh (Clause.allBindings [entity] clauses) := by
  cases h with
  | count => exact .of_eq_nil (f.head.bindings_countClause _)
  | selected _ hentries =>
    rw [c.projected_comprehension hc]
    show Fresh (Clause.bindings [entity] (.returnItems [.aliased _ _] none none none) ++ [])
    rw [Clause.bindings_returning, Expression.bindings, List.append_nil]
    exact hentries.formed.fresh_projectionItems _ (noLonger_self entity)

/-- Two nodes are related, or no longer, without any binding. -/
theorem Relating.bindings_eq_nil {t : EntityType} {r : RelationshipField} {connect : Bool}
    {clauses : List Clause} (h : Relating c vars parameters f t r connect clauses) :
    Clause.allBindings [] clauses = [] := by
  obtain @⟨_, _, _, source, _, _, ids, -, -, -, -, hsource, -, -, hids⟩ := h
  have hlisted (scope : List String) (property : String) :
      (Predicate.compare .member (.property "to" property) ids).bindings scope = [] := by
    rw [Predicate.bindings, Expression.bindings, hids.ground.bindings_eq_nil]
    rfl
  have hfirst (rest : List Clause) (hrest : ∀ scope, Clause.allBindings scope rest = []) :
      Clause.allBindings [] (.matching (.node source) false .always :: rest) = [] := by
    rw [Clause.allBindings, hsource.bindings_matching, hrest]
    rfl
  refine hfirst _ fun scope => ?_
  split
  · show (_ ++ Predicate.bindings _ _) ++ (_ ++ Clause.allBindings _ [f.head.countClause]) = []
    rw [hlisted, f.head.bindings_countClause]
    rfl
  · show (_ ++ Predicate.bindings _ _) ++ (_ ++ Clause.allBindings _ [f.head.countClause]) = []
    rw [hlisted, f.head.bindings_countClause]
    rfl

/-- Whatever a field is for, what its comprehensions and quantifiers bind is not
in scope. -/
theorem Clauses.fresh {purpose : Purpose} {clauses : List Clause}
    (hc : c.options.dialect = .comprehension)
    (h : Clauses c vars parameters f purpose clauses) :
    Fresh (Clause.allBindings [] clauses) := by
  cases h with
  | @select t a entries ha hentries =>
    -- all below the root is one expression, and the root the only name before it
    rw [c.projected_comprehension hc]
    generalize rootVariable t.name f.head.responseKey = entity at *
    have hself := noLonger_self entity
    show Fresh (a.condition.bindings [entity] ++ (Clause.bindings [entity] _ ++ []))
    rw [Clause.bindings, a.bindings_orderByClause, List.append_nil, List.append_nil,
      List.flatMap_singleton, ReturnItem.aliased, Expression.bindings]
    exact (ha.filtering.fresh_bindings hself).append
      (hentries.formed.fresh_projectionItems _ hself)
  | create _ hproperties hreturning =>
    show Fresh ((Expression.bindings _ _ ++ []) ++ _)
    rw [hproperties.ground.bindings_eq_nil]
    exact hreturning.fresh hc
  | update _ hnode _ hproperties hreturning =>
    -- the node that is changed binds its own name by a pattern, which is no binding of an
    -- expression
    rw [Clause.allBindings, hnode.bindings_matching, Clause.scopeAfter, hnode.introduced]
    show Fresh ((Expression.bindings _ _ ++ []) ++ _)
    rw [hproperties.ground.bindings_eq_nil]
    exact hreturning.fresh hc
  | delete _ _ hnode =>
    rw [Clause.allBindings, hnode.bindings_matching, Clause.allBindings,
      f.head.bindings_countClause]
    exact .nil
  | connect h | disconnect h => exact .of_eq_nil h.bindings_eq_nil

end Outcome

-- ============================================================== statements

/-- A field whose statement is given by the schema has no clauses. -/
theorem Compiler.body_ne_of_declaredOperation {head : FieldHead} {operation : RootOperation}
    {custom : CustomStatement} {compiled : Compiled}
    (h : declaredOperation head operation custom vars = .ok compiled) (s : Statement) :
    compiled.body ≠ .clauses s := by
  unfold declaredOperation at h
  obtain ⟨⟨_, p⟩, -, h⟩ := bind_eq_ok_iff.mp h
  cases h
  exact fun hbody => by cases hbody

/-- A field of an operation that is compiled to clauses is so for a purpose. -/
theorem Compiler.translates_of_compile {isMutation : Bool} {compiled : Compiled} {s : Statement}
    (h : c.compile isMutation f vars = .ok compiled) (hbody : compiled.body = .clauses s) :
    ∃ purpose, c.Translates f vars purpose compiled := by
  obtain ⟨head, ss⟩ := f
  rcases c.compile_cases isMutation head with
    ⟨purpose, _, hcases⟩ | ⟨_, _, hcases⟩ | ⟨_, hcases⟩
  · exact ⟨purpose, .compile (hcases ss).1 h⟩
  · rw [(hcases ss).2] at h
    exact absurd hbody (body_ne_of_declaredOperation h s)
  · rw [(hcases ss).2] at h
    cases h

/-- In a statement of comprehensions no name that a pattern, a list
comprehension or a quantifier binds is in scope where it is bound: not the
variable of the field, and none of the binders around it. -/
theorem Compiler.binders_not_in_scope {compiled : Compiled} {s : Statement}
    (hc : c.options.dialect = .comprehension)
    (h : (∃ isMutation, c.compile isMutation f vars = .ok compiled)
      ∨ ∃ t, c.queryOn f t vars = .ok compiled)
    (hbody : compiled.body = .clauses s) :
    ∀ b ∈ Clause.allBindings [] s.clauses, b.name ∉ b.scope := by
  obtain ⟨purpose, htranslates⟩ : ∃ purpose, c.Translates f vars purpose compiled := by
    rcases h with ⟨isMutation, h⟩ | ⟨t, h⟩
    · exact translates_of_compile h hbody
    · exact ⟨.select t, .queryOn h⟩
  obtain ⟨clauses, hclausesBody, hclauses⟩ := clauses_of_translates htranslates
  rw [hclausesBody] at hbody
  cases hbody
  exact hclauses.fresh hc

/-- People with their movies in an order, and who else acts in those. -/
theorem Compiler.binders_people :
    ∃ compiled s, (Compiler.movies .comprehension).queryOn .people .person RootField.peopleVars
        = .ok compiled
      ∧ compiled.body = .clauses s
      ∧ ∀ b ∈ Clause.allBindings [] s.clauses, b.name ∉ b.scope := by
  have hroot : rootVariable EntityType.person.name RootField.people.head.responseKey
      = "person" := by decide
  obtain ⟨compiled, hcompiled⟩ : ∃ compiled,
      (Compiler.movies .comprehension).queryOn .people .person RootField.peopleVars
        = .ok compiled :=
    ⟨_, scopeQuery_eq_of_runs true hroot rfl
      (run_planFields_value rfl
        (run_planFields_traversal rfl
          (run_planFields_value rfl
            (run_planFields_traversal rfl
              (run_planFields_value rfl (run_planFields_nil _ _))
              (run_planFields_nil _ _)))
          (run_planFields_nil _ _)))⟩
  obtain ⟨clauses, hbody, -⟩ := clauses_of_translates (.queryOn hcompiled)
  exact ⟨compiled, _, hcompiled, hbody, binders_not_in_scope rfl (.inr ⟨_, hcompiled⟩) hbody⟩

end PropertyGraphQL
