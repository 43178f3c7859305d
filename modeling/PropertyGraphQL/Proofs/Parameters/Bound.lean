/-
The names that a step of compiling binds.

Unlike what a step yields, which holds under all later parameters, this is
an equation: behind the step just those names are bound that were bound in
front of it and those that its result refers to (`Binds`). The names gathered
so far are carried along, so that the result of one step may go into that of
the next. Up to the condition of a scope nothing is lost; what its conditions
together leave out is for the scope to say (`keys_ofArguments`).
-/
import PropertyGraphQL.Proofs.Outcome.Plan
import PropertyGraphQL.Proofs.Parameters.Referenced

namespace PropertyGraphQL

open Cypher

namespace Compiling

variable {α β : Type}

/-- If the names in `before` are bound in front of the step, those in `after`
are bound behind it, and besides what was bound anyway. -/
def Binds (before : List String) (step : Compiling α) (after : α → List String) : Prop :=
  ∀ ⦃start : String → Prop⦄ ⦃p q : Parameters⦄ ⦃a : α⦄, step.run p = .ok (a, q) →
    (∀ name, name ∈ p.bound.keys ↔ start name ∨ name ∈ before) →
    ∀ name, name ∈ q.bound.keys ↔ start name ∨ name ∈ after a

namespace Binds

variable {before : List String}

/-- To give something binds nothing. -/
theorem pure {a : α} {after : α → List String} (h : ∀ name, name ∈ before ↔ name ∈ after a) :
    Binds before (Pure.pure a) after := by
  intro start p q b hstep hbefore name
  cases hstep
  rw [hbefore, h]

/-- A step that fails binds whatever one likes. -/
theorem throw {e : CompileError} {after : α → List String} :
    Binds before (throw e) after := by
  intro start p q b hstep
  cases hstep

/-- A step that can fail and binds nothing. -/
theorem lift {x : Except CompileError α} {after : α → List String}
    (h : ∀ a, x = .ok a → ∀ name, name ∈ before ↔ name ∈ after a) :
    Binds before (liftM x) after := by
  intro start p q a hstep hbefore name
  cases x with
  | error e => cases hstep
  | ok b =>
    cases hstep
    rw [hbefore, h a rfl]

/-- What the first step binds is bound in front of the second one. -/
theorem bind {step : Compiling α} {next : α → Compiling β} {between : α → List String}
    {after : β → List String} (h : Binds before step between)
    (hnext : ∀ a, Binds (between a) (next a) after) : Binds before (step >>= next) after := by
  intro start p r b hrun hbefore
  obtain ⟨⟨a, q⟩, hstep, hrest⟩ := bind_eq_ok_iff.mp hrun
  exact hnext a hrest (h hstep hbefore)

/-- What becomes of a result binds nothing. -/
theorem map {step : Compiling α} {f : α → β} {between : α → List String}
    {after : β → List String} (h : Binds before step between)
    (hf : ∀ a name, name ∈ between a ↔ name ∈ after (f a)) : Binds before (f <$> step) after := by
  rw [← bind_pure_comp]
  exact h.bind fun a => .pure (hf a)

/-- The names bound may be said in other words. -/
theorem mono {step : Compiling α} {after after' : α → List String} (h : Binds before step after)
    (heq : ∀ a name, name ∈ after a ↔ name ∈ after' a) : Binds before step after' := by
  intro start p q a hstep hbefore name
  rw [h hstep hbefore, heq]

/-- Steps taken for each element add up. -/
theorem mapM {f : α → Compiling β} {as : List α} (names : β → List String)
    (h : ∀ a ∈ as, ∀ before, Binds before (f a) fun b => before ++ names b) :
    Binds before (as.mapM f) fun bs => before ++ bs.flatMap names := by
  induction as generalizing before with
  | nil =>
    rw [List.mapM_nil]
    exact .pure fun name => by simp
  | cons a rest ih =>
    rw [List.mapM_cons]
    refine (h a List.mem_cons_self before).bind fun b => ?_
    refine (ih fun a' ha' => h a' (List.mem_cons_of_mem a ha')).bind fun bs => .pure fun name => ?_
    simp

/-- The names bound behind a step that was run. -/
theorem keys {step : Compiling α} {names : α → List String}
    (h : Binds [] step names) {p q : Parameters} {a : α} (hrun : step.run p = .ok (a, q))
    (name : String) : name ∈ q.bound.keys ↔ name ∈ p.bound.keys ∨ name ∈ names a :=
  h hrun (fun _ => by simp) name

end Binds

variable {before : List String}

/-- A value is bound under the name that the expression refers to. -/
theorem binds_bind (before : List String) (name : String) (value : Json) :
    Binds before (Compiling.bind name value) fun e => before ++ e.references := by
  intro start p q e hstep hbefore other
  cases hstep
  show other ∈ (p.bound.insert _ value).keys ↔ _
  rw [Dict.mem_keys_insert, hbefore]
  simp only [List.mem_append, Expression.references_parameter, List.mem_singleton]
  tauto

/-- A step that looks at the parameters and binds nothing. -/
theorem binds_reading (before : List String) (f : Parameters → Except CompileError α) :
    Binds before (do f (← get)) fun _ => before := by
  intro start p q a hstep hbefore
  have hlift : (liftM (f p) : Compiling α).run p = .ok (a, q) := hstep
  exact Binds.lift (fun _ _ _ => Iff.rfl) hlift hbefore

theorem binds_resolve (before : List String) (x : Value) :
    Binds before (Compiling.resolve x) fun _ => before :=
  binds_reading before _

theorem binds_valueOf (before : List String) (name : String) :
    Binds before (Compiling.valueOf name) fun _ => before :=
  binds_reading before _

end Compiling

open Compiling

-- =================================================================== values

namespace Value

mutual

/-- Every variable in a value is bound for its expression. -/
theorem binds_expression (before : List String) (x : Value) :
    Binds before x.expression fun e => before ++ e.references := by
  cases x with
  | var name =>
    rw [expression]
    exact (binds_valueOf before name).bind fun j => binds_bind before name j
  | list elems =>
    rw [expression]
    split
    · refine (binds_elemExpressions before elems).map fun es name => ?_
      simp
    · exact .pure fun name => by simp
  | object entries =>
    rw [expression]
    split
    · refine (binds_entryExpressions before entries).map fun es name => ?_
      simp
    · exact .pure fun name => by simp
  | _ => exact .pure fun name => by simp

/-- The elements of a list bind the parameters that they refer to. -/
theorem binds_elemExpressions (before : List String) (elems : List Value) :
    Binds before (elemExpressions elems)
      fun es => before ++ es.flatMap Expression.references := by
  match elems with
  | [] =>
    rw [elemExpressions]
    exact .pure fun name => by simp
  | x :: rest =>
    rw [elemExpressions]
    refine (binds_expression before x).bind fun e => ?_
    refine (binds_elemExpressions _ rest).bind fun es => .pure fun name => ?_
    simp

/-- The entries of an object bind the parameters that they refer to. -/
theorem binds_entryExpressions (before : List String) (entries : List (String × Value)) :
    Binds before (entryExpressions entries) fun es => before ++ es.flatMap (·.2.references) := by
  match entries with
  | [] =>
    rw [entryExpressions]
    exact .pure fun name => by simp
  | (key, x) :: rest =>
    rw [entryExpressions]
    refine (binds_expression before x).bind fun e => ?_
    refine (binds_entryExpressions _ rest).bind fun es => .pure fun name => ?_
    simp

end

theorem binds_isNull (before : List String) (x : Value) :
    Binds before x.isNull fun _ => before := by
  cases x with
  | var name => exact (binds_valueOf before name).bind fun _ => .pure fun _ => Iff.rfl
  | _ => exact .pure fun _ => Iff.rfl

theorem binds_isList (before : List String) (x : Value) :
    Binds before x.isList fun _ => before := by
  cases x with
  | var name => exact (binds_valueOf before name).bind fun _ => .pure fun _ => Iff.rfl
  | _ => exact .pure fun _ => Iff.rfl

end Value

-- =============================================================== conditions

/-- The condition of an operator refers to what its operands do. -/
theorem Operator.references_predicate {op : Operator} {property : PropertyField}
    {entity key : String} {rhs : Option Expression} {p : Predicate}
    (h : op.predicate property (.property entity key) rhs = .ok p) :
    p.references = rhs.elim [] Expression.references := by
  have hcondition {op' : Operator} {p' : Predicate}
      (h : op'.condition? (.property entity key) rhs = Option.some p') :
      p'.references = rhs.elim [] Expression.references := by
    unfold Operator.condition? at h
    split at h
    · cases h
      rfl
    · obtain ⟨c, -, rfl⟩ := Option.map_eq_some_iff.mp h
      cases rhs <;> simp
  unfold Operator.predicate at h
  dsimp only at h
  split at h
  · cases h
  · split at h
    · cases h
    · next p' hp' =>
      cases h
      have hreferences := hcondition hp'
      split
      · rw [Predicate.references_not, hreferences]
      · exact hreferences

namespace EntityType

/-- A comparison binds the parameters that it refers to. -/
theorem binds_comparisonArgument (before : List String) (t : EntityType) (entity name : String)
    (x : Value) :
    Binds before (t.comparisonArgument entity name x) fun p => before ++ p.references := by
  unfold comparisonArgument
  generalize Operator.resolve t.properties.contains name = resolved
  obtain ⟨field, op⟩ := resolved
  dsimp only
  cases t.property? field with
  | none => exact .throw
  | some property =>
    refine (x.binds_isNull before).bind fun isNull => ?_
    have hrhs (step : Compiling (Option Expression))
        (h : Binds before step fun rhs => before ++ rhs.elim [] Expression.references) :
        Binds before (do
            let rhs ← step
            liftM (op.predicate property (.property entity field) rhs))
          fun p => before ++ p.references := by
      refine h.bind fun rhs => .lift fun p hp other => ?_
      rw [Operator.references_predicate hp]
    split
    · exact hrhs _ (.pure fun other => by simp)
    · exact hrhs _ ((x.binds_expression before).map fun e other => by simp)

/-- A comparison by the plain name of a field binds the parameters that it refers to. -/
theorem binds_plainArgument (before : List String) (t : EntityType) (entity name : String)
    (x : Value) :
    Binds before (t.plainArgument entity name x) fun p => before ++ p.references := by
  unfold plainArgument
  split
  · refine (x.binds_isList before).bind fun isList => ?_
    split
    · refine (x.binds_expression before).bind fun e => .pure fun other => ?_
      simp
    · exact t.binds_comparisonArgument before entity name x
  · exact t.binds_comparisonArgument before entity name x

end EntityType

/-- The pattern of a relationship refers to no parameter. -/
@[simp] theorem RelationshipShape.references_pattern (shape : RelationshipShape)
    (source target label : String) : (shape.pattern source target label).references = [] := by
  simp [RelationshipShape.pattern, Pattern.related, Pattern.node, NodePattern.named,
    NodePattern.labelled]

/-- The condition of a filter is about data, and refers to no parameter. -/
theorem Json.references_filterPredicate {catalog : Catalog} {filter : Json} {t : EntityType}
    {entity : String} {p : Predicate} (h : filter.filterPredicate catalog t entity = .ok p) :
    p.references = [] := by
  have hform : p.Filtering (fun e => e.references = []) entity :=
    Json.filtering_filterPredicate (fun _ => Expression.references_literal _) h
  clear h
  induction hform with
  | always | never => rfl
  | compare compared => simpa using compared
  | isNull | isNotNull => simp
  | quantified _ ih => simp [RelationshipShape.related, ih]
  | conj _ _ ihl ihr | disj _ _ ihl ihr => simp [ihl, ihr]
  | neg _ ih => simp [ih]

end PropertyGraphQL
