/-
Fresh clauses: what is introduced was not in scope before.

The walk is that of closed clauses. A matched pattern, a list that is
unwound and a computed column of `WITH` introduce their names; so do the
patterns and quantifiers inside an expression, for their own parts (the
binder of a list comprehension may be any name). One
column may take a name that is in scope: the one that collects the values
that this name has in all rows (`Expression.Collects`). What is read from
an entity introduces nothing, and a condition on it introduces the
variables of its quantifiers (`Filtering.freshIn_iff`).
-/
import Mathlib.Data.List.Nodup
import PropertyGraphQL.Proofs.Outcome.Form
import PropertyGraphQL.Proofs.Scope.Closed

namespace PropertyGraphQL

open Cypher

namespace Cypher

-- ============================================================ expressions

mutual

/-- Every pattern and every quantifier inside an expression introduces names
that are not in scope there. -/
def Expression.FreshIn (scope : List String) : Expression → Prop
  | .literal _ => True
  | .parameter _ => True
  | .var _ => True
  | .property _ _ => True
  | .call _ args => Expression.AllFreshIn scope args
  | .map entries => Expression.EntriesFreshIn scope entries
  | .projection _ items => MapItem.AllFreshIn scope items
  | .list elems => Expression.AllFreshIn scope elems
  | .patternComprehension pattern condition result =>
      Pattern.FreshIn scope pattern
        ∧ Predicate.FreshIn (scope ++ pattern.introduced) condition
        ∧ Expression.FreshIn (scope ++ pattern.introduced) result
  | .listComprehension binder source condition result =>
      Expression.FreshIn scope source ∧ Predicate.FreshIn (scope ++ [binder]) condition
        ∧ Expression.ResultFreshIn (scope ++ [binder]) result
  | .slice source _ _ => Expression.FreshIn scope source
  | .conditional condition yes no =>
      Predicate.FreshIn scope condition ∧ Expression.FreshIn scope yes
        ∧ Expression.FreshIn scope no
  | .countAll => True

def Expression.ResultFreshIn (scope : List String) : Option Expression → Prop
  | none => True
  | some e => Expression.FreshIn scope e

def Expression.AllFreshIn (scope : List String) : List Expression → Prop
  | [] => True
  | e :: rest => Expression.FreshIn scope e ∧ Expression.AllFreshIn scope rest

def Expression.EntriesFreshIn (scope : List String) : List (String × Expression) → Prop
  | [] => True
  | (_, e) :: rest => Expression.FreshIn scope e ∧ Expression.EntriesFreshIn scope rest

def MapItem.FreshIn (scope : List String) : MapItem → Prop
  | .property _ => True
  | .entry _ value => Expression.FreshIn scope value

def MapItem.AllFreshIn (scope : List String) : List MapItem → Prop
  | [] => True
  | item :: rest => MapItem.FreshIn scope item ∧ MapItem.AllFreshIn scope rest

def NodePattern.FreshIn (scope : List String) : NodePattern → Prop
  | ⟨_, _, properties⟩ => Expression.EntriesFreshIn scope properties

def NodePattern.HopsFreshIn (scope : List String) :
    List (RelationshipPattern × NodePattern) → Prop
  | [] => True
  | (_, node) :: rest => NodePattern.FreshIn scope node ∧ NodePattern.HopsFreshIn scope rest

/-- The names that a pattern introduces are distinct and not in scope. -/
def Pattern.FreshIn (scope : List String) : Pattern → Prop
  | ⟨start, hops⟩ =>
      (∀ name ∈ Pattern.introduced ⟨start, hops⟩, name ∉ scope)
        ∧ (Pattern.introduced ⟨start, hops⟩).Nodup
        ∧ NodePattern.FreshIn scope start ∧ NodePattern.HopsFreshIn scope hops

/-- Every pattern and every quantifier inside a predicate introduces names
that are not in scope there. -/
def Predicate.FreshIn (scope : List String) : Predicate → Prop
  | .always => True
  | .never => True
  | .compare _ lhs rhs => Expression.FreshIn scope lhs ∧ Expression.FreshIn scope rhs
  | .isNull subject => Expression.FreshIn scope subject
  | .isNotNull subject => Expression.FreshIn scope subject
  | .quantified _ binder source condition =>
      binder ∉ scope ∧ Expression.FreshIn scope source
        ∧ Predicate.FreshIn (scope ++ [binder]) condition
  | .conj lhs rhs => Predicate.FreshIn scope lhs ∧ Predicate.FreshIn scope rhs
  | .disj lhs rhs => Predicate.FreshIn scope lhs ∧ Predicate.FreshIn scope rhs
  | .neg inner => Predicate.FreshIn scope inner

end

-- ================================================================ clauses

/-- The list of what is made of a variable in all rows where it has a value,
or a part of that list, or its first element. -/
def Expression.Collects (name : String) (e : Expression) : Prop :=
  ∃ (result : Expression) (lower upper : Option Int),
    let list := (Expression.conditional (.isNull (.var name)) (.literal .null)
      result).collect.sliced lower upper
    e = list ∨ e = list.head

/-- A column that is given a name introduces it, unless it collects the
variable of this name. -/
def ReturnItem.FreshIn (scope : List String) (item : ReturnItem) : Prop :=
  item.expression.FreshIn scope
    ∧ ∀ name ∈ item.rename, name ∉ scope ∨ item.expression.Collects name

def OrderBy.FreshIn (scope : List String) (orderBy : Option OrderBy) : Prop :=
  ∀ keys ∈ orderBy, ∀ key ∈ keys, Expression.FreshIn scope key.1

theorem OrderBy.freshIn_none (scope : List String) : OrderBy.FreshIn scope none := by
  intro keys hkeys
  cases hkeys

def SetItem.FreshIn (scope : List String) : SetItem → Prop
  | .replace _ value => value.FreshIn scope
  | .merge _ value => value.FreshIn scope
  | .labels _ _ => True

namespace Clause

/-- The names that a clause introduces are not in scope before it, and no
`WITH` has a name twice. -/
def FreshIn (scope : List String) : Clause → Prop
  | .matching pattern _ condition =>
      pattern.FreshIn scope ∧ condition.FreshIn (scope ++ pattern.introduced)
  | .withItems items orderBy =>
      (items.filterMap ReturnItem.name?).Nodup ∧ (∀ item ∈ items, item.FreshIn scope)
        ∧ OrderBy.FreshIn (items.filterMap ReturnItem.name?) orderBy
  | .unwind source binder => source.FreshIn scope ∧ binder ∉ scope
  | .create pattern => pattern.FreshIn scope
  | .merge pattern => pattern.start.FreshIn scope ∧ NodePattern.HopsFreshIn scope pattern.hops
  | .set items => ∀ item ∈ items, item.FreshIn scope
  | .delete _ _ => True
  | .returnItems items orderBy _ _ =>
      (∀ item ∈ items, item.expression.FreshIn scope) ∧ OrderBy.FreshIn scope orderBy

/-- Every clause of a list introduces names that are not in scope behind
those before it. -/
def AllFreshIn (scope : List String) : List Clause → Prop
  | [] => True
  | clause :: rest => clause.FreshIn scope ∧ AllFreshIn (clause.scopeAfter scope) rest

/-- Clauses are fresh one after the other, the second ones in the scope behind the first. -/
theorem allFreshIn_append {scope : List String} {first second : List Clause} :
    AllFreshIn scope (first ++ second)
      ↔ AllFreshIn scope first ∧ AllFreshIn (scopeAfterAll scope first) second := by
  induction first generalizing scope with
  | nil => exact ⟨fun h => ⟨trivial, h⟩, fun h => h.2⟩
  | cons clause rest ih =>
    rw [List.cons_append, AllFreshIn, AllFreshIn, ih, and_assoc]
    rfl

end Clause

-- ================================================================= leaves

namespace Expression

variable {parameters : Dict Json} {scope : List String}

/-- Expressions are fresh together if each of them is. -/
theorem allFreshIn_iff {es : List Expression} :
    Expression.AllFreshIn scope es ↔ ∀ e ∈ es, e.FreshIn scope := by
  induction es with
  | nil => exact ⟨fun _ => List.forall_mem_nil _, fun _ => trivial⟩
  | cons e rest ih => rw [Expression.AllFreshIn, ih, List.forall_mem_cons]

/-- The entries of a map are fresh if each of their values is. -/
theorem entriesFreshIn_iff {entries : List (String × Expression)} :
    Expression.EntriesFreshIn scope entries ↔ ∀ entry ∈ entries, entry.2.FreshIn scope := by
  induction entries with
  | nil => exact ⟨fun _ => List.forall_mem_nil _, fun _ => trivial⟩
  | cons entry rest ih => rw [Expression.EntriesFreshIn, ih, List.forall_mem_cons]

/-- An expression without variables is fresh in every scope. -/
theorem Ground.freshIn {e : Expression} (h : e.Ground parameters) : e.FreshIn scope := by
  induction h with
  | literal | parameter => exact trivial
  | list _ ih => exact allFreshIn_iff.mpr ih
  | map _ ih => exact entriesFreshIn_iff.mpr ih

/-- What is read from an entity introduces nothing. -/
theorem Reading.freshIn {entity : String} {e : Expression} (h : e.Reading parameters entity) :
    e.FreshIn scope := by
  induction h with
  | ground h => exact h.freshIn
  | var | property => exact trivial
  | call _ ih => exact allFreshIn_iff.mpr ih
  | map _ ih => exact entriesFreshIn_iff.mpr ih

/-- Bounds name no variables. -/
theorem sliced_freshIn {e : Expression} (h : e.FreshIn scope) (lower upper : Option Int) :
    (e.sliced lower upper).FreshIn scope := by
  unfold sliced
  split
  · exact h
  · exact h

-- ============================================================= collecting

/-- A case distinction reads no entity. -/
theorem not_reading_conditional {entity : String} {condition : Predicate}
    {yes no : Expression} :
    ¬(Expression.conditional condition yes no).Reading parameters entity := by
  intro h
  cases h with
  | ground h => cases h

/-- What a function is applied to is read from the same entity. -/
theorem Reading.of_unary {entity function : String} {e : Expression}
    (h : (Expression.call function [e]).Reading parameters entity) :
    e.Reading parameters entity := by
  cases h with
  | ground h => cases h
  | call h => exact h e List.mem_cons_self

/-- A list that is cut is read from the same entity. -/
theorem Reading.of_sliced {entity : String} {e : Expression} {lower upper : Option Int}
    (h : (e.sliced lower upper).Reading parameters entity) : e.Reading parameters entity := by
  unfold sliced at h
  split at h
  · exact h
  · cases h with
    | ground h => cases h

/-- What is read from an entity at once collects nothing. -/
theorem Reading.not_collects {entity name : String} {e : Expression}
    (h : e.Reading parameters entity) : ¬e.Collects name := by
  rintro ⟨result, lower, upper, rfl | rfl⟩
  · exact not_reading_conditional h.of_sliced.of_unary
  · exact not_reading_conditional h.of_unary.of_sliced.of_unary

end Expression

-- =============================================================== conditions

/-- The variables that quantifiers in a predicate bind. -/
def Predicate.binders : Predicate → List String
  | .quantified _ binder _ condition => binder :: condition.binders
  | .conj lhs rhs => lhs.binders ++ rhs.binders
  | .disj lhs rhs => lhs.binders ++ rhs.binders
  | .neg inner => inner.binders
  | _ => []

namespace Predicate.Filtering

variable {R : Expression → Prop} {entity : String} {p : Predicate}

/-- A condition on an entity names its variables after it. -/
theorem binders_below (h : p.Filtering R entity) :
    ∀ name ∈ p.binders, NamedBelow entity name := by
  induction h with
  | always | never | compare | isNull | isNotNull => exact List.forall_mem_nil _
  | @quantified entity key _ _ _ _ _ ih =>
    have hitem := NamedBelow.intro entity key
    exact List.forall_mem_cons.mpr ⟨hitem, fun name hname => hitem.trans (ih name hname)⟩
  | conj _ _ ihp ihq | disj _ _ ihp ihq => exact List.forall_mem_append.mpr ⟨ihp, ihq⟩
  | neg _ ih => exact ih

end Predicate.Filtering

end Cypher

/-- A pattern of a shape introduces its target alone. -/
theorem RelationshipShape.pattern_freshIn_iff (shape : RelationshipShape)
    {source target label : String} {scope : List String} :
    (shape.pattern source target label).FreshIn scope ↔ target ∉ scope := by
  constructor
  · intro h
    exact h.1 target List.mem_cons_self
  · intro h
    refine ⟨fun name hname => ?_, List.nodup_singleton target, trivial, trivial, trivial⟩
    rw [List.mem_singleton.mp hname]
    exact h

/-- A condition on an entity is fresh exactly where none of the variables that
its quantifiers bind is in scope: one inside another is the longer. -/
theorem Cypher.Predicate.Filtering.freshIn_iff {parameters : Dict Json} {entity : String}
    {p : Predicate} (h : p.Filtering (Expression.Ground parameters) entity)
    {scope : List String} : p.FreshIn scope ↔ ∀ name ∈ p.binders, name ∉ scope := by
  induction h generalizing scope with
  | always | never => exact ⟨fun _ => List.forall_mem_nil _, fun _ => trivial⟩
  | compare compared =>
    exact ⟨fun _ => List.forall_mem_nil _, fun _ => ⟨trivial, compared.freshIn⟩⟩
  | isNull | isNotNull => exact ⟨fun _ => List.forall_mem_nil _, fun _ => trivial⟩
  | @quantified entity key label _ shape p inner ih =>
    rw [Predicate.binders, List.forall_mem_cons]
    constructor
    · rintro ⟨hitem, -, hinner⟩
      refine ⟨hitem, fun name hname hmem => ?_⟩
      exact ih.mp hinner name hname (List.mem_append_left _ hmem)
    · rintro ⟨hitem, hinner⟩
      refine ⟨hitem, ⟨shape.pattern_freshIn_iff.mpr hitem, trivial, trivial⟩, ih.mpr ?_⟩
      intro name hname hmem
      rcases List.mem_append.mp hmem with hmem | hmem
      · exact hinner name hname hmem
      · exact (inner.binders_below name hname).ne (List.mem_singleton.mp hmem)
  | conj _ _ ihp ihq | disj _ _ ihp ihq =>
    rw [Predicate.binders, List.forall_mem_append, ← ihp, ← ihq, Predicate.FreshIn]
  | neg _ ih => exact ih

end PropertyGraphQL
