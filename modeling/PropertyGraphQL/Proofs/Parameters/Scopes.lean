/-
The scopes that compiling comes to, and the parameters left behind in them.

The arguments of a field are asked of the entities it stands for, and their
conditions put together. If one of them is `false`, all of them together are:
then whatever was bound for the others stays bound and is referred to by
none (`ArgumentScope.Drops`). Following the run of planning from scope to
scope (`Comes`), these are all the names that are lost: the others are those
that the plan refers to (`keys_planFields`).
-/
import PropertyGraphQL.Proofs.Parameters.Bound

namespace PropertyGraphQL

open Cypher Compiling

-- ================================================================== scopes

/-- The entities that arguments are asked of. Those in `declared` are meant
for a statement and left out. -/
structure ArgumentScope where
  type : EntityType
  entity : String
  declared : Dict DeclaredArgument
  arguments : Dict Value

namespace ArgumentScope

variable (catalog : Catalog) (s : ArgumentScope)

/-- What is asked of the entities, and the conditions besides. -/
def gather : Compiling ScopeArguments.Gathered :=
  (s.arguments.filter fun (name, _) => !s.declared.contains name).foldlM
    (ScopeArguments.gather catalog s.type s.entity) (.none, [])

/-- Gathered in the state `p`, one of the conditions is `false` and one refers
to the parameter. -/
def Drops (p : Parameters) (name : String) : Prop :=
  ∃ a conditions q, (s.gather catalog).run p = .ok ((a, conditions), q)
    ∧ .never ∈ conditions ∧ ∃ condition ∈ conditions, name ∈ condition.references

end ArgumentScope

namespace ScopeArguments

variable (catalog : Catalog) (t : EntityType) (entity : String)

/-- One more argument binds the parameters of the conditions that it adds. -/
theorem binds_gather (before : List String) (g : Gathered) (argument : String × Value) :
    Binds (before ++ g.2.flatMap Predicate.references) (gather catalog t entity g argument)
      fun g' => before ++ g'.2.flatMap Predicate.references := by
  obtain ⟨a, conditions⟩ := g
  obtain ⟨name, x⟩ := argument
  have hlift {α : Type} (e : Except CompileError α) :
      Binds (before ++ conditions.flatMap Predicate.references) (liftM e : Compiling α)
        fun _ => before ++ conditions.flatMap Predicate.references :=
    .lift fun _ _ _ => Iff.rfl
  unfold gather
  dsimp only
  split
  · exact (binds_resolve _ x).bind fun j => (hlift _).bind fun n => .pure fun _ => Iff.rfl
  · exact (binds_resolve _ x).bind fun j => (hlift _).bind fun n => .pure fun _ => Iff.rfl
  · exact (binds_resolve _ x).bind fun j => (hlift _).bind fun n => .pure fun _ => Iff.rfl
  · refine (binds_resolve _ x).bind fun j => ?_
    have hfilter : Binds (before ++ conditions.flatMap Predicate.references)
        (liftM (j.filterPredicate catalog t entity))
        fun p => before ++ (conditions ++ [p]).flatMap Predicate.references :=
      .lift fun p hp other => by simp [Json.references_filterPredicate hp]
    exact hfilter.bind fun p => .pure fun _ => Iff.rfl
  · refine (t.binds_plainArgument _ entity name x).bind fun p => .pure fun other => ?_
    simp

/-- All arguments bind the parameters of the conditions that are gathered. -/
theorem binds_foldlM (arguments : List (String × Value)) (before : List String) (g : Gathered) :
    Binds (before ++ g.2.flatMap Predicate.references)
      (arguments.foldlM (gather catalog t entity) g)
      fun g' => before ++ g'.2.flatMap Predicate.references := by
  induction arguments generalizing g with
  | nil =>
    rw [List.foldlM_nil]
    exact .pure fun _ => Iff.rfl
  | cons argument rest ih =>
    rw [List.foldlM_cons]
    exact (binds_gather catalog t entity before g argument).bind fun g' => ih g'

variable {catalog t entity}

/-- Behind the arguments just those names are bound that were before, those
that their condition refers to, and those that are dropped. -/
theorem keys_ofArguments {declared : Dict DeclaredArgument} {arguments : Dict Value}
    {a : ScopeArguments} {p q : Parameters}
    (h : (ofArguments catalog t entity declared arguments).run p = .ok (a, q)) (name : String) :
    name ∈ q.bound.keys ↔ name ∈ p.bound.keys ∨ name ∈ a.condition.references
      ∨ (ArgumentScope.mk t entity declared arguments).Drops catalog p name := by
  obtain ⟨⟨⟨a', conditions⟩, q'⟩, hgather, h⟩ := bind_eq_ok_iff.mp h
  cases h
  have hrun : ((ArgumentScope.mk t entity declared arguments).gather catalog).run p
      = .ok ((a', conditions), q) := hgather
  have hbinds : Binds [] ((ArgumentScope.mk t entity declared arguments).gather catalog)
      fun g => g.2.flatMap Predicate.references :=
    binds_foldlM catalog t entity _ [] (none, [])
  have hdrops : (ArgumentScope.mk t entity declared arguments).Drops catalog p name
      ↔ .never ∈ conditions ∧ ∃ condition ∈ conditions, name ∈ condition.references := by
    constructor
    · rintro ⟨a'', conditions', q', hrun', h⟩
      rw [hrun] at hrun'
      cases hrun'
      exact h
    · exact fun h => ⟨a', conditions, q, hrun, h⟩
  rw [hbinds.keys hrun, hdrops, Predicate.mem_references_all, List.mem_flatMap]
  by_cases hnever : Predicate.never ∈ conditions
  · simp [hnever]
  · simp [hnever]

end ScopeArguments

-- =================================================================== plans

/-- The parameters that a traversal refers to. -/
def Traversal.references (t : Traversal) : List String :=
  t.source.elim [] Expression.references ++ t.arguments.condition.references

namespace Plan

mutual

/-- The parameters that what is read for a field refers to. -/
def references : Plan → List String
  | .value e => e.references
  | .traversal t entries => t.references ++ entriesReferences entries

def entriesReferences : List (String × Plan) → List String
  | [] => []
  | (_, plan) :: rest => references plan ++ entriesReferences rest

end

/-- The parameters that what is read for a field refers to, without what is
read below it. -/
def readReferences : Expression ⊕ Traversal × EntityType → List String
  | .inl e => e.references
  | .inr (t, _) => t.references

end Plan

namespace Compiler

variable (c : Compiler)

/-- To reject arguments binds nothing. -/
theorem binds_rejectUndeclared (before : List String) (head : FieldHead) (t : EntityType)
    (declared : Dict DeclaredArgument) :
    Binds before (rejectUndeclared head t declared) fun _ => before := by
  unfold rejectUndeclared
  split
  · exact .throw
  · exact .pure fun _ => Iff.rfl

/-- A declared argument binds the parameters that it refers to. -/
theorem binds_declaredExpression (before : List String) (head : FieldHead) (name : String)
    (declared : DeclaredArgument) :
    Binds before (declaredExpression head name declared) fun e => before ++ e.references := by
  unfold declaredExpression
  split
  · next x _ => exact x.binds_expression before
  · exact .pure fun _ => by simp
  · exact .pure fun _ => by simp

/-- The call of a statement binds the parameters that it refers to. -/
theorem binds_customCall (before : List String) (custom : CustomStatement)
    (declared : Dict DeclaredArgument) (head : FieldHead) (this : String) (list : Bool) :
    Binds before (c.customCall custom declared head this list)
      fun e => before ++ e.references := by
  unfold customCall
  dsimp only
  refine Binds.bind (.mapM (fun entry => entry.2.references) fun d _ before' => ?_) fun given =>
    .pure fun name => ?_
  · exact (binds_declaredExpression before' head d.1 d.2).bind fun e => .pure fun _ => Iff.rfl
  · simp [List.flatMap_map]

/-- The value of a property binds the parameters that it refers to. -/
theorem binds_propertyValue (before : List String) (f : Collected) (property : PropertyField)
    (entity : String) :
    Binds before (c.propertyValue f property entity) fun e => before ++ e.references := by
  unfold propertyValue
  split
  · exact .pure fun _ => by simp
  · refine (binds_rejectUndeclared before _ _ _).bind fun _ =>
      (c.binds_customCall before _ _ _ _ _).bind fun call => .pure fun name => ?_
    split
    · rfl
    · simp [Expression.head]

/-- Reading a field in the state `p` asks the arguments of a scope, in the
state that follows in turn. -/
inductive Asks (f : Collected) (parent : String) (p : Parameters) :
    ArgumentScope → Parameters → Prop where
  | plain {r : RelationshipField} {target : EntityType}
      (hname : f.head.name ∉ ["_id", "_labels", "__typename"])
      (hproperty : f.scope.property? f.head.name = none)
      (hr : f.scope.relationship? f.head.name = some r)
      (htarget : c.catalog.type? r.shape.targetType = some target) (hcustom : r.custom = none) :
      Asks f parent p ⟨target, parent ++ "_" ++ f.key, [], f.head.arguments⟩ p
  | listed {r : RelationshipField} {target : EntityType} {custom : CustomStatement}
      {source : Expression} {q : Parameters}
      (hname : f.head.name ∉ ["_id", "_labels", "__typename"])
      (hproperty : f.scope.property? f.head.name = none)
      (hr : f.scope.relationship? f.head.name = some r)
      (htarget : c.catalog.type? r.shape.targetType = some target)
      (hcustom : r.custom = some custom) (hpass : custom.passThrough = false)
      (hsource : (c.customCall custom r.arguments f.head parent true).run p
        = .ok (source, q)) :
      Asks f parent p ⟨target, parent ++ "_" ++ f.key, r.arguments, f.head.arguments⟩ q

/-- Planning collected fields in the state `p` comes to a scope, in the state
that follows in turn. -/
inductive Comes : (entity : String) → List Collected → (p : Parameters) →
    ArgumentScope → Parameters → Prop where
  | here {entity : String} {f : Collected} {rest : List Collected} {p q : Parameters}
      {s : ArgumentScope} (h : c.Asks f entity p s q) : Comes entity (f :: rest) p s q
  | inside {entity : String} {f : Collected} {rest : List Collected} {p q r : Parameters}
      {t : Traversal} {target : EntityType} {s : ArgumentScope}
      (hf : (c.fieldPlan f entity).run p = .ok (.inr (t, target), q))
      (h : Comes t.entity (Collected.collect c.catalog target f.selections) q s r) :
      Comes entity (f :: rest) p s r
  | behind {entity : String} {f : Collected} {rest : List Collected} {p q r : Parameters}
      {entries : List (String × Plan)} {s : ArgumentScope}
      (hf : (c.planFields entity [f]).run p = .ok (entries, q))
      (h : Comes entity rest q s r) : Comes entity (f :: rest) p s r

variable {c}

/-- A scope is asked where a relationship is traversed, and nowhere else. -/
theorem Asks.field {f : Collected} {parent : String} {p q : Parameters} {s : ArgumentScope}
    (h : c.Asks f parent p s q) :
    f.head.name ∉ ["_id", "_labels", "__typename"] ∧ f.scope.property? f.head.name = none
      ∧ ∃ r, f.scope.relationship? f.head.name = some r
        ∧ ∀ custom, r.custom = some custom → custom.passThrough = false := by
  cases h with
  | plain hname hproperty hr _ hcustom =>
    refine ⟨hname, hproperty, _, hr, fun custom h => ?_⟩
    rw [hcustom] at h
    cases h
  | listed hname hproperty hr _ hcustom hpass =>
    refine ⟨hname, hproperty, _, hr, fun custom h => ?_⟩
    rw [hcustom] at h
    cases h
    exact hpass

/-- Reading a relationship binds what its statement and its condition refer to,
and what is dropped in its scope. -/
theorem keys_relationshipPlan {f : Collected} {r : RelationshipField} {parent : String}
    {read : Expression ⊕ Traversal × EntityType} {p q : Parameters}
    (hname : f.head.name ∉ ["_id", "_labels", "__typename"])
    (hproperty : f.scope.property? f.head.name = none)
    (hr : f.scope.relationship? f.head.name = some r)
    (h : (c.relationshipPlan f r parent).run p = .ok (read, q)) (name : String) :
    name ∈ q.bound.keys ↔ name ∈ p.bound.keys ∨ name ∈ Plan.readReferences read
      ∨ ∃ s s', c.Asks f parent p s s' ∧ s.Drops c.catalog s' name := by
  unfold relationshipPlan at h
  cases htarget : c.catalog.type? r.shape.targetType with
  | none =>
    rw [htarget] at h
    cases h
  | some target =>
    rw [htarget] at h
    dsimp only at h
    cases hcustom : r.custom with
    | none =>
      rw [hcustom] at h
      obtain ⟨⟨a, q'⟩, ha, h⟩ := bind_eq_ok_iff.mp h
      cases h
      -- a relationship of its own asks for its scope and for nothing else
      have hasks : (∃ s s', c.Asks f parent p s s' ∧ s.Drops c.catalog s' name)
          ↔ (ArgumentScope.mk target (parent ++ "_" ++ f.key) [] f.head.arguments).Drops
            c.catalog p name := by
        constructor
        · rintro ⟨s, s', hasks, hdrops⟩
          cases hasks with
          | plain _ _ hr' htarget' _ =>
            cases hr.symm.trans hr'
            cases htarget.symm.trans htarget'
            exact hdrops
          | listed _ _ hr' _ hcustom' =>
            cases hr.symm.trans hr'
            cases hcustom.symm.trans hcustom'
        · exact fun hdrops => ⟨_, _, .plain hname hproperty hr htarget hcustom, hdrops⟩
      rw [hasks, ScopeArguments.keys_ofArguments ha]
      simp [Plan.readReferences, Traversal.references]
    | some custom =>
      rw [hcustom] at h
      dsimp only at h
      cases hpass : custom.passThrough with
      | true =>
        rw [hpass, if_pos rfl] at h
        -- what is passed through has no scope: all that is bound is in the call
        have hbinds : Binds [] (do
            rejectUndeclared f.head target r.arguments
            return .inl (← c.customCall custom r.arguments f.head parent r.multi))
            Plan.readReferences :=
          (binds_rejectUndeclared [] _ _ _).bind fun _ =>
            (c.binds_customCall [] _ _ _ _ _).bind fun _ => .pure fun _ => Iff.rfl
        rw [hbinds.keys h]
        refine or_congr_right (Iff.symm (or_iff_left ?_))
        rintro ⟨s, s', hasks, -⟩
        obtain ⟨-, -, r', hr', hall⟩ := hasks.field
        cases hr.symm.trans hr'
        rw [hall custom hcustom] at hpass
        cases hpass
      | false =>
        rw [hpass, if_neg Bool.false_ne_true] at h
        obtain ⟨⟨source, q'⟩, hsource, h⟩ := bind_eq_ok_iff.mp h
        obtain ⟨⟨a, q''⟩, ha, h⟩ := bind_eq_ok_iff.mp h
        cases h
        -- the scope is asked for once the call is compiled, with what that bound
        have hasks : (∃ s s', c.Asks f parent p s s' ∧ s.Drops c.catalog s' name)
            ↔ (ArgumentScope.mk target (parent ++ "_" ++ f.key) r.arguments
              f.head.arguments).Drops c.catalog q' name := by
          constructor
          · rintro ⟨s, s', hasks, hdrops⟩
            cases hasks with
            | plain _ _ hr' _ hcustom' =>
              cases hr.symm.trans hr'
              cases hcustom.symm.trans hcustom'
            | listed _ _ hr' htarget' hcustom' _ hsource' =>
              cases hr.symm.trans hr'
              cases htarget.symm.trans htarget'
              cases hcustom.symm.trans hcustom'
              cases hsource.symm.trans hsource'
              exact hdrops
          · exact fun hdrops =>
              ⟨_, _, .listed hname hproperty hr htarget hcustom hpass hsource, hdrops⟩
        have hcall : Binds [] (c.customCall custom r.arguments f.head parent true)
            Expression.references := c.binds_customCall [] _ _ _ _ _
        rw [hasks, ScopeArguments.keys_ofArguments ha, hcall.keys hsource]
        simp [Plan.readReferences, Traversal.references, or_assoc]

/-- Reading a field binds what is referred to, and what is dropped. -/
theorem keys_fieldPlan {f : Collected} {entity : String}
    {read : Expression ⊕ Traversal × EntityType} {p q : Parameters}
    (h : (c.fieldPlan f entity).run p = .ok (read, q)) (name : String) :
    name ∈ q.bound.keys ↔ name ∈ p.bound.keys ∨ name ∈ Plan.readReferences read
      ∨ ∃ s r, c.Asks f entity p s r ∧ s.Drops c.catalog r name := by
  -- only a relationship asks for a scope
  have hidle {step : Compiling (Expression ⊕ Traversal × EntityType)}
      (hbinds : Binds [] step Plan.readReferences) (hstep : step.run p = .ok (read, q))
      (hasks : ∀ s r, ¬ c.Asks f entity p s r) :
      name ∈ q.bound.keys ↔ name ∈ p.bound.keys ∨ name ∈ Plan.readReferences read
        ∨ ∃ s r, c.Asks f entity p s r ∧ s.Drops c.catalog r name := by
    rw [hbinds.keys hstep]
    refine or_congr_right (Iff.symm (or_iff_left ?_))
    rintro ⟨s, r, h, -⟩
    exact hasks s r h
  unfold fieldPlan at h
  split at h
  · next hname =>
    refine hidle (.pure fun _ => by simp [Plan.readReferences]) h fun s r hasks => ?_
    exact hasks.field.1 (by simp [hname])
  · next hname =>
    refine hidle (.pure fun _ => by simp [Plan.readReferences]) h fun s r hasks => ?_
    exact hasks.field.1 (by simp [hname])
  · next hname =>
    refine hidle (.pure fun _ => by simp [Plan.readReferences]) h fun s r hasks => ?_
    exact hasks.field.1 (by simp [hname])
  · next hid hlabels htype =>
    have hname : f.head.name ∉ ["_id", "_labels", "__typename"] := by
      simp only [List.mem_cons, List.not_mem_nil, or_false, not_or]
      exact ⟨hid, hlabels, htype⟩
    split at h
    · next property hproperty =>
      refine hidle ((c.binds_propertyValue [] f property entity).bind fun e =>
        .pure fun _ => Iff.rfl) h fun s r hasks => ?_
      rw [hasks.field.2.1] at hproperty
      cases hproperty
    · next hproperty =>
      split at h
      · next r hr => exact keys_relationshipPlan hname hproperty hr h name
      · cases h

/-- Behind planning just those names are bound that were before, those that the
plan refers to, and those that are dropped in the scopes that planning comes
to. -/
theorem keys_planFields {entity : String} {fields : List Collected}
    {entries : List (String × Plan)} {p q : Parameters}
    (h : (c.planFields entity fields).run p = .ok (entries, q)) (name : String) :
    name ∈ q.bound.keys ↔ name ∈ p.bound.keys ∨ name ∈ Plan.entriesReferences entries
      ∨ ∃ s r, c.Comes entity fields p s r ∧ s.Drops c.catalog r name := by
  match fields with
  | [] =>
    rw [run_planFields_nil] at h
    cases h
    refine Iff.symm (or_iff_left ?_)
    rintro (h | ⟨s, r, h, -⟩)
    · cases h
    · cases h
  | f :: rest =>
    rcases run_planFields_cons h with
      ⟨e, q₁, more, hf, hrest, rfl⟩ | ⟨t, target, q₁, below, q₂, more, hf, hbelow, hrest, rfl⟩
    · have hfield := keys_fieldPlan hf name
      have hmore := keys_planFields hrest name
      have hfirst : (c.planFields entity [f]).run p = .ok ([(f.key, .value e)], q₁) :=
        run_planFields_value hf (run_planFields_nil entity q₁)
      -- a value has no fields below it, so a scope is its own or comes behind
      have hcomes : (∃ s r, c.Comes entity (f :: rest) p s r ∧ s.Drops c.catalog r name)
          ↔ (∃ s r, c.Asks f entity p s r ∧ s.Drops c.catalog r name)
            ∨ ∃ s r, c.Comes entity rest q₁ s r ∧ s.Drops c.catalog r name := by
        constructor
        · rintro ⟨s, r, hcomes, hdrops⟩
          cases hcomes with
          | here h => exact .inl ⟨s, r, h, hdrops⟩
          | inside hf' => cases hf.symm.trans hf'
          | behind hf' h =>
            cases hfirst.symm.trans hf'
            exact .inr ⟨s, r, h, hdrops⟩
        · rintro (⟨s, r, h, hdrops⟩ | ⟨s, r, h, hdrops⟩)
          · exact ⟨s, r, .here h, hdrops⟩
          · exact ⟨s, r, .behind hfirst h, hdrops⟩
      rw [hmore, hfield, hcomes]
      simp only [Plan.entriesReferences, Plan.references, Plan.readReferences, List.mem_append]
      exact iff_of_eq (by ac_rfl)
    · have hfield := keys_fieldPlan hf name
      have hinside := keys_planFields hbelow name
      have hmore := keys_planFields hrest name
      have hfirst : (c.planFields entity [f]).run p = .ok ([(f.key, .traversal t below)], q₂) :=
        run_planFields_traversal hf hbelow (run_planFields_nil entity q₂)
      -- a traversal has fields below it, compiled before those behind it
      have hcomes : (∃ s r, c.Comes entity (f :: rest) p s r ∧ s.Drops c.catalog r name)
          ↔ (∃ s r, c.Asks f entity p s r ∧ s.Drops c.catalog r name)
            ∨ (∃ s r, c.Comes t.entity (Collected.collect c.catalog target f.selections) q₁ s r
              ∧ s.Drops c.catalog r name)
            ∨ ∃ s r, c.Comes entity rest q₂ s r ∧ s.Drops c.catalog r name := by
        constructor
        · rintro ⟨s, r, hcomes, hdrops⟩
          cases hcomes with
          | here h => exact .inl ⟨s, r, h, hdrops⟩
          | inside hf' h =>
            cases hf.symm.trans hf'
            exact .inr (.inl ⟨s, r, h, hdrops⟩)
          | behind hf' h =>
            cases hfirst.symm.trans hf'
            exact .inr (.inr ⟨s, r, h, hdrops⟩)
        · rintro (⟨s, r, h, hdrops⟩ | ⟨s, r, h, hdrops⟩ | ⟨s, r, h, hdrops⟩)
          · exact ⟨s, r, .here h, hdrops⟩
          · exact ⟨s, r, .inside hf h, hdrops⟩
          · exact ⟨s, r, .behind hfirst h, hdrops⟩
      rw [hmore, hinside, hfield, hcomes]
      simp only [Plan.entriesReferences, Plan.references, Plan.readReferences, List.mem_append]
      exact iff_of_eq (by ac_rfl)
termination_by Collected.weight fields
decreasing_by
  · simp only [Collected.weight]
    omega
  · refine Nat.lt_of_le_of_lt (Collected.weight_collect_le ..) ?_
    simp only [Collected.weight]
    omega
  · simp only [Collected.weight]
    omega

end Compiler

end PropertyGraphQL
