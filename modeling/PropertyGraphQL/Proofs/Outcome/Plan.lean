/-
What planning a selection comes to.

The relations follow the plan down: an entry for every collected field,
and below a traversal the entries of the selection of its field. What is
read for a field names the entity it is read from and no other variable;
the variable of a traversal is that of its parent with the key of the
field behind it.
-/
import PropertyGraphQL.Compile.Plan
import PropertyGraphQL.Proofs.Outcome.Arguments

namespace PropertyGraphQL

open Cypher Compiling

namespace Outcome

variable (c : Compiler) (vars parameters : Dict Json)

-- ================================================================= calls

/-- A declared argument is what is given for it, or its default, or null. -/
inductive Declared (head : FieldHead) (name : String) (declared : DeclaredArgument) :
    Expression → Prop where
  | given {x : Value} {e : Expression} (hx : head.arguments.get? name = some x)
      (he : e.Denotes vars parameters x) : Declared head name declared e
  | default {j : Json} (hx : head.arguments.get? name = none)
      (hdefault : declared.default = some j) : Declared head name declared (.literal j.literal)
  | missing (hx : head.arguments.get? name = none) (hdefault : declared.default = none) :
      Declared head name declared (.literal .null)

/-- A statement is run for an entity with its static parameters and all
declared arguments. -/
inductive Call (custom : CustomStatement) (declared : Dict DeclaredArgument)
    (head : FieldHead) (this : String) (list : Bool) : Expression → Prop where
  | intro {given : List (String × Expression)}
      (h : List.Forall₂ (fun d g => g.1 = d.1 ∧ Declared vars parameters head d.1 d.2 g.2)
        declared given) :
      Call custom declared head this list
        (.call c.options.runFunction
          [.literal (.string custom.statement),
            .map (("this", .var this)
              :: custom.staticParameters.map (fun (name, value) => (name, .literal value.literal))
                ++ given),
            .literal (.boolean list)])

/-- Every argument of a field is declared. -/
def AllDeclared (head : FieldHead) (declared : Dict DeclaredArgument) : Prop :=
  ∀ name ∈ head.arguments.keys, declared.contains name = true

-- ================================================================= fields

/-- A property is read from its entity, or computed by its statement. -/
inductive Property (f : Collected) (property : PropertyField) (entity : String) :
    Expression → Prop where
  | stored (hcustom : property.custom = none) :
      Property f property entity (.property entity f.head.name)
  | computed {custom : CustomStatement} {call : Expression}
      (hcustom : property.custom = some custom)
      (hdeclared : AllDeclared f.head property.arguments)
      (hcall : Call c vars parameters custom property.arguments f.head entity true call) :
      Property f property entity (if property.type.isList then call else call.head)

/-- A relationship is traversed, from its parent or over the list that its
statement gives, or the result of its statement is taken as it is. -/
inductive Relationship (f : Collected) (r : RelationshipField) (parent : String) :
    Expression ⊕ Traversal × EntityType → Prop where
  | plain {target : EntityType} {a : ScopeArguments}
      (htarget : c.catalog.type? r.shape.targetType = some target) (hcustom : r.custom = none)
      (ha : Arguments c.catalog vars parameters target (parent ++ "_" ++ f.key) []
        f.head.arguments a) :
      Relationship f r parent
        (.inr (⟨r.shape, r.multi, target.name, parent, parent ++ "_" ++ f.key, a, none⟩, target))
  | passThrough {target : EntityType} {custom : CustomStatement} {call : Expression}
      (htarget : c.catalog.type? r.shape.targetType = some target)
      (hcustom : r.custom = some custom) (hpass : custom.passThrough = true)
      (hdeclared : AllDeclared f.head r.arguments)
      (hcall : Call c vars parameters custom r.arguments f.head parent r.multi call) :
      Relationship f r parent (.inl call)
  | listed {target : EntityType} {custom : CustomStatement} {source : Expression}
      {a : ScopeArguments} (htarget : c.catalog.type? r.shape.targetType = some target)
      (hcustom : r.custom = some custom) (hpass : custom.passThrough = false)
      (hsource : Call c vars parameters custom r.arguments f.head parent true source)
      (ha : Arguments c.catalog vars parameters target (parent ++ "_" ++ f.key) r.arguments
        f.head.arguments a) :
      Relationship f r parent
        (.inr (⟨r.shape, r.multi, target.name, parent, parent ++ "_" ++ f.key, a, some source⟩,
          target))

/-- What is read for a field of an entity. -/
inductive Field (f : Collected) (entity : String) :
    Expression ⊕ Traversal × EntityType → Prop where
  | id (hname : f.head.name = "_id") : Field f entity (.inl (.call "id" [.var entity]))
  | labels (hname : f.head.name = "_labels") :
      Field f entity (.inl (.call "labels" [.var entity]))
  | typeName (hname : f.head.name = "__typename") :
      Field f entity (.inl (.literal (.string f.scope.name)))
  | property {property : PropertyField} {e : Expression}
      (hname : f.head.name ∉ ["_id", "_labels", "__typename"])
      (hproperty : f.scope.property? f.head.name = some property)
      (h : Property c vars parameters f property entity e) : Field f entity (.inl e)
  | relationship {r : RelationshipField} {read : Expression ⊕ Traversal × EntityType}
      (hname : f.head.name ∉ ["_id", "_labels", "__typename"])
      (hproperty : f.scope.property? f.head.name = none)
      (hr : f.scope.relationship? f.head.name = some r)
      (h : Relationship c vars parameters f r entity read) : Field f entity read

/-- What is read from an entity for collected fields, at every depth. -/
inductive Entries : (entity : String) → List Collected → List (String × Plan) → Prop where
  | nil {entity : String} : Entries entity [] []
  | value {entity : String} {f : Collected} {rest : List Collected} {e : Expression}
      {more : List (String × Plan)} (h : Field c vars parameters f entity (.inl e))
      (hrest : Entries entity rest more) :
      Entries entity (f :: rest) ((f.key, .value e) :: more)
  | traversal {entity : String} {f : Collected} {rest : List Collected} {t : Traversal}
      {target : EntityType} {below more : List (String × Plan)}
      (h : Field c vars parameters f entity (.inr (t, target)))
      (hbelow : Entries t.entity (Collected.collect c.catalog target f.selections) below)
      (hrest : Entries entity rest more) :
      Entries entity (f :: rest) ((f.key, .traversal t below) :: more)

end Outcome

-- ================================================================ success

namespace Compiler

variable {vars : Dict Json} (c : Compiler)

/-- If no argument is rejected, all are declared. -/
theorem yields_rejectUndeclared (head : FieldHead) (t : EntityType)
    (declared : Dict DeclaredArgument) :
    Yields vars (rejectUndeclared head t declared)
      fun _ _ => Outcome.AllDeclared head declared := by
  unfold rejectUndeclared
  split
  · exact .throw
  · next hnone =>
    refine .pure fun _ name hname => ?_
    have h := List.find?_eq_none.mp hnone name hname
    simpa using h

/-- What stands for a declared argument in the map of a call. -/
theorem yields_declaredExpression (head : FieldHead) (name : String)
    (declared : DeclaredArgument) :
    Yields vars (declaredExpression head name declared)
      fun final e => Outcome.Declared vars final head name declared e := by
  unfold declaredExpression
  cases hx : head.arguments.get? name with
  | some x => exact (Value.yields_expression x).mono fun _ _ he => .given hx he
  | none =>
    cases hdefault : declared.default with
    | some j => exact .pure fun _ => .default hx hdefault
    | none => exact .pure fun _ => .missing hx hdefault

/-- What the call of a statement comes to. -/
theorem yields_customCall (custom : CustomStatement) (declared : Dict DeclaredArgument)
    (head : FieldHead) (this : String) (list : Bool) :
    Yields vars (c.customCall custom declared head this list)
      fun final e => Outcome.Call c vars final custom declared head this list e := by
  unfold customCall
  dsimp only
  refine (Yields.mapM declared ?_).bind fun given => .pure fun _ h => .intro h
  intro d _
  refine (yields_declaredExpression head d.1 d.2).bind fun e => .pure fun _ he => ?_
  exact ⟨rfl, he⟩

/-- What is read for a property. -/
theorem yields_propertyValue (f : Collected) (property : PropertyField) (entity : String) :
    Yields vars (c.propertyValue f property entity)
      fun final e => Outcome.Property c vars final f property entity e := by
  unfold propertyValue
  split
  · next hcustom => exact .pure fun _ => .stored hcustom
  · next custom hcustom =>
    refine (yields_rejectUndeclared _ _ _).bind fun _ =>
      (c.yields_customCall _ _ _ _ _).bind fun call => .pure fun _ hcall hdeclared => ?_
    exact .computed hcustom hdeclared hcall

/-- What is read for a relationship. -/
theorem yields_relationshipPlan (f : Collected) (r : RelationshipField) (parent : String) :
    Yields vars (c.relationshipPlan f r parent)
      fun final read => Outcome.Relationship c vars final f r parent read := by
  unfold relationshipPlan
  cases htarget : c.catalog.type? r.shape.targetType with
  | none => exact .throw
  | some target =>
    dsimp only
    split
    · next hcustom =>
      refine (ScopeArguments.yields_ofArguments _ _ _ _ _).bind fun a => .pure fun _ ha => ?_
      exact .plain htarget hcustom ha
    · next custom hcustom =>
      split
      · next hpass =>
        refine (yields_rejectUndeclared _ _ _).bind fun _ =>
          (c.yields_customCall _ _ _ _ _).bind fun call => .pure fun _ hcall hdeclared => ?_
        exact .passThrough htarget hcustom hpass hdeclared hcall
      · next hpass =>
        refine (c.yields_customCall _ _ _ _ _).bind fun source =>
          (ScopeArguments.yields_ofArguments _ _ _ _ _).bind fun a =>
            .pure fun _ ha hsource => ?_
        exact .listed htarget hcustom (Bool.eq_false_iff.mpr hpass) hsource ha

/-- What is read for a field of any kind. -/
theorem yields_fieldPlan (f : Collected) (entity : String) :
    Yields vars (c.fieldPlan f entity)
      fun final read => Outcome.Field c vars final f entity read := by
  unfold fieldPlan
  split
  · next hname => exact .pure fun _ => .id hname
  · next hname => exact .pure fun _ => .labels hname
  · next hname => exact .pure fun _ => .typeName hname
  · next hid hlabels htype =>
    have hname : f.head.name ∉ ["_id", "_labels", "__typename"] := by
      simp only [List.mem_cons, List.not_mem_nil, or_false]
      rintro (h | h | h)
      · exact hid h
      · exact hlabels h
      · exact htype h
    split
    · next property hproperty =>
      refine (c.yields_propertyValue f property entity).bind fun e => .pure fun _ he => ?_
      exact .property hname hproperty he
    · next hproperty =>
      split
      · next r hr =>
        exact (c.yields_relationshipPlan f r entity).mono fun _ _ h =>
          .relationship hname hproperty hr h
      · exact .throw

/-- The plan of collected fields has an entry for each of them. -/
theorem yields_planFields (entity : String) (fields : List Collected) :
    Yields vars (c.planFields entity fields)
      fun final entries => Outcome.Entries c vars final entity fields entries := by
  match fields with
  | [] =>
    rw [planFields]
    exact .pure fun _ => .nil
  | f :: rest =>
    rw [planFields]
    refine (c.yields_fieldPlan f entity).bind fun read => ?_
    have hrest := yields_planFields entity rest
    cases read with
    | inl e =>
      refine hrest.bind fun more => .pure fun final hmore hfield => ?_
      exact .value hfield hmore
    | inr read =>
      obtain ⟨t, target⟩ := read
      have hbelow := yields_planFields t.entity
        (Collected.collect c.catalog target f.selections)
      refine hbelow.bind fun below => ?_
      refine hrest.bind fun more => .pure fun final hmore hbelow hfield => ?_
      exact .traversal hfield hbelow hmore
termination_by Collected.weight fields
decreasing_by
  · simp only [Collected.weight]
    omega
  · refine Nat.lt_of_le_of_lt (Collected.weight_collect_le ..) ?_
    simp only [Collected.weight]
    omega

/-- The plan of a selection has an entry for each of its collected fields. -/
theorem yields_plan (t : EntityType) (entity : String) (selections : List Selection) :
    Yields vars (c.plan t entity selections) fun final entries =>
      Outcome.Entries c vars final entity (Collected.collect c.catalog t selections) entries :=
  c.yields_planFields entity _

-- ================================================================== runs

variable {c}

/-- For no fields nothing is planned. -/
theorem run_planFields_nil (entity : String) (p : Parameters) :
    (c.planFields entity []).run p = .ok ([], p) := by
  rw [planFields]
  rfl

/-- Planning a value goes on with the fields behind it. -/
theorem run_planFields_value {f : Collected} {rest : List Collected} {entity : String}
    {e : Expression} {more : List (String × Plan)} {p q r : Parameters}
    (hf : (c.fieldPlan f entity).run p = .ok (.inl e, q))
    (hrest : (c.planFields entity rest).run q = .ok (more, r)) :
    (c.planFields entity (f :: rest)).run p = .ok ((f.key, .value e) :: more, r) := by
  rw [planFields, StateT.run_bind, hf]
  show ((c.planFields entity rest).run q >>= _) = _
  rw [hrest]
  rfl

/-- Planning a traversal goes down first, and then on. -/
theorem run_planFields_traversal {f : Collected} {rest : List Collected} {entity : String}
    {t : Traversal} {target : EntityType} {below more : List (String × Plan)}
    {p q q' r : Parameters} (hf : (c.fieldPlan f entity).run p = .ok (.inr (t, target), q))
    (hbelow : (c.planFields t.entity (Collected.collect c.catalog target f.selections)).run q
      = .ok (below, q'))
    (hrest : (c.planFields entity rest).run q' = .ok (more, r)) :
    (c.planFields entity (f :: rest)).run p = .ok ((f.key, .traversal t below) :: more, r) := by
  rw [planFields, StateT.run_bind, hf]
  show ((c.planFields t.entity _).run q >>= _) = _
  rw [hbelow]
  show ((c.planFields entity rest).run q' >>= _) = _
  rw [hrest]
  rfl

/-- What is planned for a list of fields is planned for the first one, for what
is below it, and for the others. -/
theorem run_planFields_cons {entity : String} {f : Collected} {rest : List Collected}
    {entries : List (String × Plan)} {p r : Parameters}
    (h : (c.planFields entity (f :: rest)).run p = .ok (entries, r)) :
    (∃ e q more, (c.fieldPlan f entity).run p = .ok (.inl e, q)
        ∧ (c.planFields entity rest).run q = .ok (more, r)
        ∧ entries = (f.key, .value e) :: more)
      ∨ ∃ t target q below q' more, (c.fieldPlan f entity).run p = .ok (.inr (t, target), q)
        ∧ (c.planFields t.entity (Collected.collect c.catalog target f.selections)).run q
          = .ok (below, q')
        ∧ (c.planFields entity rest).run q' = .ok (more, r)
        ∧ entries = (f.key, .traversal t below) :: more := by
  rw [planFields, StateT.run_bind] at h
  obtain ⟨⟨read, q⟩, hf, h⟩ := bind_eq_ok_iff.mp h
  -- what the field reads decides whether anything is planned below it
  cases read with
  | inl e =>
    have hbind : ((c.planFields entity rest).run q >>= fun x =>
        .ok ((f.key, Plan.value e) :: x.1, x.2)) = .ok (entries, r) := h
    obtain ⟨⟨more, q'⟩, hrest, hentries⟩ := bind_eq_ok_iff.mp hbind
    cases hentries
    exact .inl ⟨e, q, more, hf, hrest, rfl⟩
  | inr read =>
    obtain ⟨t, target⟩ := read
    have hbind : ((c.planFields t.entity (Collected.collect c.catalog target f.selections)).run q
        >>= fun x => (c.planFields entity rest).run x.2 >>= fun y =>
          .ok ((f.key, Plan.traversal t x.1) :: y.1, y.2)) = .ok (entries, r) := h
    obtain ⟨⟨below, q'⟩, hbelow, hbind⟩ := bind_eq_ok_iff.mp hbind
    obtain ⟨⟨more, q''⟩, hrest, hentries⟩ := bind_eq_ok_iff.mp hbind
    cases hentries
    exact .inr ⟨t, target, q, below, q', more, hf, hbelow, hrest, rfl⟩

end Compiler

end PropertyGraphQL
