/-
The two dialects make the same traversals.

A field is planned before it is written, and planning does not know the
dialect (`planFields_inDialect`). So both dialects fail alike and bind the
same parameters, step by step (`Compiling.Agree`), and their statements are
two writings of one plan. What a reader of the statements sees differs in
one thing alone: a property whose name begins with a caret, asked for in
descending order, is taken for another one in ascending order where the
order is written by keys (`compile_alike`).
-/
import PropertyGraphQL.Model.Sample
import PropertyGraphQL.Proofs.Dialects.Plan
import PropertyGraphQL.Proofs.Outcome.Statement

namespace PropertyGraphQL

open Cypher Compiling

-- ============================================================ agreement

/-- Two results are alike: the same error, or values that are related. -/
inductive Alike {ε α β : Type} (R : α → β → Prop) : Except ε α → Except ε β → Prop where
  | error (e : ε) : Alike R (.error e) (.error e)
  | ok {a : α} {b : β} (h : R a b) : Alike R (.ok a) (.ok b)

namespace Alike

variable {ε α β α' β' : Type} {R : α → β → Prop} {S : α' → β' → Prop}

/-- Results that are alike stay so, if the next step is alike for related values. -/
theorem bind {x : Except ε α} {y : Except ε β} {f : α → Except ε α'} {g : β → Except ε β'}
    (h : Alike R x y) (hnext : ∀ a b, R a b → Alike S (f a) (g b)) :
    Alike S (x >>= f) (y >>= g) := by
  cases h with
  | error e => exact .error e
  | ok h => exact hnext _ _ h

/-- What is related closely is related loosely. -/
theorem mono {R' : α → β → Prop} {x : Except ε α} {y : Except ε β} (h : Alike R x y)
    (himp : ∀ a b, R a b → R' a b) : Alike R' x y := by
  cases h with
  | error e => exact .error e
  | ok h => exact .ok (himp _ _ h)

/-- Results that are alike are related if those that are values are. -/
theorem of_ok {S : α → β → Prop} {x : Except ε α} {y : Except ε β} (h : Alike R x y)
    (himp : ∀ a b, x = .ok a → y = .ok b → S a b) : Alike S x y := by
  cases h with
  | error e => exact .error e
  | ok h => exact .ok (himp _ _ rfl rfl)

/-- A result is like itself. -/
theorem refl {R : α → α → Prop} (x : Except ε α) (h : ∀ a, x = .ok a → R a a) :
    Alike R x x := by
  cases x with
  | error e => exact .error e
  | ok a => exact .ok (h a rfl)

end Alike

namespace Compiling

variable {α β α' β' : Type} {R : α → β → Prop} {S : α' → β' → Prop}

/-- Two steps fail alike, or bind the same parameters and have results that are
related. -/
def Agree (R : α → β → Prop) (step : Compiling α) (step' : Compiling β) : Prop :=
  ∀ p, Alike (fun a b => R a.1 b.1 ∧ a.2 = b.2) (step.run p) (step'.run p)

namespace Agree

theorem pure {a : α} {b : β} (h : R a b) : Agree R (Pure.pure a) (Pure.pure b) :=
  fun _ => .ok ⟨h, rfl⟩

theorem throw (e : CompileError) : Agree R (MonadExcept.throw e) (MonadExcept.throw e) :=
  fun _ => .error e

/-- Steps that agree may be followed by steps that do so for related results. -/
theorem bind {step : Compiling α} {step' : Compiling β} {next : α → Compiling α'}
    {next' : β → Compiling β'} (h : Agree R step step')
    (hnext : ∀ a b, R a b → Agree S (next a) (next' b)) :
    Agree S (step >>= next) (step' >>= next') := by
  intro p
  refine (h p).bind ?_
  rintro ⟨a, q⟩ ⟨b, q'⟩ ⟨hab, heq⟩
  cases heq
  exact hnext a b hab q

/-- Both go on from the same step. -/
theorem bind_same (step : Compiling α) {next : α → Compiling α'} {next' : α → Compiling β'}
    (hnext : ∀ a, Agree S (next a) (next' a)) : Agree S (step >>= next) (step >>= next') := by
  have h : Agree (fun a b => a = b) step step := fun p => .refl _ fun _ _ => ⟨rfl, rfl⟩
  exact h.bind fun a b hab => hab ▸ hnext a

end Agree

end Compiling

-- ================================================================ dialects

/-- What is seen of a traversal in a statement of the dialect. -/
def Dialect.seen : Dialect → Emitted → Emitted
  | .staged => id
  | .comprehension => Emitted.bySortKeys

namespace Compiler

variable (c : Compiler) (d : Dialect)

/-- The compiler, writing statements of a dialect. -/
def inDialect : Compiler := { c with options := { c.options with dialect := d } }

@[simp] theorem catalog_inDialect : (c.inDialect d).catalog = c.catalog := rfl

/-- Fields are planned without regard to the dialect. -/
theorem planFields_inDialect (entity : String) (fields : List Collected) :
    (c.inDialect d).planFields entity fields = c.planFields entity fields := by
  match fields with
  | [] => rw [planFields, planFields]
  | f :: rest =>
    have hfield : (c.inDialect d).fieldPlan f entity = c.fieldPlan f entity := rfl
    have hrest := planFields_inDialect entity rest
    rw [planFields, planFields, hfield, hrest]
    refine bind_congr fun read => ?_
    cases read with
    | inl e => rfl
    | inr read =>
      obtain ⟨t, target⟩ := read
      have hbelow := planFields_inDialect t.entity
        (Collected.collect (c.inDialect d).catalog target f.selections)
      dsimp only
      rw [hbelow]
      rfl
termination_by Collected.weight fields
decreasing_by
  · simp only [Collected.weight]
    omega
  · refine Nat.lt_of_le_of_lt (Collected.weight_collect_le ..) ?_
    simp only [Collected.weight]
    omega

theorem plan_inDialect (t : EntityType) (entity : String) (selections : List Selection) :
    (c.inDialect d).plan t entity selections = c.plan t entity selections :=
  c.planFields_inDialect d entity _

/-- Projections of one plan, in both dialects. -/
def BothProjected (entity : String) (staged nested : Expression × List Clause) : Prop :=
  ∃ entries, Plan.Legible entries ∧ staged = (c.inDialect .staged).projected entity entries
    ∧ nested = (c.inDialect .comprehension).projected entity entries

/-- Both dialects plan the same, hence project the same. -/
theorem agree_project (t : EntityType) (entity : String) (selections : List Selection) :
    Agree (c.BothProjected entity) ((c.inDialect .staged).project t entity selections)
      ((c.inDialect .comprehension).project t entity selections) := by
  have hlegible : Agree (fun a b => a = b ∧ Plan.Legible a) (c.plan t entity selections)
      (c.plan t entity selections) := by
    refine fun p => .refl _ fun ⟨entries, q⟩ hrun => ⟨⟨rfl, ?_⟩, rfl⟩
    obtain ⟨-, -, hentries⟩ := c.yields_plan t entity selections rfl hrun
    exact (hentries (.refl _)).legible
  unfold project
  rw [plan_inDialect, plan_inDialect]
  refine hlegible.bind ?_
  rintro entries _ ⟨rfl, h⟩
  exact .pure ⟨entries, h, rfl, rfl⟩

/-- The projection of an entity, behind the clauses that it needs, shows the
traversals of its plan. -/
theorem walk_projected {entries : List (String × Plan)} (h : Plan.Legible entries)
    (entity key : String) (orderBy : Option OrderBy) (skip limit : Option Int) (w : Walk) :
    (((c.projected entity entries).2
        ++ [Clause.returnItems [.aliased (c.projected entity entries).1 key] orderBy skip
          limit]).foldl Walk.step w).closed
      = w.closed ++ (Plan.allTraversals entries).map c.options.dialect.seen := by
  rw [List.foldl_append]
  unfold projected
  cases c.options.dialect with
  | staged =>
    obtain ⟨list, hwalk⟩ := h.walk_stageEntries [entity] w
    dsimp only
    rw [hwalk]
    show (w.closed ++ _) ++ [] = _
    rw [List.append_nil, Dialect.seen, List.map_id]
  | comprehension =>
    show w.closed ++ (Expression.itemTraversals _ ++ []) = _
    rw [List.append_nil, h.traversals_projectionItems]
    rfl

/-- Clauses that make the same traversals, those of the second as they are seen
by keys. -/
def SameTraversals (staged nested : List Clause) : Prop :=
  Clause.traversals nested = (Clause.traversals staged).map Emitted.bySortKeys

/-- Clauses that make the same traversals behind others that make none. -/
def SameTraversalsBehind (staged nested : List Clause) : Prop :=
  ∀ front, Clause.traversals front = [] → SameTraversals (front ++ staged) (front ++ nested)

/-- The traversals of a statement are those of the plan, as the dialect shows them. -/
theorem traversals_behind {entries : List (String × Plan)} (h : Plan.Legible entries)
    (front : List Clause) (hfront : Clause.traversals front = []) (entity key : String)
    (orderBy : Option OrderBy) (skip limit : Option Int) :
    Clause.traversals (front ++ ((c.projected entity entries).2
        ++ [.returnItems [.aliased (c.projected entity entries).1 key] orderBy skip limit]))
      = (Plan.allTraversals entries).map c.options.dialect.seen := by
  unfold Clause.traversals at *
  rw [List.foldl_append, c.walk_projected h, hfront, List.nil_append]

/-- The variable of an entity may be named before anything is read from it. -/
theorem traversals_reading {entries : List (String × Plan)} (h : Plan.Legible entries)
    {front : List Clause} (hfront : Clause.traversals front = []) (entity key : String) :
    Clause.traversals (front ++ ((if (c.projected entity entries).2.isEmpty then []
          else .withItems [.carried entity] none :: (c.projected entity entries).2)
        ++ [.returnItems [.aliased (c.projected entity entries).1 key] none none none]))
      = (Plan.allTraversals entries).map c.options.dialect.seen := by
  split
  · next hnone =>
    have hbehind := c.traversals_behind h _ hfront entity key none none none
    rwa [List.isEmpty_iff.mp hnone] at hbehind
  · have hnamed : Clause.traversals (front ++ [.withItems [.carried entity] none]) = [] := by
      unfold Clause.traversals at *
      rw [List.foldl_append]
      exact hfront
    have hbehind := c.traversals_behind h _ hnamed entity key none none none
    rwa [List.append_assoc] at hbehind

/-- Clauses that show the same traversals, each in its dialect, make the same traversals. -/
theorem sameTraversals_of_seen {staged nested : List Clause} {emitted : List Emitted}
    (hstaged : Clause.traversals staged = emitted.map (c.inDialect .staged).options.dialect.seen)
    (hnested : Clause.traversals nested
      = emitted.map (c.inDialect .comprehension).options.dialect.seen) :
    SameTraversals staged nested := by
  unfold SameTraversals
  rw [hnested, hstaged]
  show emitted.map Emitted.bySortKeys = (emitted.map id).map Emitted.bySortKeys
  rw [List.map_id]

/-- The clauses that read entities make the same traversals in both dialects. -/
theorem agree_scopeClauses (f : RootField) (t : EntityType) :
    Agree SameTraversals ((c.inDialect .staged).scopeClauses f t)
      ((c.inDialect .comprehension).scopeClauses f t) := by
  unfold scopeClauses
  refine .bind_same _ fun a => (c.agree_project _ _ _).bind ?_
  rintro _ _ ⟨entries, h, rfl, rfl⟩
  refine .pure ?_
  have hclauses := fun d => (c.inDialect d).traversals_behind h
    [.matching (.node (.labelled (rootVariable t.name f.head.responseKey) t.name)) false
      a.condition] rfl (rootVariable t.name f.head.responseKey) f.head.responseKey
      (a.orderByClause (rootVariable t.name f.head.responseKey)) a.skip a.limit
  exact c.sameTraversals_of_seen (hclauses .staged) (hclauses .comprehension)

/-- The clauses that return what was changed make the same traversals in both dialects. -/
theorem agree_returning (f : RootField) (t : EntityType) (entity : String) :
    Agree SameTraversalsBehind ((c.inDialect .staged).returning f t entity)
      ((c.inDialect .comprehension).returning f t entity) := by
  unfold returning
  split
  · refine .pure fun front hfront => ?_
    have hcount : Clause.traversals (front ++ [f.head.countClause]) = [] := by
      unfold Clause.traversals at *
      rw [List.foldl_append]
      show (front.foldl Walk.step Walk.start).closed ++ [] = []
      rw [hfront]
      rfl
    unfold SameTraversals
    rw [hcount]
    rfl
  · refine (c.agree_project _ _ _).bind ?_
    rintro _ _ ⟨entries, h, rfl, rfl⟩
    refine .pure fun front hfront => ?_
    have hstaged := (c.inDialect .staged).traversals_reading h hfront entity f.head.responseKey
    have hnested := (c.inDialect .comprehension).traversals_reading h hfront entity
      f.head.responseKey
    exact c.sameTraversals_of_seen hstaged hnested

/-- The clauses that connect or disconnect entities make the same traversals in both dialects. -/
theorem agree_relateClauses (f : RootField) (t : EntityType) (r : RelationshipField)
    (connect : Bool) :
    Agree SameTraversals ((c.inDialect .staged).relateClauses f t r connect)
      ((c.inDialect .comprehension).relateClauses f t r connect) := by
  show Agree _ (c.relateClauses f t r connect) (c.relateClauses f t r connect)
  refine fun p => .refl _ fun ⟨clauses, q⟩ hrun => ⟨?_, rfl⟩
  obtain ⟨-, -, hclauses⟩ := c.yields_relateClauses f t r connect rfl hrun
  obtain ⟨-, -, -, -, -, -, -, -⟩ := hclauses (.refl _)
  cases connect with
  | true => rfl
  | false => rfl

/-- Clauses for one purpose make the same traversals in both dialects. -/
theorem agree_purposeClauses (f : RootField) (purpose : Purpose) :
    Agree SameTraversals ((c.inDialect .staged).purposeClauses f purpose)
      ((c.inDialect .comprehension).purposeClauses f purpose) := by
  cases purpose with
  | select t => exact c.agree_scopeClauses f t
  | change mutation =>
    cases mutation with
    | create t =>
      refine .bind_same _ fun given => .bind_same _ fun properties =>
        (c.agree_returning f t _).bind fun staged nested h => .pure ?_
      exact h [_, _] rfl
    | update t =>
      refine .bind_same _ fun id => .bind_same _ fun node => .bind_same _ fun given =>
        .bind_same _ fun properties =>
          (c.agree_returning f t _).bind fun staged nested h => .pure ?_
      exact h [_, _] rfl
    | delete t =>
      exact .bind_same _ fun id => .bind_same _ fun _ => .bind_same _ fun node => .pure rfl
    | addRelationship t r => exact c.agree_relateClauses f t r true
    | deleteRelationship t r => exact c.agree_relateClauses f t r false

/-- Compiled fields with the same parameters and the same traversals, those of the
second as they are seen by keys. -/
def SameQuery (staged nested : Compiled) : Prop :=
  staged.parameters = nested.parameters ∧ staged.isList = nested.isList
    ∧ nested.body.traversals = staged.body.traversals.map Emitted.bySortKeys

variable {c}

/-- What is compiled for a purpose is alike in both dialects. -/
theorem alike_finish (f : RootField) (purpose : Purpose) (vars : Dict Json) (isList : Bool) :
    Alike SameQuery
      (runWith vars ((c.inDialect .staged).purposeClauses f purpose) >>= fun (clauses, p) =>
        pure (finish f.head clauses p isList))
      (runWith vars ((c.inDialect .comprehension).purposeClauses f purpose) >>= fun (clauses, p) =>
        pure (finish f.head clauses p isList)) := by
  refine (c.agree_purposeClauses f purpose ⟨vars, []⟩).bind ?_
  rintro ⟨staged, p⟩ ⟨nested, q⟩ ⟨h, heq⟩
  cases heq
  exact .ok ⟨rfl, rfl, h⟩

/-- The statement of a declared operation is the same in both dialects. -/
theorem alike_declaredOperation (head : FieldHead) (operation : RootOperation)
    (custom : CustomStatement) (vars : Dict Json) :
    Alike SameQuery (declaredOperation head operation custom vars)
      (declaredOperation head operation custom vars) := by
  unfold declaredOperation
  exact (Alike.refl (R := Eq) _ fun _ _ => rfl).bind fun a b hab => hab ▸ .ok ⟨rfl, rfl, rfl⟩

/-- Queries are compiled alike in both dialects. -/
theorem alike_query (f : RootField) (vars : Dict Json) :
    Alike SameQuery ((c.inDialect .staged).query f vars)
      ((c.inDialect .comprehension).query f vars) := by
  unfold query
  simp only [catalog_inDialect]
  cases c.catalog.queries.get? f.head.name with
  | some operation =>
    dsimp only
    cases operation.custom with
    | some custom => exact alike_declaredOperation f.head operation custom vars
    | none =>
      cases c.catalog.type? operation.returnType.name with
      | some t => exact alike_finish f (.select t) vars _
      | none => exact .error _
  | none =>
    cases c.catalog.type? f.head.name with
    | some t => exact alike_finish f (.select t) vars true
    | none => exact .error _

/-- Changes are compiled alike in both dialects. -/
theorem alike_mutation (f : RootField) (vars : Dict Json) :
    Alike SameQuery ((c.inDialect .staged).mutation f vars)
      ((c.inDialect .comprehension).mutation f vars) := by
  unfold mutation
  simp only [catalog_inDialect]
  cases c.catalog.mutations.get? f.head.name with
  | some operation =>
    dsimp only
    cases operation.custom with
    | some custom => exact alike_declaredOperation f.head operation custom vars
    | none => exact .error _
  | none =>
    cases c.catalog.mutationNamed? f.head.name with
    | some mutation => exact alike_finish f (.change mutation) vars false
    | none => exact .error _

/-- Both dialects fail with the same error, or have the same parameters and the
same result, and their statements make the same traversals, seen by keys where
the order is written by keys. So the traversals are equal just if none is sorted
in descending order by a property whose name begins with a caret. -/
theorem compile_alike (c : Compiler) (isMutation : Bool) (f : RootField) (vars : Dict Json) :
    Alike (fun staged nested => staged.parameters = nested.parameters
        ∧ staged.isList = nested.isList
        ∧ nested.body.traversals = staged.body.traversals.map Emitted.bySortKeys
        ∧ (nested.body.traversals = staged.body.traversals
            ↔ ∀ t ∈ staged.body.traversals, t.Sortable))
      ((c.inDialect .staged).compile isMutation f vars)
      ((c.inDialect .comprehension).compile isMutation f vars) := by
  have h : Alike SameQuery ((c.inDialect .staged).compile isMutation f vars)
      ((c.inDialect .comprehension).compile isMutation f vars) := by
    cases isMutation with
    | true => exact alike_mutation f vars
    | false => exact alike_query f vars
  refine h.mono ?_
  rintro staged nested ⟨hparameters, hlist, htraversals⟩
  refine ⟨hparameters, hlist, htraversals, ?_⟩
  rw [htraversals]
  exact Emitted.map_bySortKeys_eq_self_iff _

end Compiler

-- ================================================================ a caret

/-- People and movies. Movies have a title, and another one whose name begins
with a caret. -/
def LabelSample.carets : List LabelSample :=
  [⟨"Person", [],
      [⟨["Person"], [("name", .str "Meg")], [⟨"ACTED_IN", .outgoing, ["Movie"], true⟩]⟩]⟩,
    ⟨"Movie", [], [⟨["Movie"], [("title", .str "Big"), ("^title", .str "big")], []⟩]⟩]

/-- The types of those samples. -/
def EntityType.caretPerson : EntityType :=
  { EntityType.blank "Person" with
    properties := [("name", .plain "name" (.scalar "String"))]
    relationships :=
      [("ACTED_IN_Movie", .plain "ACTED_IN_Movie" ⟨.outgoing, "ACTED_IN", "Movie"⟩ true)] }

def EntityType.caretMovie : EntityType :=
  { EntityType.blank "Movie" with
    properties :=
      [("title", .plain "title" (.scalar "String")),
        ("^title", .plain "^title" (.scalar "String"))] }

def Catalog.carets : Catalog :=
  { Catalog.empty with types := [("Person", .caretPerson), ("Movie", .caretMovie)] }

/-- A field for people with their movies, in descending order by `^title`. -/
def RootField.carets : RootField where
  head := .plain "Person"
  selections :=
    [.field ⟨"ACTED_IN_Movie", none, [("orderBy", .string "^title_desc")], []⟩
      [.field (.plain "title") []]]

/-- The plan of that field. -/
def Plan.carets : List (String × Plan) :=
  [("ACTED_IN_Movie", .traversal
      ⟨⟨.outgoing, "ACTED_IN", "Movie"⟩, true, "Movie", "person", "person_ACTED_IN_Movie",
        ⟨.always, [("^title", .descending)], none, none⟩, none⟩
      [("title", .value (.property "person_ACTED_IN_Movie" "title"))])]

theorem Catalog.ofSamples_carets : Catalog.ofSamples LabelSample.carets = .ok .carets := rfl

namespace Compiler

/-- The plan of the instance is what is compiled. -/
theorem run_carets (options : CompileOptions) :
    ((Compiler.mk .carets options).plan .caretPerson "person" RootField.carets.selections).run
      ⟨[], []⟩ = .ok (Plan.carets, ⟨[], []⟩) :=
  run_planFields_traversal rfl (run_planFields_value rfl (run_planFields_nil _ _))
    (run_planFields_nil _ _)

/-- For that field the movies are asked for in descending order by `^title` in
one dialect, and in ascending order by `title` in the other. -/
theorem orders_differ_carets :
    ∃ catalog staged nested t t', Catalog.ofSamples LabelSample.carets = .ok catalog
      ∧ (inDialect ⟨catalog, .standard⟩ .staged).compile false .carets [] = .ok staged
      ∧ (inDialect ⟨catalog, .standard⟩ .comprehension).compile false .carets [] = .ok nested
      ∧ staged.body.traversals = [t] ∧ nested.body.traversals = [t']
      ∧ t.order = [(.property "person_ACTED_IN_Movie" "^title", .descending)]
      ∧ t'.order = [(.property "person_ACTED_IN_Movie" "title", .ascending)]
      ∧ nested.body.traversals ≠ staged.body.traversals := by
  have hroot : rootVariable EntityType.caretPerson.name RootField.carets.head.responseKey
      = "person" := by decide
  have hcompiled (d : Dialect) := scopeQuery_eq_of_runs (c := inDialect ⟨.carets, .standard⟩ d)
    true hroot rfl (run_carets _)
  refine ⟨_, _, _, _, _, Catalog.ofSamples_carets, hcompiled .staged, hcompiled .comprehension,
    rfl, rfl, rfl, rfl, ?_⟩
  intro heq
  injection heq with heq
  injection heq with _ _ _ horder
  injection horder with horder
  injection horder with _ horder
  cases horder

end Compiler

end PropertyGraphQL
