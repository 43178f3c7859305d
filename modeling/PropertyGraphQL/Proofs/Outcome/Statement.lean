/-
What a field at the top comes to: the clauses of its statement.

A field that is not run as a statement of the schema selects entities of a
type or makes one of the changes that are read from its name (`Purpose`). The
clauses of each are made from what the arguments ask and from the plan of
the selection, whatever the dialect (`clauses_of_translates`).
-/
import PropertyGraphQL.Compile.Mutation
import PropertyGraphQL.Proofs.Outcome.Plan
import PropertyGraphQL.Proofs.Semantics.Movies

namespace PropertyGraphQL

open Cypher Compiling

/-- What the clauses of a field do. -/
inductive Purpose where
  | select (t : EntityType)
  | change (mutation : GeneratedMutation)

namespace Compiler

/-- What the clauses of a field of an operation do; nothing for a field that
the schema declares with a statement, and for an unknown one. -/
def purpose? (c : Compiler) (isMutation : Bool) (f : RootField) : Option Purpose :=
  if isMutation then
    match c.catalog.mutations.get? f.head.name with
    | some _ => none
    | none => (c.catalog.mutationNamed? f.head.name).map .change
  else
    match c.catalog.queries.get? f.head.name with
    | some operation =>
        match operation.custom with
        | some _ => none
        | none => (c.catalog.type? operation.returnType.name).map .select
    | none => (c.catalog.type? f.head.name).map .select

/-- A field is compiled to a statement for its purpose: as a field of an
operation, or for entities of a given type. -/
inductive Translates (c : Compiler) (f : RootField) (vars : Dict Json) :
    Purpose → Compiled → Prop where
  | compile {isMutation : Bool} {purpose : Purpose} {compiled : Compiled}
      (hpurpose : c.purpose? isMutation f = some purpose)
      (h : c.compile isMutation f vars = .ok compiled) : Translates c f vars purpose compiled
  | queryOn {t : EntityType} {compiled : Compiled}
      (h : c.queryOn f t vars = .ok compiled) : Translates c f vars (.select t) compiled

/-- The clauses of a purpose. -/
def purposeClauses (c : Compiler) (f : RootField) : Purpose → Compiling (List Clause)
  | .select t => c.scopeClauses f t
  | .change mutation => c.mutationClauses f mutation

/-- The projection of an entity from its plan, behind the clauses that it
needs. -/
def projected (c : Compiler) (entity : String) (entries : List (String × Plan)) :
    Expression × List Clause :=
  match c.options.dialect with
  | .comprehension =>
      (.projection entity (Plan.projectionItems c.options.sortFunction entity entries), [])
  | .staged =>
      let stage := Plan.stageEntries [entity] entries
      (.map stage.result, stage.clauses)

end Compiler

-- =============================================================== outcomes

namespace Outcome

variable (c : Compiler) (vars parameters : Dict Json)

/-- A node is told by the value of its identifying property. -/
inductive Identified (head : FieldHead) (t : EntityType) (id : PropertyField)
    (entity : String) : NodePattern → Prop where
  | intro {x : Value} {j : Json} {e : Expression} (hx : head.arguments.get? id.name = some x)
      (hj : x.StandsFor vars j) (he : e.BoundTo parameters j) :
      Identified head t id entity ⟨some entity, [t.name], [(id.name, e)]⟩

/-- The values of stored properties that the arguments give, one excepted. -/
def Stored (head : FieldHead) (t : EntityType) (excluded : Option String)
    (given : Dict Json) : Prop :=
  List.Forall₂ (fun argument entry => entry.1 = argument.1
      ∧ argument.2.StandsFor vars entry.2
      ∧ ∃ property, t.property? argument.1 = some property ∧ property.isStored = true)
    (head.arguments.filter fun (name, _) => excluded ≠ some name) given

/-- Behind a change comes what is selected of the node, or the number of
rows. -/
inductive Returning (f : RootField) (t : EntityType) (entity : String) :
    List Clause → Prop where
  | count (h : f.selections = []) : Returning f t entity [f.head.countClause]
  | selected {entries : List (String × Plan)} (h : f.selections ≠ [])
      (hentries : Entries c vars parameters entity (Collected.collect c.catalog t f.selections)
        entries) :
      Returning f t entity
        ((if (c.projected entity entries).2.isEmpty then []
            else .withItems [.carried entity] none :: (c.projected entity entries).2)
          ++ [.returnItems [.aliased (c.projected entity entries).1 f.head.responseKey]
            none none none])

/-- Two nodes whose relationship is made or unmade: the first is told by its
identifying property, the others by a list of identifiers. -/
inductive Relating (f : RootField) (t : EntityType) (r : RelationshipField)
    (connect : Bool) : List Clause → Prop where
  | intro {id targetId : PropertyField} {target : EntityType} {source : NodePattern}
      {x : Value} {j : Json} {ids : Expression} (hid : t.idPropertyField? = some id)
      (htarget : c.catalog.type? r.shape.targetType = some target)
      (htargetId : target.idPropertyField? = some targetId)
      (hallowed : ∀ name ∈ f.head.arguments.keys, name ∈ [id.name, r.name])
      (hsource : Identified vars parameters f.head t id "from" source)
      (hx : f.head.arguments.get? r.name = some x) (hj : x.StandsFor vars j)
      (hids : ids.BoundTo parameters (Compiler.targetIds j)) :
      Relating f t r connect
        (.matching (.node source) false .always
          :: (if connect then
              [.matching (.node (.labelled "to" target.name)) false
                  (.compare .member (.property "to" targetId.name) ids),
                .merge ((Pattern.node (.named "from")).related
                  ⟨none, r.shape.relationshipType, r.shape.direction⟩ (.named "to"))]
            else
              [.matching ((Pattern.node (.named "from")).related
                  ⟨some "r", r.shape.relationshipType, r.shape.direction⟩
                  (.labelled "to" target.name)) false
                  (.compare .member (.property "to" targetId.name) ids),
                .delete ["r"] false])
            ++ [f.head.countClause])

/-- The clauses that a field comes to. -/
inductive Clauses (f : RootField) : Purpose → List Clause → Prop where
  | select {t : EntityType} {a : ScopeArguments} {entries : List (String × Plan)}
      (ha : Arguments c.catalog vars parameters t (rootVariable t.name f.head.responseKey) []
        f.head.arguments a)
      (hentries : Entries c vars parameters (rootVariable t.name f.head.responseKey)
        (Collected.collect c.catalog t f.selections) entries) :
      Clauses f (.select t)
        (.matching (.node (.labelled (rootVariable t.name f.head.responseKey) t.name)) false
            a.condition
          :: (c.projected (rootVariable t.name f.head.responseKey) entries).2
            ++ [.returnItems
              [.aliased (c.projected (rootVariable t.name f.head.responseKey) entries).1
                f.head.responseKey]
              (a.orderByClause (rootVariable t.name f.head.responseKey)) a.skip a.limit])
  | create {t : EntityType} {given : Dict Json} {properties : Expression}
      {returning : List Clause} (hgiven : Stored vars f.head t none given)
      (hproperties : properties.BoundTo parameters (.obj (t.withDefaults given)))
      (hreturning : Returning c vars parameters f t (rootVariable t.name f.head.responseKey)
        returning) :
      Clauses f (.change (.create t))
        (.create (.node ⟨some (rootVariable t.name f.head.responseKey), t.allLabels, []⟩)
          :: .set [.replace (rootVariable t.name f.head.responseKey) properties] :: returning)
  | update {t : EntityType} {id : PropertyField} {node : NodePattern} {given : Dict Json}
      {properties : Expression} {returning : List Clause}
      (hid : t.idPropertyField? = some id)
      (hnode : Identified vars parameters f.head t id
        (rootVariable t.name f.head.responseKey) node)
      (hgiven : Stored vars f.head t (some id.name) given)
      (hproperties : properties.BoundTo parameters (.obj given))
      (hreturning : Returning c vars parameters f t (rootVariable t.name f.head.responseKey)
        returning) :
      Clauses f (.change (.update t))
        (.matching (.node node) false .always
          :: .set [.merge (rootVariable t.name f.head.responseKey) properties] :: returning)
  | delete {t : EntityType} {id : PropertyField} {node : NodePattern}
      (hid : t.idPropertyField? = some id)
      (hallowed : ∀ name ∈ f.head.arguments.keys, name ∈ [id.name])
      (hnode : Identified vars parameters f.head t id
        (rootVariable t.name f.head.responseKey) node) :
      Clauses f (.change (.delete t))
        [.matching (.node node) false .always,
          .delete [rootVariable t.name f.head.responseKey] true, f.head.countClause]
  | connect {t : EntityType} {r : RelationshipField} {clauses : List Clause}
      (h : Relating c vars parameters f t r true clauses) :
      Clauses f (.change (.addRelationship t r)) clauses
  | disconnect {t : EntityType} {r : RelationshipField} {clauses : List Clause}
      (h : Relating c vars parameters f t r false clauses) :
      Clauses f (.change (.deleteRelationship t r)) clauses

end Outcome

-- ================================================================ success

namespace FieldHead

variable {vars : Dict Json} (head : FieldHead) (t : EntityType)

/-- If no argument is rejected, all are allowed. -/
theorem yields_allowOnly (allowed : List String) :
    Yields vars (head.allowOnly t allowed)
      fun _ _ => ∀ name ∈ head.arguments.keys, name ∈ allowed := by
  unfold allowOnly
  split
  · exact .throw
  · next hnone =>
    refine .pure fun _ name hname => ?_
    have h := List.find?_eq_none.mp hnone name hname
    simpa using h

/-- The property that identifies an entity is that of its type. -/
theorem yields_idProperty :
    Yields vars (head.idProperty t) fun _ id => t.idPropertyField? = some id := by
  unfold idProperty
  split
  · next id hid => exact .pure fun _ => hid
  · exact .throw

/-- The node that is matched by the value of that property. -/
theorem yields_identifiedNode (id : PropertyField) (entity : String) :
    Yields vars (head.identifiedNode t id entity)
      fun final node => Outcome.Identified vars final head t id entity node := by
  unfold identifiedNode
  cases hx : head.arguments.get? id.name with
  | none => exact .throw
  | some x =>
    refine (yields_resolve x).bind fun j => (yields_bind id.name j).bind fun e =>
      .pure fun _ he hj => ?_
    exact .intro hx hj he

/-- The values that are stored are those of the arguments. -/
theorem yields_storedProperties (excluded : Option String) :
    Yields vars (head.storedProperties t excluded)
      fun _ given => Outcome.Stored vars head t excluded given := by
  unfold storedProperties
  refine Yields.mapM _ ?_
  intro argument _
  obtain ⟨name, x⟩ := argument
  dsimp only
  split
  · next property hproperty =>
    split
    · next hstored =>
      refine (yields_resolve x).bind fun j => .pure fun _ hj => ?_
      exact ⟨rfl, hj, property, hproperty, hstored⟩
    · exact .throw
  · exact .throw

end FieldHead

namespace Compiler

variable {vars : Dict Json} (c : Compiler)

/-- A projection is made from what is planned for the collected fields. -/
theorem yields_project (t : EntityType) (entity : String) (selections : List Selection) :
    Yields vars (c.project t entity selections) fun final projection =>
      ∃ entries, projection = c.projected entity entries
        ∧ Outcome.Entries c vars final entity (Collected.collect c.catalog t selections)
          entries := by
  unfold project
  refine (c.yields_plan t entity selections).bind fun entries => ?_
  unfold projected
  cases c.options.dialect with
  | comprehension => exact .pure fun _ h => ⟨entries, rfl, h⟩
  | staged => exact .pure fun _ h => ⟨entries, rfl, h⟩

/-- What the clauses come to that read entities. -/
theorem yields_scopeClauses (f : RootField) (t : EntityType) :
    Yields vars (c.scopeClauses f t)
      fun final clauses => Outcome.Clauses c vars final f (.select t) clauses := by
  unfold scopeClauses
  refine (ScopeArguments.yields_ofArguments _ _ _ _ _).bind fun a =>
    (c.yields_project _ _ _).bind fun projection => ?_
  obtain ⟨projection, nested⟩ := projection
  refine .pure ?_
  rintro final ⟨entries, heq, hentries⟩ ha
  obtain ⟨rfl, rfl⟩ := Prod.mk.inj heq
  exact .select ha hentries

/-- What the clauses come to that return a changed entity, or count what was changed. -/
theorem yields_returning (f : RootField) (t : EntityType) (entity : String) :
    Yields vars (c.returning f t entity)
      fun final clauses => Outcome.Returning c vars final f t entity clauses := by
  unfold returning
  split
  · next h => exact .pure fun _ => .count (List.isEmpty_iff.mp h)
  · next h =>
    refine (c.yields_project t entity f.selections).bind fun projection => ?_
    obtain ⟨projection, nested⟩ := projection
    refine .pure ?_
    rintro final ⟨entries, heq, hentries⟩
    obtain ⟨rfl, rfl⟩ := Prod.mk.inj heq
    exact .selected (fun hempty => h (List.isEmpty_iff.mpr hempty)) hentries

/-- What the clauses come to that create an entity. -/
theorem yields_createClauses (f : RootField) (t : EntityType) :
    Yields vars (c.createClauses f t)
      fun final clauses => Outcome.Clauses c vars final f (.change (.create t)) clauses := by
  unfold createClauses
  refine (f.head.yields_storedProperties t none).bind fun given =>
    (yields_bind "properties" _).bind fun properties =>
      (c.yields_returning f t _).bind fun returning => .pure ?_
  intro final hreturning hproperties hgiven
  exact .create hgiven hproperties hreturning

/-- What the clauses come to that update an entity. -/
theorem yields_updateClauses (f : RootField) (t : EntityType) :
    Yields vars (c.updateClauses f t)
      fun final clauses => Outcome.Clauses c vars final f (.change (.update t)) clauses := by
  unfold updateClauses
  refine (f.head.yields_idProperty t).bind fun id =>
    (f.head.yields_identifiedNode t id _).bind fun node =>
      (f.head.yields_storedProperties t _).bind fun given =>
        (yields_bind "properties" _).bind fun properties =>
          (c.yields_returning f t _).bind fun returning => .pure ?_
  intro final hreturning hproperties hgiven hnode hid
  exact .update hid hnode hgiven hproperties hreturning

/-- What the clauses come to that delete an entity. -/
theorem yields_deleteClauses (f : RootField) (t : EntityType) :
    Yields vars (deleteClauses f t)
      fun final clauses => Outcome.Clauses c vars final f (.change (.delete t)) clauses := by
  unfold deleteClauses
  refine (f.head.yields_idProperty t).bind fun id =>
    (f.head.yields_allowOnly t _).bind fun _ =>
      (f.head.yields_identifiedNode t id _).bind fun node => .pure ?_
  intro final hnode hallowed hid
  exact .delete hid hallowed hnode

/-- What the clauses come to that connect or disconnect two entities. -/
theorem yields_relateClauses (f : RootField) (t : EntityType) (r : RelationshipField)
    (connect : Bool) :
    Yields vars (c.relateClauses f t r connect)
      fun final clauses => Outcome.Relating c vars final f t r connect clauses := by
  unfold relateClauses
  refine (f.head.yields_idProperty t).bind fun id => ?_
  cases htarget : c.catalog.type? r.shape.targetType with
  | none => exact .throw
  | some target =>
    refine (f.head.yields_idProperty target).bind fun targetId =>
      (f.head.yields_allowOnly t _).bind fun _ =>
        (f.head.yields_identifiedNode t id _).bind fun source => ?_
    cases hx : f.head.arguments.get? r.name with
    | none => exact .throw
    | some x =>
      refine (yields_resolve x).bind fun j => (yields_bind r.name _).bind fun ids => .pure ?_
      intro final hids hj hsource hallowed htargetId hid
      exact .intro hid htarget htargetId hallowed hsource hx hj hids

/-- What the clauses of every purpose come to. -/
theorem yields_purposeClauses (f : RootField) (purpose : Purpose) :
    Yields vars (c.purposeClauses f purpose)
      fun final clauses => Outcome.Clauses c vars final f purpose clauses := by
  cases purpose with
  | select t => exact c.yields_scopeClauses f t
  | change mutation =>
    cases mutation with
    | create t => exact c.yields_createClauses f t
    | update t => exact c.yields_updateClauses f t
    | delete t => exact c.yields_deleteClauses f t
    | addRelationship t r =>
      exact (c.yields_relateClauses f t r true).mono fun _ _ h => .connect h
    | deleteRelationship t r =>
      exact (c.yields_relateClauses f t r false).mono fun _ _ h => .disconnect h

variable {c}

/-- The clauses of a purpose, compiled with nothing bound before. -/
def compileFor (c : Compiler) (f : RootField) (purpose : Purpose) (vars : Dict Json)
    (isList : Bool) : Except CompileError Compiled := do
  let (clauses, p) ← runWith vars (c.purposeClauses f purpose)
  return finish f.head clauses p isList

/-- A field is compiled by running the clauses of its purpose, with nothing bound before. -/
theorem compileFor_eq_ok {f : RootField} {purpose : Purpose} {isList : Bool}
    {compiled : Compiled} (h : c.compileFor f purpose vars isList = .ok compiled) :
    ∃ clauses p, (c.purposeClauses f purpose).run ⟨vars, []⟩ = .ok (clauses, p)
      ∧ compiled = finish f.head clauses p isList := by
  unfold compileFor at h
  obtain ⟨⟨clauses, p⟩, hrun, h⟩ := bind_eq_ok_iff.mp h
  cases h
  exact ⟨clauses, p, hrun, rfl⟩

/-- A query is compiled by running the clauses that read entities, with nothing bound before. -/
theorem scopeQuery_eq_ok {f : RootField} {t : EntityType} {isList : Bool}
    {compiled : Compiled} (h : c.scopeQuery f t vars isList = .ok compiled) :
    ∃ clauses p, (c.purposeClauses f (.select t)).run ⟨vars, []⟩ = .ok (clauses, p)
      ∧ compiled = finish f.head clauses p isList :=
  compileFor_eq_ok h

/-- Entities are selected as soon as what the arguments ask of them and the
plan of the selection are known. -/
theorem scopeQuery_eq_of_runs {f : RootField} {t : EntityType} (isList : Bool)
    {entity : String} {a : ScopeArguments} {entries : List (String × Plan)} {p q : Parameters}
    (hroot : rootVariable t.name f.head.responseKey = entity)
    (ha : (ScopeArguments.ofArguments c.catalog t entity [] f.head.arguments).run ⟨vars, []⟩
      = .ok (a, p))
    (hplan : (c.plan t entity f.selections).run p = .ok (entries, q)) :
    c.scopeQuery f t vars isList = .ok (finish f.head
      (.matching (.node (.labelled entity t.name)) false a.condition
        :: (c.projected entity entries).2
          ++ [.returnItems [.aliased (c.projected entity entries).1 f.head.responseKey]
            (a.orderByClause entity) a.skip a.limit]) q isList) := by
  have hproject : (c.project t entity f.selections).run p
      = .ok (c.projected entity entries, q) := by
    unfold project projected
    rw [StateT.run_bind, hplan]
    cases c.options.dialect with
    | staged | comprehension => rfl
  unfold scopeQuery scopeClauses runWith
  dsimp only
  rw [hroot, StateT.run_bind, ha]
  show (((c.project t entity f.selections).run p >>= _) >>= _) = _
  rw [hproject]
  rfl

/-- A field of an operation is compiled for its purpose, runs the statement that is
declared for it, or is unknown. Which of these it is hangs on its head alone. -/
theorem compile_cases (c : Compiler) (isMutation : Bool) (head : FieldHead) :
    (∃ purpose isList, ∀ ss, c.purpose? isMutation ⟨head, ss⟩ = some purpose
      ∧ ∀ vars, c.compile isMutation ⟨head, ss⟩ vars
        = c.compileFor ⟨head, ss⟩ purpose vars isList)
    ∨ (∃ operation custom, ∀ ss, c.purpose? isMutation ⟨head, ss⟩ = none
      ∧ ∀ vars, c.compile isMutation ⟨head, ss⟩ vars
        = declaredOperation head operation custom vars)
    ∨ ∃ e, ∀ ss, c.purpose? isMutation ⟨head, ss⟩ = none
      ∧ ∀ vars, c.compile isMutation ⟨head, ss⟩ vars = .error e := by
  unfold purpose? Compiler.compile mutation query
  dsimp only
  cases isMutation with
  | true =>
    -- declared operations come first, with a statement of their own or not at all
    cases c.catalog.mutations.get? head.name with
    | some operation =>
      cases hcustom : operation.custom with
      | some custom =>
        right; left
        exact ⟨operation, custom, fun _ => by simp [hcustom]⟩
      | none =>
        right; right
        exact ⟨.missingStatement head.name, fun _ => by simp [hcustom]⟩
    | none =>
      cases c.catalog.mutationNamed? head.name with
      | some mutation => exact .inl ⟨.change mutation, false, fun _ => ⟨rfl, fun _ => rfl⟩⟩
      | none => exact .inr (.inr ⟨_, fun _ => ⟨rfl, fun _ => rfl⟩⟩)
  | false =>
    cases c.catalog.queries.get? head.name with
    | some operation =>
      cases hcustom : operation.custom with
      | some custom =>
        right; left
        exact ⟨operation, custom, fun _ => by simp [hcustom]⟩
      | none =>
        -- a declared query without a statement selects the type it returns
        cases htype : c.catalog.type? operation.returnType.name with
        | some t =>
          left
          exact ⟨.select t, operation.returnType.isList, fun _ => by
            simp [hcustom, htype, scopeQuery, compileFor, purposeClauses]⟩
        | none =>
          right; right
          exact ⟨.unknownType operation.returnType.name, fun _ => by simp [hcustom, htype]⟩
    | none =>
      cases c.catalog.type? head.name with
      | some t => exact .inl ⟨.select t, true, fun _ => ⟨rfl, fun _ => rfl⟩⟩
      | none => exact .inr (.inr ⟨_, fun _ => ⟨rfl, fun _ => rfl⟩⟩)

/-- A translation runs the steps of its purpose from no parameters. -/
theorem run_of_translates {f : RootField} {purpose : Purpose} {compiled : Compiled}
    (h : c.Translates f vars purpose compiled) :
    ∃ clauses p isList, (c.purposeClauses f purpose).run ⟨vars, []⟩ = .ok (clauses, p)
      ∧ compiled = finish f.head clauses p isList := by
  cases h with
  | queryOn h =>
    obtain ⟨clauses, p, hrun, rfl⟩ := scopeQuery_eq_ok h
    exact ⟨clauses, p, true, hrun, rfl⟩
  | @compile isMutation _ _ hpurpose h =>
    obtain ⟨head, ss⟩ := f
    rcases c.compile_cases isMutation head with
      ⟨purpose', isList, hcases⟩ | ⟨_, _, hcases⟩ | ⟨_, hcases⟩
    · rw [(hcases ss).1] at hpurpose
      cases hpurpose
      rw [(hcases ss).2] at h
      obtain ⟨clauses, p, hrun, rfl⟩ := compileFor_eq_ok h
      exact ⟨clauses, p, isList, hrun, rfl⟩
    · rw [(hcases ss).1] at hpurpose
      cases hpurpose
    · rw [(hcases ss).1] at hpurpose
      cases hpurpose

/-- The clauses of a translation are those of its purpose, under the parameters
that it returns. -/
theorem clauses_of_translates {f : RootField} {purpose : Purpose} {compiled : Compiled}
    (h : c.Translates f vars purpose compiled) :
    ∃ clauses, compiled.body = .clauses ⟨f.head.planReport?, clauses⟩
      ∧ Outcome.Clauses c vars compiled.parameters f purpose clauses := by
  obtain ⟨clauses, p, isList, hrun, rfl⟩ := run_of_translates h
  exact ⟨clauses, rfl, (c.yields_purposeClauses f purpose).of_run hrun⟩

end Compiler

-- ============================================================= an instance

/-- A field for people with the movies they act in, and who else acts in
those. -/
def RootField.people : RootField where
  head := ⟨"Person", none, [("name", .var "name"), ("first", .int 3)], []⟩
  selections :=
    [.field (.plain "name") [],
      .field ⟨"movies", none,
          [("released_gt", .var "year"), ("orderBy", .enum "title_asc")], []⟩
        [.field (.plain "title") [], .field (.plain "actors") [.field (.plain "name") []]]]

/-- Values of the variables of that field. -/
def RootField.peopleVars : Dict Json := [("name", .str "Laurence"), ("year", .int 1999)]

/-- A compiler for the graph of movies. -/
def Compiler.movies (dialect : Dialect) : Compiler :=
  ⟨.movies, { CompileOptions.standard with dialect }⟩

/-- The field is compiled in both dialects. -/
theorem Compiler.queryOn_people (dialect : Dialect) :
    ∃ compiled, (Compiler.movies dialect).queryOn .people .person RootField.peopleVars
      = .ok compiled := by
  have hroot : rootVariable EntityType.person.name RootField.people.head.responseKey
      = "person" := by decide
  -- one term: what is planned further in is known only from the steps before it
  exact ⟨_, scopeQuery_eq_of_runs true hroot rfl
    (run_planFields_value rfl
      (run_planFields_traversal rfl
        (run_planFields_value rfl
          (run_planFields_traversal rfl
            (run_planFields_value rfl (run_planFields_nil _ _))
            (run_planFields_nil _ _)))
        (run_planFields_nil _ _)))⟩

/-- The field for people is translated in both dialects. -/
theorem Compiler.translates_people (dialect : Dialect) :
    ∃ compiled, (Compiler.movies dialect).Translates .people RootField.peopleVars
      (.select .person) compiled := by
  obtain ⟨compiled, h⟩ := queryOn_people dialect
  exact ⟨compiled, .queryOn h⟩

end PropertyGraphQL
