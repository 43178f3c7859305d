/-
When a staged translation is fresh.

The clauses of a field go around those of its plan, and they are fresh
whatever the field is for. So a staged translation is fresh exactly if the
names of its plan are apart. The names of two plans may clash: the key of
one field may be made of the keys of others (`RootField.clashing`).
-/
import PropertyGraphQL.Proofs.Freshness.Plan
import PropertyGraphQL.Proofs.Scope.Statement

namespace PropertyGraphQL

open Cypher

variable {c : Compiler} {vars parameters : Dict Json} {f : RootField} {entity : String}

-- ================================================================== plans

namespace Outcome

/-- What is planned for a field: the selection of the entities that it
selects, or of the node that it writes. -/
inductive Planned (c : Compiler) (vars parameters : Dict Json) (f : RootField) :
    Purpose → List (String × Plan) → Prop where
  | select {t : EntityType} {entries : List (String × Plan)}
      (h : Entries c vars parameters (rootVariable t.name f.head.responseKey)
        (Collected.collect c.catalog t f.selections) entries) :
      Planned c vars parameters f (.select t) entries
  | create {t : EntityType} {entries : List (String × Plan)}
      (h : Entries c vars parameters (rootVariable t.name f.head.responseKey)
        (Collected.collect c.catalog t f.selections) entries) :
      Planned c vars parameters f (.change (.create t)) entries
  | update {t : EntityType} {entries : List (String × Plan)}
      (h : Entries c vars parameters (rootVariable t.name f.head.responseKey)
        (Collected.collect c.catalog t f.selections) entries) :
      Planned c vars parameters f (.change (.update t)) entries
  | delete {t : EntityType} : Planned c vars parameters f (.change (.delete t)) []
  | connect {t : EntityType} {r : RelationshipField} :
      Planned c vars parameters f (.change (.addRelationship t r)) []
  | disconnect {t : EntityType} {r : RelationshipField} :
      Planned c vars parameters f (.change (.deleteRelationship t r)) []

end Outcome

namespace Plan.Formed

variable {entries : List (String × Plan)}

/-- Where the entity alone is in scope, names that are apart are fresh: all of
them are longer than that of the entity. -/
theorem allFreshIn_iff_apart (h : Formed parameters entity entries) :
    Clause.AllFreshIn [entity] (stageEntries [entity] entries).clauses ↔ AllApart entries := by
  have hnew : ∀ name ∈ allIntroduced entries, name ∉ [entity] := fun name hname hmem =>
    (h.introduced_below name hname).ne (List.mem_singleton.mp hmem)
  rw [h.allFreshIn_iff (List.nodup_singleton entity) (List.Subset.refl _) List.mem_cons_self]
  constructor
  · exact fun hfits => hfits.apart
  · intro hapart
    exact ⟨fun name hname => hnew name (h.introducedFirst_subset hname), hnew, hapart⟩

end Plan.Formed

-- ================================================================= clauses

/-- In the staged dialect, what is projected is the result of the stages, behind their clauses. -/
theorem Compiler.projected_staged (hstaged : c.options.dialect = .staged) (entity : String)
    (entries : List (String × Plan)) :
    c.projected entity entries
      = (.map (Plan.stageEntries [entity] entries).result,
        (Plan.stageEntries [entity] entries).clauses) := by
  unfold projected
  rw [hstaged]

/-- A pattern of one node is fresh where the node is not in scope. -/
theorem Cypher.NodePattern.freshIn_node {scope labels : List String}
    {properties : List (String × Expression)}
    (hproperties : ∀ entry ∈ properties, entry.2.FreshIn scope) (h : entity ∉ scope) :
    (Pattern.node ⟨some entity, labels, properties⟩).FreshIn scope := by
  refine ⟨fun name hname => ?_, List.nodup_singleton entity,
    Expression.entriesFreshIn_iff.mpr hproperties, trivial⟩
  rw [List.mem_singleton.mp hname]
  exact h

/-- Returning one column is fresh if the column is. -/
theorem Cypher.Clause.freshIn_returning {scope : List String} {e : Expression} {key : String}
    (he : e.FreshIn scope) {orderBy : Option OrderBy} (horder : OrderBy.FreshIn scope orderBy)
    (skip limit : Option Int) :
    Clause.AllFreshIn scope [.returnItems [.aliased e key] orderBy skip limit] := by
  refine ⟨⟨fun item hitem => ?_, horder⟩, trivial⟩
  rw [List.mem_singleton.mp hitem]
  exact he

/-- Returning the number of rows is fresh. -/
theorem FieldHead.freshIn_countClause (head : FieldHead) (scope : List String) :
    Clause.AllFreshIn scope [head.countClause] :=
  Clause.freshIn_returning (e := .countAll) trivial (OrderBy.freshIn_none scope) none none

/-- Selecting entities is fresh exactly if their plan is apart. -/
theorem Plan.Formed.allFreshIn_selecting_iff {entries : List (String × Plan)}
    (hstaged : c.options.dialect = .staged) (h : Plan.Formed parameters entity entries)
    {condition : Predicate} (hcondition : condition.FreshIn [entity]) {orderBy : Option OrderBy}
    (horder : ∀ scope, OrderBy.FreshIn scope orderBy) (skip limit : Option Int)
    {label key : String} :
    Clause.AllFreshIn [] (.matching (.node (.labelled entity label)) false condition
        :: (c.projected entity entries).2
          ++ [.returnItems [.aliased (c.projected entity entries).1 key] orderBy skip limit])
      ↔ AllApart entries := by
  rw [c.projected_staged hstaged, ← h.allFreshIn_iff_apart]
  constructor
  · rintro ⟨-, hrest⟩
    exact (Clause.allFreshIn_append.mp hrest).1
  · intro hfresh
    refine ⟨⟨NodePattern.freshIn_node (List.forall_mem_nil _) List.not_mem_nil, hcondition⟩,
      Clause.allFreshIn_append.mpr ⟨hfresh, ?_⟩⟩
    exact Clause.freshIn_returning (h.projection_freshIn _ _) (horder _) skip limit

namespace Outcome

/-- A node that is matched by its properties is new where nothing is in scope. -/
theorem Identified.freshIn {head : FieldHead} {t : EntityType} {id : PropertyField}
    {node : NodePattern} (h : Identified vars parameters head t id entity node) :
    (Clause.matching (.node node) false .always).FreshIn [] := by
  obtain ⟨-, -, he⟩ := h
  refine ⟨NodePattern.freshIn_node ?_ List.not_mem_nil, trivial⟩
  intro entry hentry
  rw [List.mem_singleton.mp hentry]
  exact he.ground.freshIn

/-- What is returned behind a change is fresh exactly if its plan is apart. -/
theorem Returning.freshIn_iff {t : EntityType} {clauses : List Clause}
    (hstaged : c.options.dialect = .staged)
    (h : Returning c vars parameters f t entity clauses) :
    ∃ entries, Entries c vars parameters entity (Collected.collect c.catalog t f.selections)
        entries
      ∧ (Clause.AllFreshIn [entity] clauses ↔ Plan.AllApart entries) := by
  cases h with
  | count hempty =>
    refine ⟨[], ?_, fun _ => trivial, fun _ => f.head.freshIn_countClause [entity]⟩
    rw [hempty]
    exact .nil
  | @selected entries hne hentries =>
    refine ⟨entries, hentries, ?_⟩
    rw [c.projected_staged hstaged]
    dsimp only
    have hnested := hentries.formed.allFreshIn_iff_apart
    have hreturn : ∀ scope : List String, Clause.AllFreshIn scope
        [.returnItems [.aliased (.map (Plan.stageEntries [entity] entries).result)
          f.head.responseKey] none none none] := fun scope =>
      Clause.freshIn_returning (hentries.formed.projection_freshIn _ scope)
        (OrderBy.freshIn_none scope) none none
    split
    · next hisEmpty =>
      rw [List.isEmpty_iff.mp hisEmpty] at hnested
      rw [← hnested]
      exact ⟨fun _ => trivial, fun _ => hreturn [entity]⟩
    · rw [← hnested]
      constructor
      · rintro ⟨-, hrest⟩
        exact (Clause.allFreshIn_append.mp hrest).1
      · intro hfresh
        refine ⟨⟨List.nodup_singleton entity, fun item hitem => ?_, OrderBy.freshIn_none _⟩,
          Clause.allFreshIn_append.mpr ⟨hfresh, hreturn _⟩⟩
        rw [List.mem_singleton.mp hitem]
        exact ⟨trivial, fun _ hrename => (by cases hrename)⟩

/-- Relating two nodes is fresh, and so is the undoing of it. -/
theorem Relating.freshIn {t : EntityType} {r : RelationshipField} {connect : Bool}
    {clauses : List Clause} (h : Relating c vars parameters f t r connect clauses) :
    Clause.AllFreshIn [] clauses := by
  obtain ⟨-, -, -, -, hsource, -, -, hids⟩ := h
  refine ⟨hsource.freshIn, ?_⟩
  rw [Clause.scopeAfter, hsource.introduced]
  split
  · have hto : "to" ∉ ["from"] := by decide
    exact ⟨⟨NodePattern.freshIn_node (List.forall_mem_nil _) hto, trivial,
      hids.ground.freshIn⟩, ⟨trivial, trivial, trivial⟩, f.head.freshIn_countClause _⟩
  · refine ⟨⟨⟨?_, ?_, trivial, trivial, trivial⟩, trivial, hids.ground.freshIn⟩, trivial,
      f.head.freshIn_countClause _⟩
    · show ∀ name ∈ ["r", "to"], name ∉ ["from"]
      decide
    · show ["r", "to"].Nodup
      decide

/-- The staged clauses that a field comes to are fresh exactly if its plan is
apart. -/
theorem Clauses.freshIn_iff {purpose : Purpose} {clauses : List Clause}
    (hstaged : c.options.dialect = .staged)
    (h : Clauses c vars parameters f purpose clauses) :
    ∃ entries, Planned c vars parameters f purpose entries
      ∧ (Clause.AllFreshIn [] clauses ↔ Plan.AllApart entries) := by
  cases h with
  | @select t a entries ha hentries =>
    refine ⟨entries, .select hentries, ?_⟩
    refine hentries.formed.allFreshIn_selecting_iff hstaged (ha.filtering.freshIn_iff.mpr ?_)
      (Traversal.orderByClause_freshIn a _) a.skip a.limit
    intro name hname hmem
    exact (ha.filtering.binders_below name hname).ne (List.mem_singleton.mp hmem)
  | create _ hproperties hreturning =>
    obtain ⟨entries, hentries, hiff⟩ := hreturning.freshIn_iff hstaged
    refine ⟨entries, .create hentries, ?_⟩
    rw [← hiff]
    constructor
    · rintro ⟨-, -, hrest⟩
      exact hrest
    · intro hrest
      refine ⟨NodePattern.freshIn_node (List.forall_mem_nil _) List.not_mem_nil, ?_, hrest⟩
      intro item hitem
      rw [List.mem_singleton.mp hitem]
      exact hproperties.ground.freshIn
  | update _ hnode _ hproperties hreturning =>
    obtain ⟨entries, hentries, hiff⟩ := hreturning.freshIn_iff hstaged
    refine ⟨entries, .update hentries, ?_⟩
    rw [← hiff]
    constructor
    · rintro ⟨-, hrest⟩
      rw [Clause.scopeAfter, hnode.introduced] at hrest
      exact hrest.2
    · intro hrest
      refine ⟨hnode.freshIn, ?_⟩
      rw [Clause.scopeAfter, hnode.introduced]
      refine ⟨fun item hitem => ?_, hrest⟩
      rw [List.mem_singleton.mp hitem]
      exact hproperties.ground.freshIn
  | delete _ _ hnode =>
    exact ⟨[], .delete, fun _ => trivial,
      fun _ => ⟨hnode.freshIn, trivial, f.head.freshIn_countClause _⟩⟩
  | connect h => exact ⟨[], .connect, fun _ => trivial, fun _ => h.freshIn⟩
  | disconnect h => exact ⟨[], .disconnect, fun _ => trivial, fun _ => h.freshIn⟩

end Outcome

-- =========================================================== translations

namespace Compiler

/-- A staged translation introduces no name that is in scope, but for the
closing of a traversal, exactly if the names of its plan are apart: no
variable of a field is introduced again for a later one, nor the list of a
field first thing below it. -/
theorem fresh_iff_apart (hstaged : c.options.dialect = .staged) {purpose : Purpose}
    {compiled : Compiled} (h : c.Translates f vars purpose compiled) :
    ∃ s entries, compiled.body = .clauses s
      ∧ Outcome.Planned c vars compiled.parameters f purpose entries
      ∧ (Clause.AllFreshIn [] s.clauses ↔ Plan.AllApart entries) := by
  obtain ⟨clauses, hbody, hclauses⟩ := clauses_of_translates h
  obtain ⟨entries, hplanned, hiff⟩ := hclauses.freshIn_iff hstaged
  exact ⟨_, entries, hbody, hplanned, hiff⟩

/-- The staged statement for people and their movies is fresh or not as its
plan is apart or not. -/
theorem fresh_iff_apart_people :
    ∃ compiled s entries, (Compiler.movies .staged).Translates .people RootField.peopleVars
        (.select .person) compiled
      ∧ compiled.body = .clauses s
      ∧ Outcome.Planned (Compiler.movies .staged) RootField.peopleVars compiled.parameters
        .people (.select .person) entries
      ∧ (Clause.AllFreshIn [] s.clauses ↔ Plan.AllApart entries) := by
  obtain ⟨compiled, h⟩ := translates_people .staged
  obtain ⟨s, entries, hbody, hplanned, hiff⟩ := fresh_iff_apart rfl h
  exact ⟨compiled, s, entries, h, hbody, hplanned, hiff⟩

end Compiler

-- ================================================================ a clash

/-- A field whose first relationship has the key of the second with that of a
field below it behind. -/
def RootField.clashing : RootField where
  head := .plain "Person"
  selections :=
    [.field ⟨"movies", some "movies_actors", [], []⟩ [.field (.plain "title") []],
      .field (.plain "movies") [.field (.plain "actors") [.field (.plain "name") []]]]

/-- The plan of that field: two of its traversals have the same variable. -/
def Plan.clashing : List (String × Plan) :=
  let movies (entity : String) : Traversal :=
    ⟨⟨.outgoing, "ACTED_IN", "Movie"⟩, true, "Movie", "person", entity, .none, none⟩
  let actors : Traversal :=
    ⟨⟨.incoming, "ACTED_IN", "Person"⟩, true, "Person", "person_movies", "person_movies_actors",
      .none, none⟩
  [("movies_actors", .traversal (movies "person_movies_actors")
      [("title", .value (.property "person_movies_actors" "title"))]),
    ("movies", .traversal (movies "person_movies")
      [("actors", .traversal actors
        [("name", .value (.property "person_movies_actors" "name"))])])]

namespace Compiler

/-- The plan of the instance is what is compiled. -/
theorem run_clashing :
    ((Compiler.movies .staged).plan .person "person" RootField.clashing.selections).run ⟨[], []⟩
      = .ok (Plan.clashing, ⟨[], []⟩) := by
  refine run_planFields_traversal rfl (run_planFields_value rfl (run_planFields_nil _ _)) ?_
  refine run_planFields_traversal rfl ?_ (run_planFields_nil _ _)
  refine run_planFields_traversal rfl ?_ (run_planFields_nil _ _)
  exact run_planFields_value rfl (run_planFields_nil _ _)

/-- The clauses of that field are not fresh: the variable of its first
relationship is in scope where it is introduced again. -/
theorem not_fresh_clashing :
    ∃ compiled s, (Compiler.movies .staged).compile false .clashing [] = .ok compiled
      ∧ compiled.body = .clauses s ∧ ¬Clause.AllFreshIn [] s.clauses := by
  have hroot : rootVariable EntityType.person.name RootField.clashing.head.responseKey
      = "person" := by decide
  refine ⟨_, _, scopeQuery_eq_of_runs true hroot rfl run_clashing, rfl, ?_⟩
  rintro ⟨-, hrest⟩
  have hformed : Plan.Formed [] "person" Plan.clashing :=
    ((Compiler.movies .staged).yields_plan .person "person" _).of_run run_clashing |>.formed
  obtain ⟨-, hkept, -⟩ := hformed.allFreshIn_iff_apart.mp (Clause.allFreshIn_append.mp hrest).1
  exact hkept "person_movies_actors" rfl (by decide)

end Compiler

end PropertyGraphQL
