/-
When the statements of both dialects return the same data.

A statement in comprehensions answers with what its plan reads from each of
the entities, whatever the names and whatever the graph
(`Compiler.answers?_comprehension`). A staged one puts the related entities in
rows and groups these again by the nodes that are carried. So it needs names
that are apart, and a traversal with others below it must go to no node twice:
the two rows of a node that is reached over two relationships carry the same,
and become one group (`Compiler.answers_differ_casts`). Otherwise both answer
with the same rows, up to the order of what is collected
(`Compiler.answers_alike`). On a graph without parallel relationships the names
are all that matters (`Plan.allOnce_of_simple`).
-/
import PropertyGraphQL.Proofs.Answers.Staged
import PropertyGraphQL.Proofs.Dialects.Statement
import PropertyGraphQL.Proofs.Freshness.Statement

namespace PropertyGraphQL

open Cypher Compiling

variable {db : Database}

-- ================================================================ entities

namespace Cypher

variable (db) in
/-- The nodes with a label that satisfy a condition on an entity. -/
def Database.selected (entity label : String) (condition : Predicate) : List Nat :=
  (db.graph.nodes.filter fun n => label ∈ db.graph.labels n).filter fun n =>
    condition.eval db (Environment.unbound.bind entity (.node n)) = .yes

/-- What is selected are nodes of the graph with the label. -/
theorem Database.mem_selected {entity label : String} {condition : Predicate} {n : Nat}
    (h : n ∈ db.selected entity label condition) :
    n ∈ db.graph.nodes ∧ label ∈ db.graph.labels n := by
  obtain ⟨hlabelled, -⟩ := List.mem_filter.mp h
  obtain ⟨hn, hlabel⟩ := List.mem_filter.mp hlabelled
  exact ⟨hn, of_decide_eq_true hlabel⟩

theorem Database.nodup_selected (h : db.graph.nodes.Nodup) (entity label : String)
    (condition : Predicate) : (db.selected entity label condition).Nodup :=
  (h.filter _).filter _

/-- Where nothing is bound, a labelled node is any that has the label. -/
theorem Pattern.matchings_labelled (entity label : String) :
    Pattern.matchings db .unbound (.node (.labelled entity label))
      = (db.graph.nodes.filter fun n => label ∈ db.graph.labels n).map fun n =>
          Environment.unbound.bind entity (.node n) := by
  have hmatched : ∀ n, NodePattern.matchedBy db .unbound n ⟨some entity, [label], []⟩
      = decide (label ∈ db.graph.labels n) := by
    intro n
    show (decide (label ∈ db.graph.labels n) && true && true) = _
    rw [Bool.and_true, Bool.and_true]
  unfold Pattern.node NodePattern.labelled
  rw [Pattern.matchings, List.map_eq_flatMap]
  show (db.graph.nodes.filter fun n => NodePattern.matchedBy db .unbound n _).flatMap _ = _
  simp only [hmatched]
  rfl

/-- Behind the first clause of a statement there is a row for each entity. -/
theorem Clause.rows?_matching (entity label : String) (condition : Predicate) :
    (Clause.matching (.node (.labelled entity label)) false condition).rows? db [.unbound]
      = some ((db.selected entity label condition).map fun n =>
          Environment.unbound.bind entity (.node n)) := by
  show some ([Environment.unbound].flatMap fun env =>
    (Pattern.matchings db env _).filter fun env => condition.eval db env = .yes) = _
  rw [List.flatMap_singleton, Pattern.matchings_labelled, List.filter_map]
  rfl

/-- One column that is not made of many rows has a value in each. -/
theorem ReturnItem.tabulate_aliased {e : Expression} (h : ∀ rows, e.overRows? db rows = none)
    (key : String) (rows : List Environment) :
    tabulate db [.aliased e key] rows = rows.map fun env => [(key, e.eval db env)] := by
  have hany : [ReturnItem.aliased e key].any (isGrouped db) = false := by
    show ((e.overRows? db []).isSome || false) = false
    rw [h]
    rfl
  unfold tabulate
  rw [hany, if_neg Bool.false_ne_true]
  refine List.map_congr_left fun env _ => ?_
  show [(key, (e.overRows? db [env]).getD (e.eval db env))] = _
  rw [h]
  rfl

end Cypher

-- ================================================================= answers

namespace Compiler

variable {c : Compiler} {parameters : Dict Json} {entity label key : String}
  {condition : Predicate} {entries : List (String × Plan)}

/-- The clauses for entities with a plan, of which none are sorted or cut. -/
def answering (c : Compiler) (entity label key : String) (condition : Predicate)
    (entries : List (String × Plan)) : List Clause :=
  .matching (.node (.labelled entity label)) false condition
    :: ((c.projected entity entries).2
      ++ [.returnItems [.aliased (c.projected entity entries).1 key] none none none])

variable (db) in
/-- The rows that hold what a plan reads from each of the entities. -/
def readRows (entity label key : String) (condition : Predicate)
    (entries : List (String × Plan)) : List (Dict Datum) :=
  (db.selected entity label condition).map fun n =>
    [(key, .map (Plan.readAll db entity n entries))]

/-- The answer of a query: one row for each selected node, with the projection of the node after
the clauses that read below it. -/
theorem answers?_answering (c : Compiler) (entity label key : String) (condition : Predicate)
    (entries : List (String × Plan))
    (h : ∀ rows, (c.projected entity entries).1.overRows? db rows = none) :
    Clause.answers? db [.unbound] (c.answering entity label key condition entries)
      = (Clause.allRows? db ((db.selected entity label condition).map fun n =>
          Environment.unbound.bind entity (.node n)) (c.projected entity entries).2).map
        fun rows => rows.map fun env => [(key, (c.projected entity entries).1.eval db env)] := by
  unfold answering
  rw [← List.cons_append, Clause.answers?_append, Clause.allRows?, Clause.rows?_matching,
    Option.bind_some]
  congr 1
  funext rows
  exact ReturnItem.tabulate_aliased h key rows

/-- Comprehensions answer with what the plan reads. -/
theorem answers?_comprehension (hc : c.options.dialect = .comprehension)
    (h : Plan.Formed parameters entity entries)
    (hplain : ∀ e ∈ Plan.allTraversals entries, e.IsPlain) :
    Clause.answers? db [.unbound] (c.answering entity label key condition entries)
      = some (readRows db entity label key condition entries) := by
  have hprojected : c.projected entity entries
      = (.projection entity (Plan.projectionItems c.options.sortFunction entity entries), []) := by
    unfold projected
    rw [hc]
  rw [c.answers?_answering _ _ _ _ _ fun rows => by rw [hprojected]; rfl, hprojected]
  show some (List.map _ (List.map _ _)) = _
  rw [List.map_map]
  refine congrArg some (List.map_congr_left fun n _ => ?_)
  have hn : (Environment.unbound.bind entity (.node n)) entity = some (.node n) :=
    Environment.bind_self _ _ _
  have hread : MapItem.evalList db _ (.node n) _ = Plan.readAll db entity n entries :=
    h.evalList_projectionItems hplain hn (Environment.freshBelow_bind_unbound _ _)
      c.options.sortFunction
  rw [Function.comp_apply, Expression.eval, Environment.value_of_eq hn, hread]
  rfl

/-- Clauses of their own answer with what the plan reads, where names are apart
and no traversal with others below it goes to a node twice. -/
theorem answers?_staged (hc : c.options.dialect = .staged)
    (h : Plan.Formed parameters entity entries)
    (hplain : ∀ e ∈ Plan.allTraversals entries, e.IsPlain) (hapart : Plan.AllApart entries)
    (hnodes : db.graph.nodes.Nodup)
    (honce : ∀ n ∈ db.selected entity label condition, Plan.AllOnce db n entries) :
    ∃ rows, Clause.answers? db [.unbound] (c.answering entity label key condition entries)
        = some rows
      ∧ SameBag rows (readRows db entity label key condition entries) := by
  have hprojected := c.projected_staged hc entity entries
  have hfits : Plan.Fits [entity] [entity] entries :=
    (h.allFreshIn_iff (List.nodup_singleton entity) (List.Subset.refl _) List.mem_cons_self).mp
      (h.allFreshIn_iff_apart.mpr hapart)
  -- the rows behind the first clause: one for each entity
  have hentity : ∀ env ∈ (db.selected entity label condition).map fun n =>
      Environment.unbound.bind entity (.node n), env.Binds [entity]
        ∧ Plan.Rooted db entity entries env := by
    intro env henv
    obtain ⟨n, hn, rfl⟩ := List.mem_map.mp henv
    have hunbound : Environment.unbound.Binds [] :=
      fun name => ⟨fun _ => List.not_mem_nil, fun _ => rfl⟩
    exact ⟨hunbound.bind entity _, .inr ⟨n, Environment.bind_self _ _ _, honce n hn⟩⟩
  have hdistinct : ((db.selected entity label condition).map fun n =>
      Environment.unbound.bind entity (.node n)).Nodup := by
    refine (Database.nodup_selected hnodes entity label condition).map fun n m heq => ?_
    have hvalue := congrFun heq entity
    rw [Environment.bind_self, Environment.bind_self] at hvalue
    exact Datum.node.inj (Option.some.inj hvalue)
  obtain ⟨out, reordered, hout, hperm, hreads⟩ := h.allRows?_stageEntries hplain hfits
    List.mem_cons_self (fun env henv => (hentity env henv).1)
    (fun env henv => (hentity env henv).2) fun _ => hdistinct
  rw [c.answers?_answering _ _ _ _ _ fun rows => by rw [hprojected]; rfl, hprojected, hout]
  refine ⟨_, rfl, _, hperm.map _, ?_⟩
  unfold readRows
  rw [List.forall₂_map_left_iff, List.forall₂_map_right_iff]
  rw [List.forall₂_map_left_iff] at hreads
  refine hreads.flip.imp fun env n hread => ?_
  rw [Expression.eval]
  exact .cons (.map (hread.read n (Environment.bind_self _ _ _))) .nil

end Compiler

-- ============================================================== statements

/-- Clauses whose traversals are plain, and that return their rows as they
come. -/
def Cypher.Clause.AllPlain (clauses : List Clause) : Prop :=
  (∀ e ∈ Clause.traversals clauses, e.IsPlain)
    ∧ ∃ front items, clauses = front ++ [.returnItems items none none none]

namespace Compiler

/-- What the arguments ask and the plan of the selection are known where a field
for entities is compiled. -/
theorem runs_of_queryOn {c : Compiler} {f : RootField} {t : EntityType} {vars : Dict Json}
    {compiled : Compiled} (h : c.queryOn f t vars = .ok compiled) :
    ∃ a p entries q, (ScopeArguments.ofArguments c.catalog t
        (rootVariable t.name f.head.responseKey) [] f.head.arguments).run ⟨vars, []⟩ = .ok (a, p)
      ∧ (c.plan t (rootVariable t.name f.head.responseKey) f.selections).run p
        = .ok (entries, q) := by
  obtain ⟨clauses, r, hrun, -⟩ := scopeQuery_eq_ok h
  obtain ⟨⟨a, p⟩, ha, hrun⟩ := bind_eq_ok_iff.mp hrun
  obtain ⟨⟨projection, q⟩, hproject, -⟩ := bind_eq_ok_iff.mp hrun
  obtain ⟨⟨entries, q⟩, hplan, -⟩ := bind_eq_ok_iff.mp hproject
  exact ⟨a, p, entries, q, ha, hplan⟩

/-- A field for entities comes, in both dialects, to the clauses for one plan. -/
theorem answering_of_queryOn {c : Compiler} {f : RootField} {t : EntityType} {vars : Dict Json}
    {staged nested : Compiled} (hstaged : (c.inDialect .staged).queryOn f t vars = .ok staged)
    (hnested : (c.inDialect .comprehension).queryOn f t vars = .ok nested) :
    ∃ s s' condition entries, staged.body = .clauses s ∧ nested.body = .clauses s'
      ∧ Outcome.Planned c vars staged.parameters f (.select t) entries
      ∧ (Clause.AllPlain s.clauses → (∀ e ∈ Plan.allTraversals entries, e.IsPlain)
        ∧ s.clauses = (c.inDialect .staged).answering (rootVariable t.name f.head.responseKey)
          t.name f.head.responseKey condition entries
        ∧ s'.clauses = (c.inDialect .comprehension).answering
          (rootVariable t.name f.head.responseKey) t.name f.head.responseKey condition
          entries) := by
  obtain ⟨a, p, entries, q, ha, hplan⟩ := runs_of_queryOn hstaged
  rw [plan_inDialect] at hplan
  -- the plan does not know the dialect, so both statements are made of it
  have hcompiled := fun d => scopeQuery_eq_of_runs (c := c.inDialect d) true rfl ha
    (by rw [plan_inDialect]; exact hplan)
  cases Except.ok.inj (hstaged.symm.trans (hcompiled .staged))
  cases Except.ok.inj (hnested.symm.trans (hcompiled .comprehension))
  obtain ⟨hvars, -, -⟩ := ScopeArguments.yields_ofArguments c.catalog t _ _ _ rfl ha
  obtain ⟨-, -, hentries⟩ := c.yields_plan t _ f.selections hvars hplan
  have hlegible : Plan.Legible entries := (hentries (.refl _)).legible
  refine ⟨_, _, a.condition, entries, rfl, rfl, .select (hentries (.refl _)), ?_⟩
  rintro ⟨hplain, front, items, hreturned⟩
  have htraversals := (c.inDialect .staged).traversals_behind hlegible
    [.matching (.node (.labelled (rootVariable t.name f.head.responseKey) t.name)) false
      a.condition] rfl (rootVariable t.name f.head.responseKey) f.head.responseKey
      (a.orderByClause (rootVariable t.name f.head.responseKey)) a.skip a.limit
  have hseen : Clause.traversals _ = (Plan.allTraversals entries).map id := htraversals
  rw [List.map_id] at hseen
  -- the last clause of the staged statement is its only one that could cut or sort
  obtain ⟨-, hlast⟩ := List.append_inj' hreturned rfl
  injection hlast with hlast
  injection hlast with _ horder hskip hlimit
  refine ⟨fun e he => hplain e (hseen ▸ he), ?_, ?_⟩
  · show _ ++ [Clause.returnItems _ (a.orderByClause _) a.skip a.limit] = _
    rw [horder, hskip, hlimit]
    rfl
  · show _ ++ [Clause.returnItems _ (a.orderByClause _) a.skip a.limit] = _
    rw [horder, hskip, hlimit]
    rfl

/-- Both statements for the entities of a type return the same rows, up to the
order of what is collected, on any graph on which the traversals that have others
below them go to no node twice; if no traversal and no row is sorted or cut, none
goes over the list of a statement or keeps only the first, and no name of the
staged statement is introduced where it is in scope. -/
theorem answers_alike (c : Compiler) (f : RootField) (t : EntityType) (vars : Dict Json) :
    Alike (fun staged nested => ∃ s s' entries, staged.body = .clauses s
        ∧ nested.body = .clauses s'
        ∧ Outcome.Planned c vars staged.parameters f (.select t) entries
        ∧ ∀ db : Database, db.graph.nodes.Nodup → Clause.AllPlain s.clauses →
          Clause.AllFreshIn [] s.clauses →
          (∀ n ∈ db.graph.nodes, t.name ∈ db.graph.labels n → Plan.AllOnce db n entries) →
          ∃ rows rows', Clause.answers? db [.unbound] s.clauses = some rows
            ∧ Clause.answers? db [.unbound] s'.clauses = some rows' ∧ SameBag rows rows')
      ((c.inDialect .staged).queryOn f t vars) ((c.inDialect .comprehension).queryOn f t vars) := by
  have hboth : Alike SameQuery ((c.inDialect .staged).queryOn f t vars)
      ((c.inDialect .comprehension).queryOn f t vars) := alike_finish f (.select t) vars true
  refine hboth.of_ok fun staged nested hstaged hnested => ?_
  obtain ⟨s, s', condition, entries, hs, hs', hplanned, hclauses⟩ :=
    answering_of_queryOn hstaged hnested
  refine ⟨s, s', entries, hs, hs', hplanned, fun db hnodes hplain hfresh honce => ?_⟩
  obtain ⟨hplain, hclauses, hclauses'⟩ := hclauses hplain
  have hformed : Plan.Formed staged.parameters (rootVariable t.name f.head.responseKey)
      entries := by
    cases hplanned with
    | select h => exact h.formed
  rw [hclauses] at hfresh
  -- that the staged names are fresh says that the variables of the plan are apart
  have hapart : Plan.AllApart entries :=
    (hformed.allFreshIn_selecting_iff rfl hfresh.1.2 OrderBy.freshIn_none none none).mp hfresh
  obtain ⟨rows, hrows, hsame⟩ := answers?_staged (c := c.inDialect .staged) rfl hformed hplain
    hapart hnodes fun n hn => honce n (Database.mem_selected hn).1 (Database.mem_selected hn).2
  rw [hclauses, hclauses']
  exact ⟨rows, _, hrows, answers?_comprehension rfl hformed hplain, hsame⟩

end Compiler

-- ========================================================== simple graphs

/-- No two relationships of a type lead from one node to the same other. -/
def Cypher.Graph.Simple (g : Graph) : Prop :=
  g.relationships.Pairwise fun r s =>
    ¬(r.relType = s.relType ∧ r.source = s.source ∧ r.target = s.target)

/-- A relationship is told by its type and its ends, in any direction. -/
theorem Cypher.Graph.ends_eq_of_otherEnd? {r s : Relationship} {direction : Direction} {n m : Nat}
    (hr : otherEnd? r direction n = some m) (hs : otherEnd? s direction n = some m) :
    r.source = s.source ∧ r.target = s.target := by
  unfold otherEnd? at hr hs
  cases direction with
  | outgoing =>
    obtain ⟨hrn, hrm⟩ := Option.ite_none_right_eq_some.mp hr
    obtain ⟨hsn, hsm⟩ := Option.ite_none_right_eq_some.mp hs
    exact ⟨hrn.trans hsn.symm, (Option.some.inj hrm).trans (Option.some.inj hsm).symm⟩
  | incoming =>
    obtain ⟨hrn, hrm⟩ := Option.ite_none_right_eq_some.mp hr
    obtain ⟨hsn, hsm⟩ := Option.ite_none_right_eq_some.mp hs
    exact ⟨(Option.some.inj hrm).trans (Option.some.inj hsm).symm, hrn.trans hsn.symm⟩

/-- In a simple graph no node is reached twice from another over the same shape. -/
theorem Cypher.Graph.Simple.nodup_reached {g : Graph} (h : g.Simple) (shape : RelationshipShape)
    (label : String) (n : Nat) : (g.reached shape label n).Nodup := by
  refine List.Nodup.filter _ ?_
  unfold Graph.steps
  rw [List.map_filterMap]
  refine List.pairwise_filterMap.mpr ((h.filter _).imp_of_mem ?_)
  intro r s hr hs hne m hrm m' hsm heq
  have hends : ∀ {r : Relationship} {m : Nat},
      ((otherEnd? r shape.direction n).map fun other => (r.id, other)).map Prod.snd = some m →
        otherEnd? r shape.direction n = some m := by
    intro r m hm
    rwa [Option.map_map, Function.comp_def, Option.map_id'] at hm
  obtain ⟨-, hrType⟩ := List.mem_filter.mp hr
  obtain ⟨-, hsType⟩ := List.mem_filter.mp hs
  refine hne ⟨(of_decide_eq_true hrType).trans (of_decide_eq_true hsType).symm, ?_⟩
  exact ends_eq_of_otherEnd? (hends hrm) (heq ▸ hends hsm)

mutual

/-- On a simple graph no traversal goes to a node twice. -/
theorem Plan.allOnce_of_simple (h : db.graph.Simple) (n : Nat) (entries : List (String × Plan)) :
    Plan.AllOnce db n entries := by
  match entries with
  | [] => trivial
  | (_, plan) :: rest =>
    exact ⟨Plan.once_of_simple h n plan, Plan.allOnce_of_simple h n rest⟩

/-- In a simple graph no plan goes to a node twice. -/
theorem Plan.once_of_simple (h : db.graph.Simple) (n : Nat) (plan : Plan) :
    Plan.Once db n plan := by
  match plan with
  | .value _ => trivial
  | .traversal t below =>
    refine ⟨fun _ => ?_, fun m _ => Plan.allOnce_of_simple h m below⟩
    exact (h.nodup_reached t.shape t.label n).filter _

end

-- ================================================== parallel relationships

/-- A field for people with the movies they act in, and who acts in those. -/
def RootField.casts : RootField where
  head := .plain "Person"
  selections :=
    [.field (.plain "movies")
      [.field (.plain "title") [], .field (.plain "actors") [.field (.plain "name") []]]]

/-- The plan of that field. -/
def Plan.casts : List (String × Plan) :=
  [("movies", .traversal
      ⟨⟨.outgoing, "ACTED_IN", "Movie"⟩, true, "Movie", "person", "person_movies", .none, none⟩
      [("title", .value (.property "person_movies" "title")),
        ("actors", .traversal
          ⟨⟨.incoming, "ACTED_IN", "Person"⟩, true, "Person", "person_movies",
            "person_movies_actors", .none, none⟩
          [("name", .value (.property "person_movies_actors" "name"))])])]

namespace Compiler

/-- The plan for the casts is what the instance says it is. -/
theorem run_casts (options : CompileOptions) :
    ((Compiler.mk .movies options).plan .person "person" RootField.casts.selections).run
      ⟨[], []⟩ = .ok (Plan.casts, ⟨[], []⟩) := by
  refine run_planFields_traversal rfl ?_ (run_planFields_nil _ _)
  refine run_planFields_value rfl ?_
  refine run_planFields_traversal rfl ?_ (run_planFields_nil _ _)
  exact run_planFields_value rfl (run_planFields_nil _ _)

/-- In both dialects the field comes to the clauses for that plan. -/
theorem queryOn_casts (dialect : Dialect) :
    (inDialect ⟨.movies, .standard⟩ dialect).queryOn .casts .person []
      = .ok (finish RootField.casts.head ((inDialect ⟨.movies, .standard⟩ dialect).answering
        "person" "Person" "Person" .always Plan.casts) ⟨[], []⟩ true) := by
  have hroot : rootVariable EntityType.person.name RootField.casts.head.responseKey = "person" := by
    decide
  exact scopeQuery_eq_of_runs true hroot rfl (run_casts _)

/-- Its traversals are plain, and its names are fresh. -/
theorem plain_casts : Clause.AllPlain ((inDialect ⟨.movies, .standard⟩ .staged).answering
    "person" "Person" "Person" .always Plan.casts) := by
  refine ⟨fun e he => ?_, .matching _ false .always :: (projected _ _ _).2, _, rfl⟩
  rcases List.mem_cons.mp he with rfl | he
  · exact ⟨rfl, rfl, rfl, rfl⟩
  · rw [List.mem_singleton.mp he]
    exact ⟨rfl, rfl, rfl, rfl⟩

/-- The clauses for the casts introduce no variable twice. -/
theorem fresh_casts : Clause.AllFreshIn [] ((inDialect ⟨.movies, .standard⟩ .staged).answering
    "person" "Person" "Person" .always Plan.casts) := by
  have hformed : Plan.Formed [] "person" Plan.casts :=
    ((Compiler.mk .movies .standard).yields_plan .person "person" _).of_run (run_casts _) |>.formed
  have halways : Predicate.always.FreshIn ["person"] := trivial
  refine (hformed.allFreshIn_selecting_iff rfl halways OrderBy.freshIn_none none none).mpr ?_
  simp [Plan.casts, Plan.AllApart, Plan.Apart, Plan.kept?, Plan.allIntroduced]

end Compiler

/-- A movie in which one person acts in as many roles as are told. -/
def Cypher.Graph.roles (count : Nat) : Cypher.Graph where
  nodes := [0, 1]
  labels node := if node = 0 then ["Movie"] else ["Person"]
  property node key :=
    match node, key with
    | 0, "title" => .string "Big"
    | 1, "name" => .string "Meg"
    | _, _ => .null
  relationships := (List.range count).map fun id => ⟨id, "ACTED_IN", 1, 0⟩
  relationshipProperty _ _ := .null

/-- A row for the person, with as many movies as there are numbers, each of them
with as many actors. -/
def Cypher.Datum.castRows (actors : List Nat) : List (Dict Datum) :=
  [[("Person", .map [("movies", .list (actors.map fun count =>
    .map [("title", .string "Big"),
      ("actors", .list (List.replicate count (.map [("name", .string "Meg")])))]))])]]

namespace Compiler

/-- Where the person has one role, both statements tell the movie with one
actor. -/
theorem answers_alike_casts :
    ∃ staged nested s s' rows,
      (inDialect ⟨.movies, .standard⟩ .staged).queryOn .casts .person [] = .ok staged
      ∧ (inDialect ⟨.movies, .standard⟩ .comprehension).queryOn .casts .person [] = .ok nested
      ∧ staged.body = .clauses s ∧ nested.body = .clauses s'
      ∧ Clause.answers? (Graph.roles 1).integerDatabase [.unbound] s.clauses = some rows
      ∧ Clause.answers? (Graph.roles 1).integerDatabase [.unbound] s'.clauses
        = some (Datum.castRows [1])
      ∧ SameBag rows (Datum.castRows [1]) := by
  have halike := answers_alike ⟨.movies, .standard⟩ .casts .person []
  rw [queryOn_casts, queryOn_casts] at halike
  cases halike with
  | ok h =>
    obtain ⟨s, s', entries, hs, hs', -, h⟩ := h
    cases hs
    cases hs'
    have hsimple : (Graph.roles 1).Simple := List.pairwise_singleton _ _
    have hnodes : (Graph.roles 1).nodes.Nodup := by
      unfold Graph.roles
      decide
    obtain ⟨rows, rows', hrows, hrows', hsame⟩ := h (Graph.roles 1).integerDatabase hnodes
      plain_casts fresh_casts fun n _ _ => Plan.allOnce_of_simple hsimple n entries
    cases Option.some.inj hrows'
    exact ⟨_, _, _, _, rows, queryOn_casts _, queryOn_casts _, rfl, rfl, hrows, hrows', hsame⟩

/-- Where the person has two roles, the staged statement tells the movie once,
with four actors; the comprehensions tell it twice, with two actors each. -/
theorem answers_differ_casts :
    ∃ staged nested s s', (inDialect ⟨.movies, .standard⟩ .staged).queryOn .casts .person []
        = .ok staged
      ∧ (inDialect ⟨.movies, .standard⟩ .comprehension).queryOn .casts .person [] = .ok nested
      ∧ staged.body = .clauses s ∧ nested.body = .clauses s'
      ∧ Clause.AllPlain s.clauses ∧ Clause.AllFreshIn [] s.clauses
      ∧ Clause.answers? (Graph.roles 2).integerDatabase [.unbound] s.clauses
        = some (Datum.castRows [4])
      ∧ Clause.answers? (Graph.roles 2).integerDatabase [.unbound] s'.clauses
        = some (Datum.castRows [2, 2])
      ∧ ¬SameBag (Datum.castRows [4]) (Datum.castRows [2, 2]) := by
  refine ⟨_, _, _, _, queryOn_casts _, queryOn_casts _, rfl, rfl, plain_casts, fresh_casts, rfl,
    rfl, ?_⟩
  rintro ⟨reordered, hperm, h⟩
  obtain rfl := List.singleton_perm.mp hperm
  cases h with
  | cons h _ =>
    cases h.head with
    | map h => cases h.head.length_eq

end Compiler

end PropertyGraphQL
