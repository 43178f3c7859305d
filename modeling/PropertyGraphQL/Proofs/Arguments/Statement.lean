/-
What becomes of all arguments of a field of a query.

A field for which the schema declares a statement binds all its arguments to the
parameters of that statement (`declaredOperation_eq_ok`). Any other is asked of
entities, and reads the fields of a selection from them. In every scope of the plan
there is an entry for each response key. It is planned for the first field with the
key, so the arguments of that one are used if it leads to entities or has a
statement. Of the later ones only the selections are read (`Entries.scope`). The
two come together in `Compiler.arguments_used`.
-/
import PropertyGraphQL.Proofs.Arguments.Used
import PropertyGraphQL.Proofs.Selection.Statement

namespace PropertyGraphQL

open Cypher Compiling Collected

-- ================================================================== scopes

/-- The scopes of a plan, each with its type, selection and entries: the one at the
top, and below every key whose first field leads to entities that for what all the
fields with the key select. -/
inductive Plan.Scope (catalog : Catalog) (t : EntityType) (ss : List Selection)
    (entries : List (String × Plan)) :
    EntityType → List Selection → List (String × Plan) → Prop where
  | top : Scope catalog t ss entries t ss entries
  | inside {u target : EntityType} {us : List Selection} {es below : List (String × Plan)}
      {first : Collected} {traversal : Traversal} (h : Scope catalog t ss entries u us es)
      (hfirst : (occurrences catalog u us).find? (fun o => o.key = first.key) = some first)
      (htarget : first.traversed? catalog = some target)
      (hplan : (first.key, .traversal traversal below) ∈ es) :
      Scope catalog t ss entries target (merged first.key (occurrences catalog u us)) below

namespace Outcome

variable {c : Compiler} {vars parameters : Dict Json} {t : EntityType} {ss : List Selection}
  {entity : String} {entries : List (String × Plan)} {first : Collected}

/-- What is read for a field under its key, whatever it is. -/
inductive Read (c : Compiler) (vars parameters : Dict Json) (entity : String) (f : Collected) :
    Plan → Prop where
  | value {e : Expression} (h : Field c vars parameters f entity (.inl e)) :
      Read c vars parameters entity f (.value e)
  | traversal {traversal : Traversal} {target : EntityType} {below : List (String × Plan)}
      (h : Field c vars parameters f entity (.inr (traversal, target)))
      (hbelow : Entries c vars parameters traversal.entity
        (collect c.catalog target f.selections) below) :
      Read c vars parameters entity f (.traversal traversal below)

/-- Every field has an entry. -/
theorem Entries.exists_read {fields : List Collected}
    (h : Entries c vars parameters entity fields entries) :
    ∀ f ∈ fields, ∃ plan, (f.key, plan) ∈ entries ∧ Read c vars parameters entity f plan := by
  induction h with
  | nil => exact List.forall_mem_nil _
  | value hfield _ ih =>
    refine List.forall_mem_cons.mpr ⟨⟨_, List.mem_cons_self, .value hfield⟩, fun f hf => ?_⟩
    obtain ⟨plan, hmem, hread⟩ := ih f hf
    exact ⟨plan, List.mem_cons_of_mem _ hmem, hread⟩
  | traversal hfield hbelow _ _ ih =>
    refine List.forall_mem_cons.mpr
      ⟨⟨_, List.mem_cons_self, .traversal hfield hbelow⟩, fun f hf => ?_⟩
    obtain ⟨plan, hmem, hread⟩ := ih f hf
    exact ⟨plan, List.mem_cons_of_mem _ hmem, hread⟩

/-- Every entry is that of a field. -/
theorem Entries.read_of_mem {fields : List Collected}
    (h : Entries c vars parameters entity fields entries) :
    ∀ entry ∈ entries, ∃ f ∈ fields, f.key = entry.1
      ∧ Read c vars parameters entity f entry.2 := by
  induction h with
  | nil => exact List.forall_mem_nil _
  | value hfield _ ih =>
    refine List.forall_mem_cons.mpr
      ⟨⟨_, List.mem_cons_self, rfl, .value hfield⟩, fun entry hentry => ?_⟩
    obtain ⟨f, hf, hread⟩ := ih entry hentry
    exact ⟨f, List.mem_cons_of_mem _ hf, hread⟩
  | traversal hfield hbelow _ _ ih =>
    refine List.forall_mem_cons.mpr
      ⟨⟨_, List.mem_cons_self, rfl, .traversal hfield hbelow⟩, fun entry hentry => ?_⟩
    obtain ⟨f, hf, hread⟩ := ih entry hentry
    exact ⟨f, List.mem_cons_of_mem _ hf, hread⟩

/-- The collected field with a key is the first of that key. -/
theorem eq_of_mem_collect {catalog : Catalog} {f : Collected} (hf : f ∈ collect catalog t ss)
    (hfirst : (occurrences catalog t ss).find? (fun o => o.key = f.key) = some first) :
    f = { first with selections := merged f.key (occurrences catalog t ss) } := by
  obtain ⟨first', hfirst', heq⟩ := mem_collect hf
  cases hfirst'.symm.trans hfirst
  exact heq

/-- A field is collected with the head of its first occurrence and the selections of all. -/
theorem mem_collect_of_first {catalog : Catalog}
    (hfirst : (occurrences catalog t ss).find? (fun o => o.key = first.key) = some first) :
    { first with selections := merged first.key (occurrences catalog t ss) }
      ∈ collect catalog t ss := by
  have hkey : first.key ∈ (collect catalog t ss).map (·.key) := by
    rw [keys_collect, List.mem_eraseDups]
    exact List.mem_map_of_mem (List.mem_of_find?_eq_some hfirst)
  obtain ⟨f, hf, hkey⟩ := List.mem_map.mp hkey
  have heq := eq_of_mem_collect hf (hkey ▸ hfirst)
  rw [hkey] at heq
  exact heq ▸ hf

/-- In every scope there are entries for the collected fields. -/
theorem Entries.scope {P : FieldHead → Prop}
    (h : Entries c vars parameters entity (collect c.catalog t ss) entries)
    (hss : Selection.EveryIn P ss) {u : EntityType} {us : List Selection}
    {es : List (String × Plan)} (hscope : Plan.Scope c.catalog t ss entries u us es) :
    Selection.EveryIn P us
      ∧ ∃ entity, Entries c vars parameters entity (collect c.catalog u us) es := by
  induction hscope with
  | top => exact ⟨hss, entity, h⟩
  | @inside u target us es below first traversal _ hfirst htarget hplan ih =>
    obtain ⟨hus, entity', hes⟩ := ih
    have hevery (o : Collected) (ho : o ∈ occurrences c.catalog u us) :
        Selection.EveryIn P o.selections :=
      (every_occurrences (Q := fun _ => True) (fun _ _ _ => trivial) trivial hus o ho).2.2
    refine ⟨everyIn_merged _ hevery, traversal.entity, ?_⟩
    obtain ⟨f, hf, hkey, hread⟩ := hes.read_of_mem _ hplan
    have hkey : f.key = first.key := hkey
    have heq := eq_of_mem_collect hf (hkey ▸ hfirst)
    rw [hkey] at heq
    rw [heq] at hread
    cases hread with
    | traversal hfield hbelow =>
      cases hfield.traversed?.symm.trans htarget
      exact hbelow

/-- A field is projected: the plan is what is read for it, a traversal if it leads to
entities, and unless it is read off the node all its arguments are used there. -/
structure Projected (c : Compiler) (vars parameters : Dict Json) (f : Collected)
    (plan : Plan) : Prop where
  read : ∃ entity, Read c vars parameters entity f plan
  traversal : f.traversed? c.catalog ≠ none → ∃ traversal below, plan = .traversal traversal below
  used : f.Leads c.catalog → ∀ argument ∈ f.head.arguments,
    Used c vars parameters f plan argument

/-- What a field reads projects its stored value or uses each of its arguments. -/
theorem Read.projected {f : Collected} {plan : Plan} (h : Read c vars parameters entity f plan)
    (hkeys : f.head.arguments.keys.Nodup) : Projected c vars parameters f plan := by
  refine ⟨⟨entity, h⟩, ?_, ?_⟩
  · intro htraversed
    cases h with
    | value hfield => exact absurd hfield.traversed? htraversed
    | @traversal traversal _ below => exact ⟨traversal, below, rfl⟩
  · intro hleads
    cases h with
    | value hfield => exact hfield.used hkeys hleads []
    | @traversal _ _ below hfield => exact hfield.used hkeys hleads below

/-- In every scope of a plan each response key has one entry, for the first field with
the key, which reads what all the fields with the key select. -/
theorem Entries.projected
    (h : Entries c vars parameters entity (collect c.catalog t ss) entries)
    (hss : Selection.EveryIn (fun head => head.arguments.keys.Nodup) ss) {u : EntityType}
    {us : List Selection} {es : List (String × Plan)}
    (hscope : Plan.Scope c.catalog t ss entries u us es) :
    es.map Prod.fst = ((occurrences c.catalog u us).map (·.key)).eraseDups
      ∧ ∀ first, (occurrences c.catalog u us).find? (fun o => o.key = first.key) = some first →
        ∃ plan, (first.key, plan) ∈ es ∧ Projected c vars parameters
          { first with selections := merged first.key (occurrences c.catalog u us) } plan := by
  obtain ⟨hus, entity', hes⟩ := h.scope hss hscope
  refine ⟨hes.keys.trans (keys_collect u us), fun first hfirst => ?_⟩
  obtain ⟨hkeys, -, -⟩ := every_occurrences (Q := fun _ => True) (fun _ _ _ => trivial) trivial
    hus first (List.mem_of_find?_eq_some hfirst)
  obtain ⟨plan, hmem, hread⟩ := hes.exists_read _ (mem_collect_of_first hfirst)
  exact ⟨plan, hmem, hread.projected hkeys⟩

end Outcome

namespace Compiler

variable {c : Compiler} {vars : Dict Json}

-- ===================================================== declared operations

/-- The value that an argument stands for is that of the parameter of its name. -/
def Supplies (vars bound : Dict Json) (argument : String × Value) : Prop :=
  ∃ j, argument.2.StandsFor vars j ∧ bound.get? argument.1 = some j

/-- A given argument of a declared operation has what it stands for as its value. -/
theorem declaredValue_eq_ok {head : FieldHead} {name : String} {declared : DeclaredArgument}
    {j : Json} {p q : Parameters} (h : (declaredValue head name declared).run p = .ok (j, q)) :
    q = p ∧ ∀ x, head.arguments.get? name = some x → x.StandsFor p.vars j := by
  unfold declaredValue at h
  cases hx : head.arguments.get? name with
  | none =>
    rw [hx] at h
    cases h
    exact ⟨rfl, fun x hsome => by cases hsome⟩
  | some x =>
    rw [hx] at h
    have hresolve : (p.resolve x >>= fun j => .ok (j, p)) = .ok (j, q) := h
    obtain ⟨j', hj, heq⟩ := bind_eq_ok_iff.mp hresolve
    cases heq
    refine ⟨rfl, fun x' hsome => ?_⟩
    cases hsome
    exact (@Value.resolve_congr ⟨p.vars, []⟩ p rfl x).trans hj

/-- Binding static parameters leaves the variables as they are. -/
theorem vars_of_forIn {static : Dict Json} {p q : Parameters}
    (h : (forIn static PUnit.unit fun s _ => do
        bindExactly s.1 s.2
        pure (ForInStep.yield PUnit.unit) : Compiling PUnit).run p = .ok (PUnit.unit, q)) :
    q.vars = p.vars := by
  induction static generalizing p with
  | nil =>
    cases h
    rfl
  | cons s rest ih =>
    rw [List.forIn_cons, StateT.run_bind] at h
    obtain ⟨⟨_, r⟩, hset, h⟩ := bind_eq_ok_iff.mp h
    cases hset
    exact ih (p := p.set s.1 s.2) h

/-- Behind the loop over the declared arguments the given ones are supplied. A name
that was bound before, or comes twice, is set to the same value again. -/
theorem supplies_of_forIn {head : FieldHead} {declared : Dict DeclaredArgument}
    {p q : Parameters}
    (h : (forIn declared PUnit.unit fun d _ => do
        let value ← declaredValue head d.1 d.2
        bindExactly d.1 value
        pure (ForInStep.yield PUnit.unit) : Compiling PUnit).run p = .ok (PUnit.unit, q))
    {argument : String × Value} (hx : head.arguments.get? argument.1 = some argument.2)
    (hdeclared : declared.contains argument.1 = true ∨ Supplies p.vars p.bound argument) :
    Supplies p.vars q.bound argument := by
  induction declared generalizing p with
  | nil =>
    cases h
    rcases hdeclared with hdeclared | hsupplies
    · cases hdeclared
    · exact hsupplies
  | cons d rest ih =>
    rw [List.forIn_cons, StateT.run_bind] at h
    obtain ⟨⟨_, r⟩, hstep, h⟩ := bind_eq_ok_iff.mp h
    rw [StateT.run_bind] at hstep
    obtain ⟨⟨j, p'⟩, hvalue, hset⟩ := bind_eq_ok_iff.mp hstep
    obtain ⟨rfl, hj⟩ := declaredValue_eq_ok hvalue
    cases hset
    refine ih (p := p'.set d.1 j) h ?_
    -- bound in this round it is supplied; bound before, this round leaves it alone
    by_cases hname : d.1 = argument.1
    · refine .inr ⟨j, hj _ (hname ▸ hx), ?_⟩
      rw [← hname]
      exact Dict.get?_insert_self p'.bound d.1 j
    · rcases hdeclared with hdeclared | ⟨j', hj', hbound⟩
      · refine .inl ?_
        unfold Dict.contains at hdeclared ⊢
        rw [Dict.get?_cons, if_neg hname] at hdeclared
        exact hdeclared
      · refine .inr ⟨j', hj', ?_⟩
        unfold Parameters.set
        rw [Dict.get?_insert, if_neg hname]
        exact hbound

/-- A declared operation takes no argument that is not declared with it, and supplies
all that are given. -/
theorem declaredOperation_eq_ok {head : FieldHead} (hkeys : head.arguments.keys.Nodup)
    {operation : RootOperation} {custom : CustomStatement} {compiled : Compiled}
    (h : declaredOperation head operation custom vars = .ok compiled) :
    compiled.body = .written head.planReport? custom.statement
      ∧ ∀ argument ∈ head.arguments, operation.arguments.contains argument.1 = true
        ∧ Supplies vars compiled.parameters argument := by
  unfold declaredOperation at h
  obtain ⟨⟨_, p⟩, hrun, h⟩ := bind_eq_ok_iff.mp h
  cases h
  refine ⟨rfl, fun argument hargument => ?_⟩
  unfold runWith bindDeclared at hrun
  rw [StateT.run_bind] at hrun
  obtain ⟨⟨_, q⟩, hstatic, hrun⟩ := bind_eq_ok_iff.mp hrun
  have hvars : q.vars = vars := vars_of_forIn hstatic
  dsimp only at hrun
  split at hrun
  · cases hrun
  · next hnone =>
    have hdeclared : operation.arguments.contains argument.1 = true := by
      simpa using List.find?_eq_none.mp hnone argument.1 (List.mem_map_of_mem hargument)
    rw [StateT.run_bind] at hrun
    obtain ⟨⟨_, r⟩, hloop, hrun⟩ := bind_eq_ok_iff.mp hrun
    cases hrun
    have hx := (Dict.get?_eq_some_iff hkeys).mpr hargument
    have hsupplies := supplies_of_forIn hloop hx (.inl hdeclared)
    rw [hvars] at hsupplies
    exact ⟨hdeclared, hsupplies⟩

-- =============================================================== statement

/-- How the arguments of a field of a query are used, and those of the fields
below it.

A field with a statement of its own supplies them all. For any other they are asked
of the entities that are selected. In every scope of what is read from these each
response key has one entry, which projects the first field with the key, with all its
arguments unless it is read off the node, and with the selections of all of them. -/
inductive UsesArguments (c : Compiler) (vars : Dict Json) (f : RootField)
    (compiled : Compiled) : Prop where
  | declared {operation : RootOperation} {custom : CustomStatement}
      (hoperation : c.catalog.queries.get? f.head.name = some operation)
      (hcustom : operation.custom = some custom)
      (hbody : compiled.body = .written f.head.planReport? custom.statement)
      (hused : ∀ argument ∈ f.head.arguments, operation.arguments.contains argument.1 = true
        ∧ Supplies vars compiled.parameters argument)
  | selected {t : EntityType} {entity : String} {a : ScopeArguments}
      {conditions : List Predicate} {entries : List (String × Plan)}
      (htranslates : c.Translates f vars (.select t) compiled)
      (hentity : rootVariable t.name f.head.responseKey = entity)
      (hbody : compiled.body = .clauses ⟨f.head.planReport?,
        .matching (.node (.labelled entity t.name)) false a.condition
          :: (c.projected entity entries).2
            ++ [.returnItems [.aliased (c.projected entity entries).1 f.head.responseKey]
              (a.orderByClause entity) a.skip a.limit]⟩)
      (hcondition : a.condition = .all conditions)
      (hasked : ∀ argument ∈ f.head.arguments,
        Outcome.Asked c.catalog vars compiled.parameters t entity a conditions argument)
      (hscopes : ∀ u us es, Plan.Scope c.catalog t f.selections entries u us es →
        es.map Prod.fst = ((occurrences c.catalog u us).map (·.key)).eraseDups
          ∧ ∀ first, (occurrences c.catalog u us).find? (fun o => o.key = first.key)
              = some first →
            ∃ plan, (first.key, plan) ∈ es ∧ Outcome.Projected c vars compiled.parameters
              { first with selections := merged first.key (occurrences c.catalog u us) } plan)

/-- A field that selects entities uses all arguments. -/
theorem usesArguments_of_translates {f : RootField}
    (hf : f.Every fun head => head.arguments.keys.Nodup) {t : EntityType} {compiled : Compiled}
    (h : c.Translates f vars (.select t) compiled) : UsesArguments c vars f compiled := by
  obtain ⟨clauses, hbody, hclauses⟩ := clauses_of_translates h
  obtain @⟨_, a, entries, ha, hentries⟩ := hclauses
  obtain ⟨conditions, hcondition, hasked⟩ := ha.asked hf.1
  exact .selected h rfl hbody hcondition (fun argument hargument => hasked argument hargument rfl)
    fun _ _ _ hscope => hentries.projected hf.2 hscope

/-- **Arguments are used.** Whenever a field of a query is compiled, its arguments are
supplied to the statement declared for it, or used as conditions, order and number of
the entities that it selects. In every scope of the projection so are the arguments of
the first field of each response key, unless that is read off the node. -/
theorem arguments_used {f : RootField} (hf : f.Every fun head => head.arguments.keys.Nodup)
    {compiled : Compiled} (h : c.compile false f vars = .ok compiled
      ∨ ∃ t, c.queryOn f t vars = .ok compiled) :
    UsesArguments c vars f compiled := by
  rcases h with h | ⟨t, h⟩
  · have hquery : c.query f vars = .ok compiled := h
    unfold query at hquery
    -- a declared query is looked up first, and one with a statement uses arguments by name
    split at hquery
    · next operation hoperation =>
      split at hquery
      · next custom hcustom =>
        obtain ⟨hbody, hused⟩ := declaredOperation_eq_ok hf.1 hquery
        exact .declared hoperation hcustom hbody hused
      · next hcustom =>
        split at hquery
        · next t ht =>
          have hpurpose : c.purpose? false f = some (.select t) := by
            simp [purpose?, hoperation, hcustom, ht]
          exact usesArguments_of_translates hf (.compile hpurpose h)
        · cases hquery
    · next hoperation =>
      split at hquery
      · next t ht =>
        have hpurpose : c.purpose? false f = some (.select t) := by
          simp [purpose?, hoperation, ht]
        exact usesArguments_of_translates hf (.compile hpurpose h)
      · cases hquery
  · exact usesArguments_of_translates hf (.queryOn h)

/-- The people with their movies are selected by two arguments, and the movies by two
others. -/
theorem arguments_used_people :
    ∃ compiled, (Compiler.movies .staged).queryOn .people .person RootField.peopleVars
        = .ok compiled
      ∧ UsesArguments (.movies .staged) RootField.peopleVars .people compiled := by
  have hf : RootField.people.Every fun head => head.arguments.keys.Nodup := by
    simp [RootField.people, RootField.Every, Selection.EveryIn, Selection.Every, FieldHead.plain,
      Dict.keys]
  obtain ⟨compiled, h⟩ := queryOn_people .staged
  exact ⟨compiled, h, arguments_used hf (.inr ⟨_, h⟩)⟩

end Compiler

-- ============================================================= an instance

/-- People with their movies, which are selected a second time with an argument that
names no property. -/
def RootField.repeating : RootField where
  head := .plain "Person"
  selections :=
    [.field (.plain "movies") [.field (.plain "title") []],
      .field ⟨"movies", none, [("year", .int 3)], []⟩ [.field (.plain "title") []]]

namespace Compiler

/-- The repeating query is compiled in both dialects. -/
theorem queryOn_repeating (dialect : Dialect) :
    ∃ compiled, (Compiler.movies dialect).queryOn .repeating .person [] = .ok compiled := by
  have hroot : rootVariable EntityType.person.name RootField.repeating.head.responseKey
      = "person" := by decide
  exact ⟨_, scopeQuery_eq_of_runs true hroot rfl
    (run_planFields_traversal rfl (run_planFields_value rfl (run_planFields_nil _ _))
      (run_planFields_nil _ _))⟩

/-- Nothing can be asked of movies by their year. -/
theorem not_asked_year {vars parameters : Dict Json} {entity : String} {a : ScopeArguments}
    {conditions : List Predicate} {x : Value} :
    ¬ Outcome.Asked Catalog.movies vars parameters .movie entity a conditions ("year", x) := by
  intro hasked
  obtain ⟨p, -, hp⟩ := hasked.exists_plain (by simp)
  cases hp with
  | oneOf hplural =>
    have hnone : EntityType.movie.pluralOf? "year" = none := by decide
    rw [hnone] at hplural
    cases hplural
  | comparison _ h =>
    obtain ⟨hresolve, hproperty, -, -⟩ := h
    have hyear : Operator.resolve EntityType.movie.properties.contains "year" = ("year", .eq) := by
      decide
    rw [hyear] at hresolve
    cases hresolve
    cases hproperty

/-- Not every argument of a field that is selected is used: that of a later field with
the same response key is not even looked at. -/
theorem not_arguments_used :
    ¬ ∀ (c : Compiler) (f : RootField) (vars : Dict Json) (t : EntityType) (compiled : Compiled),
      (f.Every fun head => head.arguments.keys.Nodup) → c.queryOn f t vars = .ok compiled →
        ∀ o ∈ occurrences c.catalog t f.selections, ∀ target, o.statement? = none →
          o.traversed? c.catalog = some target → ∀ argument ∈ o.head.arguments,
            ∃ entity a conditions, Outcome.Asked c.catalog vars compiled.parameters target entity
              a conditions argument := by
  intro hused
  obtain ⟨compiled, h⟩ := queryOn_repeating .comprehension
  have hf : RootField.repeating.Every fun head => head.arguments.keys.Nodup := by
    simp [RootField.repeating, RootField.Every, Selection.EveryIn, Selection.Every,
      FieldHead.plain, Dict.keys]
  have hlater : (⟨"movies", ⟨"movies", none, [("year", .int 3)], []⟩, .person,
      [.field (.plain "title") []]⟩ : Collected)
      ∈ occurrences Catalog.movies .person RootField.repeating.selections :=
    List.mem_cons_of_mem _ List.mem_cons_self
  obtain ⟨entity, a, conditions, hasked⟩ := hused (.movies .comprehension) .repeating [] .person
    compiled hf h _ hlater .movie rfl rfl ("year", .int 3) List.mem_cons_self
  exact not_asked_year hasked

end Compiler

end PropertyGraphQL
