/-
The response to a request, field by field.

The fields at the top are answered in one loop, which gathers data, errors
and calls of the database. If the database answers a statement with its
parameters always alike, what a field comes to depends on nothing but the
field, the kind of the operation, its variables and the snapshot
(`Operation.alone`); nothing that the loop has gathered before is looked at.
So the response is that of the fields by themselves, put together
(`respond_recording`). Entries are set by key, hence they stand side by side
only if no two fields have the same response key; that is the one condition
of `respond_fieldwise`.
-/
import PropertyGraphQL.Proofs.Data.Decidable
import PropertyGraphQL.Proofs.Data.Dict
import PropertyGraphQL.Proofs.Semantics.Movies
import PropertyGraphQL.Service.Memory
import PropertyGraphQL.Service.Response

namespace PropertyGraphQL

-- ============================================================ the database

/-- A database whose answer depends on the statement and its parameters alone. -/
abbrev Executor := String → Dict Json → Except DatabaseError (List Row)

variable {m : Type → Type} [Monad m]

/-- The services with a database in place of theirs, and a list of the
statements that it was asked to run. -/
def Services.recording (services : Services m) (executor : Executor) :
    Services (StateT (List (String × Dict Json)) m) where
  clock := StateT.lift services.clock
  answer need := StateT.lift (services.answer need)
  execute statement parameters := fun executed =>
    pure (executor statement parameters, executed ++ [(statement, parameters)])

-- ============================================================ a single field

/-- What fields come to: their entries in the data, their errors, and the
statements that are run for them. -/
structure FieldResult where
  data : Dict Json
  errors : List ResponseError
  executed : List (String × Dict Json)

namespace FieldResult

/-- What stands in the data: a field that fails is null. -/
def shown : Except ServiceError Json → Json
  | .ok value => value
  | .error _ => .null

/-- The errors for a field with a response key. -/
def failures (key : String) : Except ServiceError Json → List ResponseError
  | .ok _ => []
  | .error e => [.ofField key e]

/-- The results of several fields, one after the other. -/
def all (results : List FieldResult) : FieldResult :=
  ⟨results.flatMap data, results.flatMap errors, results.flatMap executed⟩

/-- The results of several fields begin with those of the first. -/
theorem all_cons (r : FieldResult) (rest : List FieldResult) :
    all (r :: rest) = ⟨r.data ++ (all rest).data, r.errors ++ (all rest).errors,
      r.executed ++ (all rest).executed⟩ := by
  simp [all]

theorem all_singleton (r : FieldResult) : all [r] = r := by
  simp [all]

end FieldResult

namespace Operation

/-- What a field at the top comes to. -/
inductive Resolves (executor : Executor) (compiler : Compiler) (o : Operation) (f : RootField) :
    FieldResult → Prop
  /-- The name of the root type, for which nothing is run. -/
  | typename (hname : f.head.name = "__typename") :
      Resolves executor compiler o f
        ⟨[(f.head.responseKey, .str o.kind.rootType)], [], []⟩
  /-- A field that does not compile is null, and nothing is run. -/
  | refused {e : CompileError} (hname : f.head.name ≠ "__typename")
      (hcompile : compiler.compile (o.kind = .mutation) f o.vars = .error e) :
      Resolves executor compiler o f
        ⟨[(f.head.responseKey, .null)],
          [⟨(ServiceError.compile e).publicMessage, [], [f.head.responseKey]⟩], []⟩
  /-- A field whose statement fails is null. -/
  | failed {compiled : Compiled} {e : DatabaseError} (hname : f.head.name ≠ "__typename")
      (hcompile : compiler.compile (o.kind = .mutation) f o.vars = .ok compiled)
      (hexecute : executor compiled.statement compiled.parameters = .error e) :
      Resolves executor compiler o f
        ⟨[(f.head.responseKey, .null)],
          [⟨(ServiceError.database e).publicMessage, [], [f.head.responseKey]⟩],
          [(compiled.statement, compiled.parameters)]⟩
  | answered {compiled : Compiled} {rows : List Row} (hname : f.head.name ≠ "__typename")
      (hcompile : compiler.compile (o.kind = .mutation) f o.vars = .ok compiled)
      (hexecute : executor compiled.statement compiled.parameters = .ok rows) :
      Resolves executor compiler o f
        ⟨[(f.head.responseKey, Row.fieldValue compiled.isList rows)], [],
          [(compiled.statement, compiled.parameters)]⟩

/-- The value of a field at the top, and the statements run for it. -/
def resolution (executor : Executor) (compiler : Compiler) (o : Operation) (f : RootField) :
    Except ServiceError Json × List (String × Dict Json) :=
  if f.head.name = "__typename" then (.ok (.str o.kind.rootType), [])
  else
    match compiler.compile (o.kind = .mutation) f o.vars with
    | .error e => (.error (.compile e), [])
    | .ok compiled =>
        (match executor compiled.statement compiled.parameters with
          | .error e => .error (.database e)
          | .ok rows => .ok (Row.fieldValue compiled.isList rows),
          [(compiled.statement, compiled.parameters)])

/-- What a field at the top comes to by itself. -/
def alone (executor : Executor) (compiler : Compiler) (o : Operation) (f : RootField) :
    FieldResult :=
  let (value, executed) := o.resolution executor compiler f
  ⟨[(f.head.responseKey, FieldResult.shown value)],
    FieldResult.failures f.head.responseKey value, executed⟩

/-- What the fields at the top come to. -/
def results (executor : Executor) (compiler : Compiler) (o : Operation) : FieldResult :=
  .all (o.fields.map (o.alone executor compiler))

variable {executor : Executor} {compiler : Compiler} {o : Operation}

/-- What a field comes to by itself is one of the four cases. -/
theorem resolves_alone (executor : Executor) (compiler : Compiler) (o : Operation)
    (f : RootField) : o.Resolves executor compiler f (o.alone executor compiler f) := by
  unfold alone resolution
  by_cases hname : f.head.name = "__typename"
  · rw [if_pos hname]
    exact .typename hname
  · rw [if_neg hname]
    cases hcompile : compiler.compile (o.kind = .mutation) f o.vars with
    | error e => exact .refused hname hcompile
    | ok compiled =>
      dsimp only
      cases hexecute : executor compiled.statement compiled.parameters with
      | error e => exact .failed hname hcompile hexecute
      | ok rows => exact .answered hname hcompile hexecute

/-- A field has one entry, under its response key. -/
theorem keys_alone (f : RootField) :
    Dict.keys (o.alone executor compiler f).data = [f.head.responseKey] := rfl

/-- The entries stand under the response keys of the fields, in their order. -/
theorem keys_results : Dict.keys (o.results executor compiler).data
    = o.fields.map fun f => f.head.responseKey := by
  unfold results
  induction o.fields with
  | nil => rfl
  | cons f rest ih =>
    have hfirst : Dict.keys (o.alone executor compiler f).data = [f.head.responseKey] :=
      keys_alone f
    rw [List.map_cons, FieldResult.all_cons]
    simp only [Dict.keys, List.map_append, List.map_cons] at hfirst ih ⊢
    rw [hfirst, ih]
    rfl

end Operation

-- ============================================================ all fields

namespace Operation

variable [LawfulMonad m] (services : Services m) (executor : Executor) (compiler : Compiler)
  (o : Operation)

/-- The value of a field is its resolution, and what is run for it is recorded. -/
theorem fieldValue_recording (f : RootField) (log : List (String × Dict Json)) :
    (o.fieldValue (services.recording executor) compiler f).run log
      = pure ((o.resolution executor compiler f).1,
          log ++ (o.resolution executor compiler f).2) := by
  unfold fieldValue resolution
  by_cases hname : f.head.name = "__typename"
  · simp [hname]
  · rw [if_neg hname, if_neg hname]
    cases hcompile : compiler.compile (o.kind = .mutation) f o.vars with
    | error e => simp
    | ok compiled =>
      have hrun : ((services.recording executor).execute compiled.statement
            compiled.parameters).run log
          = pure (executor compiled.statement compiled.parameters,
              log ++ [(compiled.statement, compiled.parameters)]) := rfl
      dsimp only
      rw [StateT.run_bind, hrun, pure_bind]
      cases executor compiled.statement compiled.parameters <;> rfl

/-- A field adds its entry, and an error if it fails. -/
theorem addField_eq (key : String) (value : Except ServiceError Json)
    (before : Dict Json × List ResponseError) :
    addField key value before
      = (before.1.insertAll [(key, FieldResult.shown value)],
          before.2 ++ FieldResult.failures key value) := by
  cases value with
  | ok j => simp [addField, Dict.insertAll, FieldResult.shown, FieldResult.failures]
  | error e => simp [addField, Dict.insertAll, FieldResult.shown, FieldResult.failures]

/-- The loop over the fields: it adds to what it has gathered what each field
comes to by itself. -/
theorem foldlM_recording (fields : List RootField) (before : Dict Json × List ResponseError)
    (log : List (String × Dict Json)) :
    (fields.foldlM (fun before f => do
        let value ← o.fieldValue (services.recording executor) compiler f
        return addField f.head.responseKey value before) before).run log
      = (let r := FieldResult.all (fields.map (o.alone executor compiler))
        pure ((before.1.insertAll r.data, before.2 ++ r.errors), log ++ r.executed)) := by
  induction fields generalizing before log with
  | nil => simp [FieldResult.all, Dict.insertAll]
  | cons f rest ih =>
    rw [List.foldlM_cons, StateT.run_bind, StateT.run_bind,
      fieldValue_recording services executor compiler o f log, pure_bind, StateT.run_pure,
      pure_bind, addField_eq, ih]
    simp only [List.map_cons, FieldResult.all_cons, Dict.insertAll_append, List.append_assoc,
      alone]

/-- An operation is answered with the results of its fields, and their statements are run in
order. -/
theorem respond_recording (log : List (String × Dict Json)) :
    (o.respond (services.recording executor) compiler).run log
      = pure (.answered (Dict.ofEntries (o.results executor compiler).data)
            (o.results executor compiler).errors,
          log ++ (o.results executor compiler).executed) := by
  unfold respond
  rw [StateT.run_bind, foldlM_recording services executor compiler o o.fields ([], []) log]
  dsimp only
  rw [pure_bind]
  rfl

end Operation

-- ============================================================ the request

section

variable [LawfulMonad m] (services : Services m) (executor : Executor)
  (settings : ContextSettings)

/-- A call runs alike whatever statements the database runs. -/
theorem Task.run_recording (c : Context) (task : Task) (log : List (String × Dict Json)) :
    (task.run (services.recording executor) settings c).run log
      = (fun ended => (ended, log)) <$> task.run services settings c := by
  induction c, task using Task.run.induct settings with
  | case1 c outcome =>
    rw [Task.run, Task.run]
    simp
  | case2 c p ih =>
    rw [Task.run, Task.run]
    simp only [Services.recording, StateT.run_bind, StateT.run_lift, bind_assoc, pure_bind,
      map_bind]
    congr 1
    funext answer
    congr 1
    funext now
    exact ih answer now

/-- A call for a snapshot among recording services. -/
theorem Context.run_recording (c : Context) (call : Call) (log : List (String × Dict Json)) :
    (c.run (services.recording executor) settings call).run log
      = (fun ended => (ended, log)) <$> c.run services settings call := by
  have hclock : (services.recording executor).clock.run log
      = (fun now => (now, log)) <$> services.clock := by
    simp [Services.recording]
  unfold Context.run Context.begin
  simp only [StateT.run_bind, hclock, bind_map_left, pure_bind, bind_assoc, map_bind]
  congr 1
  funext now
  exact Task.run_recording services executor settings _ _ log

end

namespace Request

/-- The operation that a request runs. -/
def parsed (r : Request) : Except DocumentError Operation :=
  Operation.parse r.text r.operation r.vars

/-- What a request ends with: if there is a snapshot, the response with what the fields come
to on it, whose statements are run. -/
def Answers (services : Services m) (executor : Executor) (settings : ContextSettings)
    (c : Context) (r : Request) (result : Snapshot → FieldResult) : Prop :=
  ∀ log, (r.respond (services.recording executor) settings c).run log = do
    let (c, outcome) ← c.run services settings .snapshot
    match outcome with
    | .served s =>
        return ((c, .answered (result s).data (result s).errors), log ++ (result s).executed)
    | .failed e => return ((c, .rejected (.ofServiceError e)), log)
    | .deleted => return ((c, .answered [] []), log)

/-- A document that is rejected gives an error, and nothing is run. -/
theorem respond_rejected (services : Services m) (executor : Executor)
    (settings : ContextSettings) (c : Context) {r : Request} {e : DocumentError}
    (hparsed : r.parsed = .error e) (log : List (String × Dict Json)) :
    (r.respond (services.recording executor) settings c).run log
      = pure ((c, .rejected (.ofDocumentError e)), log) := by
  unfold parsed at hparsed
  simp [respond, hparsed]

variable [LawfulMonad m] (services : Services m) (executor : Executor)
  (settings : ContextSettings) (c : Context)

/-- A request whose fields have distinct response keys gets what the fields come to. -/
theorem answers_results {r : Request} {o : Operation} (hparsed : r.parsed = .ok o)
    (hkeys : (o.fields.map fun f => f.head.responseKey).Nodup) :
    r.Answers services executor settings c fun s => o.results executor s.compiler := by
  intro log
  unfold parsed at hparsed
  simp only [respond, hparsed, StateT.run_bind,
    Context.run_recording services executor settings c .snapshot log, bind_map_left]
  congr 1
  funext p
  obtain ⟨c, outcome⟩ := p
  cases outcome with
  | served s =>
    have hdata : Dict.ofEntries (o.results executor s.compiler).data
        = (o.results executor s.compiler).data := by
      apply Dict.ofEntries_eq_self
      rw [o.keys_results]
      exact hkeys
    simp [o.respond_recording services executor s.compiler log, hdata]
  | failed e => simp
  | deleted => simp

/-- **Fields do not affect each other.** If the document is rejected, the response says so and
nothing is run. Otherwise, if the fields at the top have distinct response keys, the response
is made of what each of them comes to, in the order of the document: its entry, its error if it
fails, and its statement if it compiles. This is also the response to any request that has the
field as its only one. -/
theorem respond_fieldwise (r : Request) :
    (∀ e, r.parsed = .error e →
        ∀ log, (r.respond (services.recording executor) settings c).run log
          = pure ((c, .rejected (.ofDocumentError e)), log))
      ∧ ∀ o, r.parsed = .ok o → (o.fields.map fun f => f.head.responseKey).Nodup →
          ∃ alone : Snapshot → RootField → FieldResult,
            (∀ s, ∀ f ∈ o.fields, o.Resolves executor s.compiler f (alone s f))
            ∧ (r.Answers services executor settings c fun s => .all (o.fields.map (alone s)))
            ∧ ∀ f ∈ o.fields, ∀ (single : Request) (name : Option String),
                single.parsed = .ok ⟨name, o.kind, [f], o.vars⟩ →
                single.Answers services executor settings c fun s => alone s f := by
  refine ⟨fun e hparsed => respond_rejected services executor settings c hparsed, ?_⟩
  intro o hparsed hkeys
  refine ⟨fun s => o.alone executor s.compiler, ?_, ?_, ?_⟩
  · intro s f _
    exact o.resolves_alone executor s.compiler f
  · exact answers_results services executor settings c hparsed hkeys
  · intro f _ single name hsingle
    have halone (s : Snapshot) :
        Operation.results executor s.compiler ⟨name, o.kind, [f], o.vars⟩
          = o.alone executor s.compiler f :=
      FieldResult.all_singleton _
    have hanswers := answers_results services executor settings c hsingle (List.nodup_singleton _)
    simpa only [halone] using hanswers

end Request

-- ============================================================ an instance

namespace RootField

def typename : RootField := ⟨.plain "__typename", []⟩

/-- A field that no catalog has to have. -/
def nope : RootField := ⟨.plain "nope", []⟩

def named : RootField := ⟨.plain "Person", [.field (.plain "name") []]⟩

def titled : RootField := ⟨.plain "Movie", [.field (.plain "title") []]⟩

end RootField

namespace Request

open RootField (typename nope named titled)

/-- A request with fields of every kind. -/
def mixed : Request :=
  ⟨"\x7b __typename nope Person \x7b name \x7d Movie \x7b title \x7d \x7d", none, []⟩

/-- A request for the people alone. -/
def justNamed : Request := ⟨"\x7b Person \x7b name \x7d \x7d", none, []⟩

theorem parsed_mixed : mixed.parsed = .ok ⟨none, .query, [typename, nope, named, titled], []⟩ := by
  decide +kernel

theorem parsed_justNamed : justNamed.parsed = .ok ⟨none, .query, [named], []⟩ := by
  decide +kernel

end Request

/-- A snapshot of the graph of movies. -/
def Snapshot.movies : Snapshot := ⟨0, ⟨.movies, .standard⟩, 0⟩

/-- The statement for the people. -/
def Executor.peopleStatement : String :=
  "MATCH (`person`:`Person`)\nRETURN `person` \x7b.`name`\x7d AS `Person`"

/-- The statement for the movies. -/
def Executor.moviesStatement : String :=
  "MATCH (`movie`:`Movie`)\nRETURN `movie` \x7b.`title`\x7d AS `Movie`"

/-- A database that knows a person, and breaks at anything else. -/
def Executor.people : Executor := fun statement _ =>
  if statement = Executor.peopleStatement then
    .ok [[("Person", .map [("name", .string "Keanu")])]]
  else .error (.connection "down")

/-- What is compiled, as far as the database and the response see it. -/
def Compiled.view (compiled : Compiled) : String × Bool × Bool :=
  (compiled.statement, compiled.parameters.isEmpty, compiled.isList)

namespace Snapshot

theorem compile_named : (movies.compiler.compile false .named []).toOption.map Compiled.view
    = some (Executor.peopleStatement, true, true) := by
  decide +kernel

theorem compile_titled : (movies.compiler.compile false .titled []).toOption.map Compiled.view
    = some (Executor.moviesStatement, true, true) := by
  decide +kernel

theorem compile_nope : movies.compiler.compile false .nope []
    = .error (.unknownField "Query" "nope") := rfl

end Snapshot

/-- A field that gives a list and binds no parameters, by what the database says to its
statement. -/
theorem Operation.Resolves.of_view {executor : Executor} {compiler : Compiler} {o : Operation}
    {f : RootField} {statement : String} {result : FieldResult}
    (h : o.Resolves executor compiler f result) (hname : f.head.name ≠ "__typename")
    (hview : (compiler.compile (o.kind = .mutation) f o.vars).toOption.map Compiled.view
      = some (statement, true, true)) :
    (∀ e, executor statement [] = .error e →
        result = ⟨[(f.head.responseKey, .null)],
          [⟨(ServiceError.database e).publicMessage, [], [f.head.responseKey]⟩],
          [(statement, [])]⟩)
      ∧ ∀ rows, executor statement [] = .ok rows →
        result = ⟨[(f.head.responseKey, Row.fieldValue true rows)], [], [(statement, [])]⟩ := by
  have hparts {compiled : Compiled} (hcompiled : compiled.view = (statement, true, true)) :
      compiled.statement = statement ∧ compiled.parameters = [] ∧ compiled.isList = true := by
    obtain ⟨hstatement, hrest⟩ := Prod.mk.inj hcompiled
    obtain ⟨hparameters, hlist⟩ := Prod.mk.inj hrest
    exact ⟨hstatement, List.isEmpty_iff.mp hparameters, hlist⟩
  -- the name rules out one case, the statement the next, and the executor decides between two
  cases h with
  | typename htypename => exact absurd htypename hname
  | refused _ hcompile =>
    rw [hcompile] at hview
    cases hview
  | failed _ hcompile hexecute =>
    rw [hcompile] at hview
    obtain ⟨rfl, hparameters, hlist⟩ := hparts (Option.some.inj hview)
    rw [hparameters] at hexecute ⊢
    constructor
    · intro e he
      obtain rfl := Except.error.inj (he.symm.trans hexecute)
      rfl
    · intro rows hrows
      cases hrows.symm.trans hexecute
  | answered _ hcompile hexecute =>
    rw [hcompile] at hview
    obtain ⟨rfl, hparameters, hlist⟩ := hparts (Option.some.inj hview)
    rw [hparameters] at hexecute
    rw [hparameters, hlist]
    constructor
    · intro e he
      cases he.symm.trans hexecute
    · intro rows hrows
      obtain rfl := Except.ok.inj (hrows.symm.trans hexecute)
      rfl

namespace Request

open RootField (typename nope named titled)

/-- A field that fails in the database and one that does not compile stand beside the people,
who are there as they are in a request for nothing else. -/
theorem respond_fieldwise_mixed :
    ∃ alone : Snapshot → RootField → FieldResult,
      FieldResult.all ([typename, nope, named, titled].map (alone .movies))
        = ⟨[("__typename", .str "Query"), ("nope", .null),
              ("Person", .arr [.obj [("name", .str "Keanu")]]), ("Movie", .null)],
            [⟨"Unknown field 'nope' on type 'Query'", [], ["nope"]⟩,
              ⟨"Operation failed", [], ["Movie"]⟩],
            [(Executor.peopleStatement, []), (Executor.moviesStatement, [])]⟩
      ∧ (mixed.Answers MemoryServices.services .people ⟨.standard, 0, false⟩ .fresh fun s =>
          .all ([typename, nope, named, titled].map (alone s)))
      ∧ justNamed.Answers MemoryServices.services .people ⟨.standard, 0, false⟩ .fresh fun s =>
          alone s named := by
  obtain ⟨-, hfields⟩ := respond_fieldwise MemoryServices.services .people
    ⟨.standard, 0, false⟩ .fresh mixed
  have hkeys : ["__typename", "nope", "Person", "Movie"].Nodup := by decide
  obtain ⟨alone, hresolves, hanswers, halone⟩ := hfields _ parsed_mixed hkeys
  refine ⟨alone, ?_, hanswers, halone named (by simp) justNamed none parsed_justNamed⟩
  have htypename : alone .movies typename = ⟨[("__typename", .str "Query")], [], []⟩ := by
    generalize hresult : alone .movies typename = result
    have hresolved := hresolves .movies typename (by simp)
    rw [hresult] at hresolved
    cases hresolved with
    | typename => rfl
    | refused hname | failed hname | answered hname => exact absurd rfl hname
  have hnope : alone .movies nope = ⟨[("nope", .null)],
      [⟨"Unknown field 'nope' on type 'Query'", [], ["nope"]⟩], []⟩ := by
    generalize hresult : alone .movies nope = result
    have hresolved := hresolves .movies nope (by simp)
    rw [hresult] at hresolved
    cases hresolved with
    | typename hname => exact absurd hname (by decide)
    | refused _ hcompile =>
      cases hcompile.symm.trans Snapshot.compile_nope
      rfl
    | failed _ hcompile | answered _ hcompile =>
      cases hcompile.symm.trans Snapshot.compile_nope
  -- the executor answers the one statement and fails on the other
  have hnamed := ((hresolves .movies named (by simp)).of_view (by decide)
    Snapshot.compile_named).2 _ rfl
  have htitled := ((hresolves .movies titled (by simp)).of_view (by decide)
    Snapshot.compile_titled).1 _ rfl
  simp only [List.map_cons, List.map_nil, htypename, hnope, hnamed, htitled]
  rfl

end Request

end PropertyGraphQL
