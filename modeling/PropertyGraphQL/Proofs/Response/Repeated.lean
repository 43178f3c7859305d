/-
Fields at the top with the same response key.

Inside a selection a field selected again adds its selection to the first
(`Collected.add`). At the top it does not: every occurrence is compiled, run
and answered by itself, all their errors are listed, and the value of the
last one takes the place of the others. So the response is what merging the
occurrences would give only by chance (`response_merged_iff`): the last
value has to be the merged one, and the errors have to be as many. The
latter fails for every field that needs the database as soon as the database
does, which leaves `__typename` as the only field that may be repeated
whatever the database answers.
-/
import PropertyGraphQL.Proofs.Response.Fields
import PropertyGraphQL.Proofs.Semantics.Movies

namespace PropertyGraphQL

/-- The field with the selection of another behind its own. -/
def RootField.merge (f g : RootField) : RootField := ⟨f.head, f.selections ++ g.selections⟩

namespace Operation

/-- The response to an operation. -/
def response (services : Services Id) (executor : Executor) (compiler : Compiler)
    (o : Operation) : Response :=
  ((o.respond (services.recording executor) compiler).run []).1

variable (executor : Executor) (compiler : Compiler) (o : Operation)

/-- What stands in the data for a field by itself. -/
def valueOf (f : RootField) : Json := FieldResult.shown (o.resolution executor compiler f).1

/-- The errors of fields by themselves. -/
def errorsOf (fields : List RootField) : List ResponseError :=
  fields.flatMap fun f => (o.alone executor compiler f).errors

/-- The entries of fields, in order. -/
def entriesOf (fields : List RootField) : List (String × Json) :=
  fields.map fun f => (f.head.responseKey, o.valueOf executor compiler f)

/-- Errors are listed field after field. -/
theorem errorsOf_append (fields others : List RootField) :
    o.errorsOf executor compiler (fields ++ others)
      = o.errorsOf executor compiler fields ++ o.errorsOf executor compiler others :=
  List.flatMap_append

/-- The response is made of the entries and the errors of the fields. -/
theorem response_eq (services : Services Id) :
    o.response services executor compiler
      = .answered (Dict.ofEntries (o.entriesOf executor compiler o.fields))
          (o.errorsOf executor compiler o.fields) := by
  have hdata : (o.results executor compiler).data = o.entriesOf executor compiler o.fields := by
    show (o.fields.map (o.alone executor compiler)).flatMap FieldResult.data = _
    rw [List.flatMap_map, entriesOf, List.map_eq_flatMap]
    rfl
  have herrors : (o.results executor compiler).errors
      = o.errorsOf executor compiler o.fields := by
    show (o.fields.map (o.alone executor compiler)).flatMap FieldResult.errors = _
    rw [List.flatMap_map]
    rfl
  unfold response
  rw [respond_recording services executor compiler o [], hdata, herrors]
  rfl

-- ============================================================== the data

/-- Of the fields with a response key, the last one has its value in the data. -/
theorem get?_entriesOf (fields : List RootField) (key : String) :
    Dict.get? (Dict.ofEntries (o.entriesOf executor compiler fields)) key
      = (fields.reverse.find? fun h => h.head.responseKey = key).map
          (o.valueOf executor compiler) := by
  have hreverse : (o.entriesOf executor compiler fields).reverse
      = fields.reverse.map fun f => (f.head.responseKey, o.valueOf executor compiler f) := by
    rw [entriesOf, List.map_reverse]
  have hget := Dict.get?_insertAll [] (o.entriesOf executor compiler fields) key
  rw [hreverse, Dict.get?_map (fun f : RootField => f.head.responseKey), Dict.get?_nil,
    Option.or_none] at hget
  exact hget

/-- The keys of the data are the response keys of the fields. -/
theorem keys_entriesOf (fields : List RootField) :
    Dict.keys (o.entriesOf executor compiler fields) = fields.map fun f => f.head.responseKey := by
  simp [Dict.keys, entriesOf]

variable {before between after : List RootField} {f g : RootField}

/-- The field whose value stands under the response key of merged fields, before those behind
the second one are looked at. -/
def lastBefore (between : List RootField) (f g : RootField) : RootField :=
  (between.reverse.find? fun h => h.head.responseKey = f.head.responseKey).getD (f.merge g)

/-- Behind a field at the top only fields with its response key take its place. -/
theorem get?_entriesOf_self (before between : List RootField) (first : RootField) :
    Dict.get? (Dict.ofEntries (o.entriesOf executor compiler (before ++ first :: between)))
        first.head.responseKey
      = some (o.valueOf executor compiler ((between.reverse.find? fun h =>
          h.head.responseKey = first.head.responseKey).getD first)) := by
  rw [get?_entriesOf, List.reverse_append, List.reverse_cons, List.append_assoc,
    List.find?_append]
  cases between.reverse.find? fun h => h.head.responseKey = first.head.responseKey with
  | some last => rfl
  | none => simp

/-- A field at the top does not affect what is found under other keys. -/
theorem get?_entriesOf_other (before between : List RootField) {first : RootField} {key : String}
    (hkey : first.head.responseKey ≠ key) :
    Dict.get? (Dict.ofEntries (o.entriesOf executor compiler (before ++ first :: between))) key
      = Dict.get? (Dict.ofEntries (o.entriesOf executor compiler (before ++ between))) key := by
  rw [get?_entriesOf, get?_entriesOf]
  simp [List.find?_append, hkey]

/-- The data is the same for repeated and for merged fields exactly if a later field replaces
their value, or the second one has by itself the value that stands there otherwise. -/
theorem ofEntries_merge_iff (hkey : g.head.responseKey = f.head.responseKey) :
    Dict.ofEntries (o.entriesOf executor compiler (before ++ f :: between ++ g :: after))
        = Dict.ofEntries (o.entriesOf executor compiler (before ++ f.merge g :: between ++ after))
      ↔ (∃ h ∈ after, h.head.responseKey = f.head.responseKey)
        ∨ o.valueOf executor compiler g
          = o.valueOf executor compiler (lastBefore between f g) := by
  -- both responses start with the fields up to `between`, and go on with those of `after`
  let start (first : RootField) : Dict Json :=
    Dict.ofEntries (o.entriesOf executor compiler (before ++ first :: between))
  have hsplit (first : RootField) (rest : List RootField) :
      Dict.ofEntries (o.entriesOf executor compiler (before ++ first :: between ++ rest))
        = Dict.insertAll (start first) (o.entriesOf executor compiler rest) := by
    rw [entriesOf, List.map_append, Dict.ofEntries_append]
    rfl
  have hrepeated :
      Dict.ofEntries (o.entriesOf executor compiler (before ++ f :: between ++ g :: after))
        = Dict.insertAll ((start f).insert g.head.responseKey (o.valueOf executor compiler g))
            (o.entriesOf executor compiler after) :=
    hsplit f (g :: after)
  have hstart : Dict.keys (start f) = Dict.keys (start (f.merge g)) := by
    apply Dict.keys_insertAll_congr rfl
    simp [keys_entriesOf, RootField.merge]
  have hmem : g.head.responseKey ∈ Dict.keys (start f) := by
    rw [Dict.mem_keys_ofEntries, keys_entriesOf, hkey]
    simp
  have hkeys : Dict.keys ((start f).insert g.head.responseKey (o.valueOf executor compiler g))
      = Dict.keys (start (f.merge g)) := by
    rw [Dict.keys_insert, if_pos hmem, hstart]
  have hnodup : (Dict.keys ((start f).insert g.head.responseKey
      (o.valueOf executor compiler g))).Nodup :=
    Dict.nodup_keys_insert (Dict.nodup_keys_ofEntries _) _ _
  have hself : Dict.get? (start (f.merge g)) f.head.responseKey
      = some (o.valueOf executor compiler (lastBefore between f g)) :=
    o.get?_entriesOf_self executor compiler before between (f.merge g)
  have hother {key : String} (hne : f.head.responseKey ≠ key) :
      Dict.get? (start f) key = Dict.get? (start (f.merge g)) key := by
    have hmerged : (f.merge g).head.responseKey ≠ key := hne
    show Dict.get? (Dict.ofEntries _) key = Dict.get? (Dict.ofEntries _) key
    rw [get?_entriesOf_other executor compiler o before between hne,
      get?_entriesOf_other executor compiler o before between hmerged]
  have hlater (key : String) : key ∈ Dict.keys (o.entriesOf executor compiler after)
      ↔ ∃ h ∈ after, h.head.responseKey = key := by
    rw [keys_entriesOf, List.mem_map]
  -- the rest overwrites the same keys in both, so only the others matter
  rw [hrepeated, hsplit (f.merge g) after, Dict.insertAll_eq_iff hkeys hnodup, hkey]
  constructor
  · intro hget
    by_cases hafter : ∃ h ∈ after, h.head.responseKey = f.head.responseKey
    · exact .inl hafter
    · have hvalue := hget f.head.responseKey (mt (hlater _).mp hafter)
      rw [Dict.get?_insert, if_pos rfl, hself] at hvalue
      exact .inr (Option.some.inj hvalue)
  · intro h key hnot
    rw [Dict.get?_insert]
    by_cases hne : f.head.responseKey = key
    · subst hne
      have hvalue := h.resolve_left (mt (hlater _).mpr hnot)
      rw [if_pos rfl, hself, hvalue]
    · rw [if_neg hne, hother hne]

-- ============================================================ the response

/-- An operation with two of its fields merged, in place of the first. -/
def merged (o : Operation) (before between after : List RootField) (f g : RootField) : Operation :=
  { o with fields := before ++ f.merge g :: between ++ after }

/-- When the response does not tell repeated fields from merged ones, for one database. -/
theorem response_merged_iff_of (services : Services Id)
    (hfields : o.fields = before ++ f :: between ++ g :: after)
    (hkey : g.head.responseKey = f.head.responseKey) :
    o.response services executor compiler
        = (o.merged before between after f g).response services executor compiler
      ↔ o.errorsOf executor compiler (f :: between ++ [g])
          = o.errorsOf executor compiler (f.merge g :: between)
        ∧ ((∃ h ∈ after, h.head.responseKey = f.head.responseKey)
          ∨ o.valueOf executor compiler g
            = o.valueOf executor compiler (lastBefore between f g)) := by
  have hmerged : (o.merged before between after f g).response services executor compiler
      = .answered
          (Dict.ofEntries (o.entriesOf executor compiler (before ++ f.merge g :: between ++ after)))
          (o.errorsOf executor compiler (before ++ f.merge g :: between ++ after)) :=
    (o.merged before between after f g).response_eq executor compiler services
  have hshape : before ++ f :: between ++ g :: after
      = before ++ (f :: between ++ [g]) ++ after := by
    simp
  -- the errors of the fields around are the same on both sides
  have herrors : o.errorsOf executor compiler (before ++ f :: between ++ g :: after)
        = o.errorsOf executor compiler (before ++ f.merge g :: between ++ after)
      ↔ o.errorsOf executor compiler (f :: between ++ [g])
        = o.errorsOf executor compiler (f.merge g :: between) := by
    rw [hshape]
    simp only [errorsOf_append, List.append_assoc, List.append_cancel_left_eq]
    rw [← List.append_assoc, List.append_cancel_right_eq]
  rw [o.response_eq executor compiler services, hmerged, hfields, Response.answered.injEq,
    herrors, o.ofEntries_merge_iff executor compiler hkey, and_comm]

-- ========================================================== every database

/-- A database that is down. -/
def down : Executor := fun _ _ => .error (.connection "down")

theorem valueOf_typename (h : f.head.name = "__typename") :
    o.valueOf executor compiler f = .str o.kind.rootType := by
  simp [valueOf, resolution, h, FieldResult.shown]

theorem errors_alone_typename (h : f.head.name = "__typename") :
    (o.alone executor compiler f).errors = [] := by
  simp [alone, resolution, h, FieldResult.failures]

/-- Without its database, every other field fails. -/
theorem resolution_down (h : f.head.name ≠ "__typename") :
    ∃ e, (o.resolution down compiler f).1 = .error e := by
  unfold resolution
  rw [if_neg h]
  cases compiler.compile (o.kind = .mutation) f o.vars with
  | error e => exact ⟨_, rfl⟩
  | ok compiled => exact ⟨_, rfl⟩

/-- Without a database every other field has one error. -/
theorem length_errors_alone_down (h : f.head.name ≠ "__typename") :
    (o.alone down compiler f).errors.length = 1 := by
  obtain ⟨e, he⟩ := o.resolution_down compiler h
  simp [alone, he, FieldResult.failures]

theorem valueOf_down (h : f.head.name ≠ "__typename") : o.valueOf down compiler f = .null := by
  obtain ⟨e, he⟩ := o.resolution_down compiler h
  simp [valueOf, he, FieldResult.shown]

/-- The errors tell repeated from merged fields, for one database at least, unless nothing is
run for the fields. -/
theorem typename_of_errorsOf_down (hname : g.head.name = f.head.name)
    (herrors : o.errorsOf down compiler (f :: between ++ [g])
      = o.errorsOf down compiler (f.merge g :: between)) :
    f.head.name = "__typename" := by
  by_contra hf
  have hg : g.head.name ≠ "__typename" := hname ▸ hf
  have hmerge : (f.merge g).head.name ≠ "__typename" := hf
  have hlength := congrArg List.length herrors
  simp only [errorsOf, List.cons_append, List.flatMap_cons, List.flatMap_append,
    List.flatMap_nil, List.append_nil, List.length_append,
    o.length_errors_alone_down compiler hf, o.length_errors_alone_down compiler hg,
    o.length_errors_alone_down compiler hmerge] at hlength
  omega

/-- **Fields at the top are not merged.** Let two of them have the same name and response key.
For one database the response is that of the merged fields exactly if the errors are the same
and the second field by itself has the value that the merged ones have (the last one in between
with their key, if there is any), or one behind them replaces it. For every database this is so
exactly if the fields are `__typename` and nothing else that is in between keeps its value. -/
theorem response_merged_iff (services : Services Id) (compiler : Compiler) (o : Operation)
    {before between after : List RootField} {f g : RootField}
    (hfields : o.fields = before ++ f :: between ++ g :: after)
    (hname : g.head.name = f.head.name) (hkey : g.head.responseKey = f.head.responseKey) :
    (∀ executor, o.response services executor compiler
          = (o.merged before between after f g).response services executor compiler
        ↔ o.errorsOf executor compiler (f :: between ++ [g])
            = o.errorsOf executor compiler (f.merge g :: between)
          ∧ ((∃ h ∈ after, h.head.responseKey = f.head.responseKey)
            ∨ o.valueOf executor compiler g
              = o.valueOf executor compiler (lastBefore between f g)))
      ∧ ((∀ executor, o.response services executor compiler
            = (o.merged before between after f g).response services executor compiler)
        ↔ f.head.name = "__typename"
          ∧ ((∃ h ∈ after, h.head.responseKey = f.head.responseKey)
            ∨ (lastBefore between f g).head.name = "__typename")) := by
  have hone (executor : Executor) :=
    o.response_merged_iff_of executor compiler services hfields hkey
  refine ⟨hone, ?_⟩
  constructor
  · intro hall
    obtain ⟨herrors, hvalue⟩ := (hone down).mp (hall down)
    have hf := o.typename_of_errorsOf_down compiler hname herrors
    refine ⟨hf, ?_⟩
    rcases hvalue with hafter | hvalue
    · exact .inl hafter
    · by_contra hnot
      have hlast : (lastBefore between f g).head.name ≠ "__typename" := fun h => hnot (.inr h)
      rw [o.valueOf_typename down compiler (hname.trans hf), o.valueOf_down compiler hlast]
        at hvalue
      cases hvalue
  · rintro ⟨hf, hlast⟩ executor
    have hg : g.head.name = "__typename" := hname.trans hf
    have hmerge : (f.merge g).head.name = "__typename" := hf
    apply (hone executor).mpr
    refine ⟨?_, ?_⟩
    · simp [errorsOf, o.errors_alone_typename executor compiler hf,
        o.errors_alone_typename executor compiler hg,
        o.errors_alone_typename executor compiler hmerge]
    · rcases hlast with hafter | hlast
      · exact .inl hafter
      · right
        rw [o.valueOf_typename executor compiler hg, o.valueOf_typename executor compiler hlast]

end Operation

-- ============================================================ an instance

/-- Services in memory that keep nothing. -/
def Services.idle : Services Id where
  clock := 0
  answer need := (MemoryServices.answer (.ofDocument none) need).1
  execute _ _ := .ok []

namespace Operation

/-- The people with their names. -/
def names : RootField := ⟨.plain "Person", [.field (.plain "name") []]⟩

/-- The people with the years of their birth. -/
def years : RootField := ⟨.plain "Person", [.field (.plain "born") []]⟩

def namesThenYears : Operation := ⟨none, .query, [names, years], []⟩

/-- The same in one field. -/
def namesAndYears : Operation := namesThenYears.merged [] [] [] names years

/-- A database with one person. -/
def keanu : Executor := fun statement _ =>
  let person (entries : List (String × GraphValue)) : Except DatabaseError (List Row) :=
    .ok [[("Person", .map entries)]]
  if statement = "MATCH (`person`:`Person`)\nRETURN `person` \x7b.`name`\x7d AS `Person`" then
    person [("name", .string "Keanu")]
  else if statement = "MATCH (`person`:`Person`)\nRETURN `person` \x7b.`born`\x7d AS `Person`" then
    person [("born", .int 1964)]
  else if statement
      = "MATCH (`person`:`Person`)\nRETURN `person` \x7b.`name`, .`born`\x7d AS `Person`" then
    person [("name", .string "Keanu"), ("born", .int 1964)]
  else .error (.connection "unknown statement")

/-- The names were asked for, too. -/
theorem compact_namesThenYears :
    (namesThenYears.response .idle keanu ⟨.movies, .standard⟩).toJson.compact
      = "\x7b\"data\":\x7b\"Person\":[\x7b\"born\":1964\x7d]\x7d\x7d" := by
  decide +kernel

/-- Merged, the fields give names and years. -/
theorem compact_namesAndYears :
    (namesAndYears.response .idle keanu ⟨.movies, .standard⟩).toJson.compact
      = "\x7b\"data\":\x7b\"Person\":[\x7b\"name\":\"Keanu\",\"born\":1964\x7d]\x7d\x7d" := by
  decide +kernel

/-- The responses differ. -/
theorem response_namesThenYears_ne :
    namesThenYears.response .idle keanu ⟨.movies, .standard⟩
      ≠ namesAndYears.response .idle keanu ⟨.movies, .standard⟩ := by
  intro hsame
  have htext := compact_namesAndYears
  rw [← hsame, compact_namesThenYears] at htext
  revert htext
  decide

/-- The value of the second field is not that of the merged one. -/
theorem response_merged_iff_years :
    ¬ (namesThenYears.errorsOf keanu ⟨.movies, .standard⟩ [names, years]
          = namesThenYears.errorsOf keanu ⟨.movies, .standard⟩ [names.merge years]
        ∧ ((∃ h ∈ ([] : List RootField), h.head.responseKey = "Person")
          ∨ namesThenYears.valueOf keanu ⟨.movies, .standard⟩ years
            = namesThenYears.valueOf keanu ⟨.movies, .standard⟩ (lastBefore [] names years))) := by
  have hfields : namesThenYears.fields = [] ++ names :: [] ++ years :: [] := rfl
  obtain ⟨hone, -⟩ := response_merged_iff .idle ⟨.movies, .standard⟩ namesThenYears hfields rfl rfl
  intro hsame
  exact response_namesThenYears_ne ((hone keanu).mpr hsame)

/-- So the fields of a query are not merged whatever the database answers. -/
theorem not_response_merged :
    ¬ ∀ (services : Services Id) (executor : Executor) (compiler : Compiler) (o : Operation)
        (before between after : List RootField) (f g : RootField),
      o.kind = .query → o.fields = before ++ f :: between ++ g :: after →
      g.head.name = f.head.name → g.head.responseKey = f.head.responseKey →
      g.head.arguments = f.head.arguments →
        o.response services executor compiler
          = (o.merged before between after f g).response services executor compiler := by
  intro hall
  have hsame := hall .idle keanu ⟨.movies, .standard⟩ namesThenYears [] [] [] names years
    rfl rfl rfl rfl rfl
  exact response_namesThenYears_ne hsame

end Operation

end PropertyGraphQL
