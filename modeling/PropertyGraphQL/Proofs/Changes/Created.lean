/-
What a new node is made of.

The arguments of `create` are taken by one loop, which refuses a property
that is computed by a statement; the defaults are filled in by another, which
does not look whether a property is stored. So the map that is bound for the
properties of the node has the given arguments and every default besides
(`get?_withDefaults`), and a computed property that has a default is written
to the node although no argument may give it. With stored properties alone
the two loops agree (`creates_iff`).
-/
import PropertyGraphQL.Proofs.Changes.Statement
import PropertyGraphQL.Proofs.Data.Decidable
import PropertyGraphQL.Proofs.Parameters.Supplied
import PropertyGraphQL.Proofs.Schema.Labels
import PropertyGraphQL.Proofs.Selection.Reads

namespace PropertyGraphQL

open Cypher Compiling

-- ================================================================ defaults

namespace EntityType

/-- A property of the type that is stored in its nodes. -/
def Stores (t : EntityType) (name : String) : Prop :=
  ∃ p, t.property? name = some p ∧ p.isStored = true

/-- No property that a statement computes has a default. -/
def DefaultsStored (t : EntityType) : Prop :=
  ∀ ⦃name p⦄, t.property? name = some p → p.default.isSome = true → p.isStored = true

/-- What is given stays as it is, and what is not given has its default. -/
theorem get?_foldl_insertNew {properties : Dict PropertyField}
    (hnodup : properties.keys.Nodup) (values : Dict Json) (name : String) :
    (properties.foldl (fun values (name, property) =>
        match property.default with
        | some default => Dict.insertNew values name default
        | none => values) values).get? name
      = (values.get? name).or ((properties.get? name).bind PropertyField.default) := by
  induction properties generalizing values with
  | nil => simp
  | cons entry rest ih =>
    obtain ⟨key, property⟩ := entry
    obtain ⟨hkey, hrest⟩ := List.nodup_cons.mp hnodup
    rw [List.foldl_cons, ih hrest, Dict.get?_cons]
    dsimp only
    by_cases hname : key = name
    · subst hname
      rw [if_pos rfl, Dict.get?_eq_none_iff.mpr hkey, Option.bind_none, Option.or_none]
      cases hdefault : property.default with
      | some default => simp [Dict.get?_insertNew, hdefault]
      | none => simp [hdefault]
    · rw [if_neg hname]
      cases property.default with
      | some default => simp [Dict.get?_insertNew, hname]
      | none => rfl

/-- Under each name stands the value that is given, or else the default of the property. -/
theorem get?_withDefaults {t : EntityType} (ht : t.WellFormed) (values : Dict Json)
    (name : String) :
    (t.withDefaults values).get? name
      = (values.get? name).or ((t.property? name).bind PropertyField.default) :=
  get?_foldl_insertNew ht.properties_nodup values name

/-- Defaults are added under keys that are not taken. -/
theorem nodup_keys_withDefaults (t : EntityType) {values : Dict Json}
    (h : values.keys.Nodup) : (t.withDefaults values).keys.Nodup := by
  unfold withDefaults
  induction t.properties generalizing values with
  | nil => exact h
  | cons entry rest ih =>
    obtain ⟨key, property⟩ := entry
    rw [List.foldl_cons]
    apply ih
    dsimp only
    cases property.default with
    | none => exact h
    | some default =>
      unfold Dict.insertNew
      dsimp only
      split
      · exact h
      · exact Dict.nodup_keys_insert h _ _

end EntityType

-- =================================================================== given

namespace Outcome

variable {vars : Dict Json} {head : FieldHead} {t : EntityType} {given : Dict Json}

/-- Where none is excepted, all arguments are given. -/
theorem Stored.all (h : Stored vars head t none given) :
    List.Forall₂ (fun argument entry => entry.1 = argument.1 ∧ argument.2.StandsFor vars entry.2
      ∧ t.Stores argument.1) head.arguments given := by
  unfold Stored at h
  rw [List.filter_eq_self.mpr] at h
  · exact h
  · intro argument _
    rfl

/-- What is given under a name is what its argument stands for. -/
theorem Stored.get? (h : Stored vars head t none given) (name : String) :
    (head.arguments.get? name = none ∧ given.get? name = none)
      ∨ ∃ x j, head.arguments.get? name = some x ∧ given.get? name = some j
        ∧ x.StandsFor vars j ∧ t.Stores name := by
  replace h := h.all
  generalize head.arguments = arguments at h
  induction h with
  | nil => exact .inl ⟨rfl, rfl⟩
  | @cons argument entry arguments given hfirst _ ih =>
    obtain ⟨key, x⟩ := argument
    obtain ⟨key', j⟩ := entry
    obtain ⟨rfl, hj, hstored⟩ := hfirst
    by_cases hname : key' = name
    · subst hname
      exact .inr ⟨x, j, by simp, by simp, hj, hstored⟩
    · simpa [hname] using ih

/-- All arguments are stored, if none is used to find entities. -/
theorem Stored.keys (h : Stored vars head t none given) :
    given.keys = head.arguments.keys := by
  replace h := h.all
  generalize head.arguments = arguments at h
  induction h with
  | nil => rfl
  | cons hfirst _ ih => exact congrArg₂ List.cons hfirst.1 ih

/-- The properties of a new node: the values of the arguments, and the defaults
of those properties that count and are not given. -/
structure Filled (vars : Dict Json) (head : FieldHead) (t : EntityType)
    (counts : PropertyField → Prop) (stored : Dict Json) : Prop where
  keys : ∀ name, name ∈ stored.keys ↔ name ∈ head.arguments.keys
    ∨ ∃ p, t.property? name = some p ∧ counts p ∧ p.default.isSome = true
  nodup : head.arguments.keys.Nodup → stored.keys.Nodup
  given : ∀ ⦃name x⦄, head.arguments.get? name = some x →
    ∃ j, x.StandsFor vars j ∧ stored.get? name = some j
  default : ∀ ⦃name p j⦄, name ∉ head.arguments.keys → t.property? name = some p → counts p →
    p.default = some j → stored.get? name = some j

/-- What is given, filled up with the defaults of all properties. -/
theorem Stored.filled (h : Stored vars head t none given) (ht : t.WellFormed) :
    Filled vars head t (fun _ => True) (t.withDefaults given) := by
  refine ⟨fun name => ?_, fun hnodup => ?_, ?_, ?_⟩
  · rw [← Dict.contains_iff, Dict.contains, EntityType.get?_withDefaults ht, ← h.keys,
      ← Dict.contains_iff, Dict.contains]
    cases given.get? name with
    | some j => simp
    | none =>
      cases t.property? name with
      | some p => simp
      | none => simp
  · rw [← h.keys] at hnodup
    exact t.nodup_keys_withDefaults hnodup
  · intro name x hx
    rcases h.get? name with ⟨hnone, -⟩ | ⟨x', j, hx', hj, hstands, -⟩
    · rw [hnone] at hx
      cases hx
    · rw [hx'] at hx
      cases hx
      exact ⟨j, hstands, by simp [EntityType.get?_withDefaults ht, hj]⟩
  · intro name p j hname hp _ hdefault
    rw [← h.keys, ← Dict.get?_eq_none_iff] at hname
    simp [EntityType.get?_withDefaults ht, hname, hp, hdefault]

/-- The arguments give stored properties only. -/
theorem Stored.stores (h : Stored vars head t none given) {name : String}
    (hname : name ∈ head.arguments.keys) : t.Stores name := by
  rcases h.get? name with ⟨hnone, -⟩ | ⟨_, _, _, _, _, hstores⟩
  · exact absurd hname (Dict.get?_eq_none_iff.mp hnone)
  · exact hstores

/-- Defaults of computed properties are what keeps the map from having stored
properties only. -/
theorem Filled.stores_iff {stored : Dict Json} (h : Filled vars head t (fun _ => True) stored)
    (harguments : ∀ name ∈ head.arguments.keys, t.Stores name) :
    (∀ name ∈ stored.keys, t.Stores name) ↔ t.DefaultsStored := by
  constructor
  · intro hstores name p hp hdefault
    obtain ⟨p', hp', hstored⟩ := hstores name ((h.keys name).mpr (.inr ⟨p, hp, trivial, hdefault⟩))
    rw [hp] at hp'
    cases hp'
    exact hstored
  · intro hdefaults name hname
    rcases (h.keys name).mp hname with hname | ⟨p, hp, -, hdefault⟩
    · exact harguments name hname
    · exact ⟨p, hp, hdefaults hp hdefault⟩

/-- Where every argument is for a stored property, what is filled in is all stored exactly if
the defaults are. -/
theorem Filled.stored_iff {stored : Dict Json} (h : Filled vars head t (fun _ => True) stored)
    (harguments : ∀ name ∈ head.arguments.keys, t.Stores name) :
    Filled vars head t (fun p => p.isStored = true) stored ↔ t.DefaultsStored := by
  constructor
  · intro hfilled
    refine (h.stores_iff harguments).mp fun name hname => ?_
    rcases (hfilled.keys name).mp hname with hname | ⟨p, hp, hstored, -⟩
    · exact harguments name hname
    · exact ⟨p, hp, hstored⟩
  · intro hdefaults
    refine ⟨fun name => ?_, h.nodup, h.given, fun name p j hname hp _ => h.default hname hp trivial⟩
    rw [h.keys]
    refine or_congr_right (exists_congr fun p => and_congr_right fun hp => ?_)
    constructor
    · rintro ⟨-, hdefault⟩
      exact ⟨hdefaults hp hdefault, hdefault⟩
    · rintro ⟨-, hdefault⟩
      exact ⟨trivial, hdefault⟩

end Outcome

-- =============================================================== statement

/-- The statement makes a node with all labels of the type and gives it the
properties that the parameter `properties` has. -/
structure Compiled.Creates (compiled : Compiled) (head : FieldHead) (t : EntityType)
    (stored : Dict Json) : Prop where
  clauses : ∃ returning, compiled.body = .clauses ⟨head.planReport?,
    .create (.node ⟨some (rootVariable t.name head.responseKey), t.allLabels, []⟩)
      :: .set [.replace (rootVariable t.name head.responseKey) (.parameter "properties")]
      :: returning⟩
  bound : ∃ j, compiled.parameters.get? "properties" = some j ∧ (Json.obj stored).Agrees j

namespace Compiler

variable {c : Compiler} {vars : Dict Json}

/-- The properties are the first value that is bound, so their parameter has its
own name. -/
theorem creates_of_run {f : RootField} {t : EntityType} {clauses : List Clause} {q : Parameters}
    (isList : Bool) (h : (c.createClauses f t).run ⟨vars, []⟩ = .ok (clauses, q)) :
    ∃ given, Outcome.Stored vars f.head t none given
      ∧ (finish f.head clauses q isList).Creates f.head t (t.withDefaults given) := by
  unfold createClauses at h
  rw [StateT.run_bind] at h
  obtain ⟨⟨given, p⟩, hgiven, h⟩ := bind_eq_ok_iff.mp h
  rw [StateT.run_bind] at h
  obtain ⟨⟨properties, p'⟩, hproperties, h⟩ := bind_eq_ok_iff.mp h
  rw [StateT.run_bind] at h
  obtain ⟨⟨returning, p''⟩, hreturning, h⟩ := bind_eq_ok_iff.mp h
  cases h
  obtain ⟨hvars, -, hstored⟩ := f.head.yields_storedProperties t none rfl hgiven
  have hkeys := (f.head.binds_storedProperties t [] none).keys hgiven
  -- nothing is bound before the properties, so their name is free
  have hempty : p.bound = [] := by
    have hnone : p.bound.keys = [] := by
      refine List.eq_nil_iff_forall_not_mem.mpr fun name hname => ?_
      simpa [Dict.keys] using (hkeys name).mp hname
    exact List.map_eq_nil_iff.mp hnone
  have hfree : p.freeName "properties" (.obj (t.withDefaults given)) = "properties" := by
    simp [Parameters.freeName, Parameters.candidates, Parameters.available, hempty]
  cases hproperties
  rw [hfree] at hreturning
  refine ⟨given, hstored (.refl _), ⟨returning, ?_⟩, ?_⟩
  · rw [hfree]
    rfl
  · have hset : (p.set "properties" (.obj (t.withDefaults given))).vars = vars := hvars
    exact (c.yields_returning f t _ hset hreturning).2.1
      (Dict.get?_insert_self p.bound "properties" _)

/-- A type that is created is a type of the catalog. -/
theorem type?_of_translates {f : RootField} {t : EntityType} {compiled : Compiled}
    (h : c.Translates f vars (.change (.create t)) compiled) :
    ∃ name, c.catalog.type? name = some t := by
  cases h with
  | compile hpurpose _ => exact type?_of_purpose? hpurpose rfl

/-- **What is created.** A new node has the name of its type and its interfaces as
labels, each once, and the value bound for its properties gives the arguments, which
name stored properties only, as what they stand for, and the default of every property
that is not given. These are the stored properties alone exactly if no property that
a statement computes has a default. -/
theorem creates_stored_iff {text : String} (hparse : Catalog.parse text = .ok c.catalog)
    {f : RootField} {t : EntityType} {compiled : Compiled}
    (h : c.Translates f vars (.change (.create t)) compiled) :
    ∃ d stored, SchemaDocument.parse text = .ok d ∧ compiled.Creates f.head t stored
      ∧ Outcome.Filled vars f.head t (fun _ => True) stored
      ∧ (∀ name ∈ f.head.arguments.keys, t.Stores name)
      ∧ t.allLabels.Nodup
      ∧ (∀ label, label ∈ t.allLabels ↔ label = t.name ∨ label ∈ d.interfacesOf t.name)
      ∧ (Outcome.Filled vars f.head t (fun p => p.isStored = true) stored ↔ t.DefaultsStored)
      ∧ ((∀ name ∈ stored.keys, t.Stores name) ↔ t.DefaultsStored) := by
  obtain ⟨clauses, q, isList, hrun, rfl⟩ := run_of_translates h
  obtain ⟨given, hgiven, hcreates⟩ := creates_of_run isList hrun
  obtain ⟨name, ht⟩ := type?_of_translates h
  have hdocument : ∃ d, SchemaDocument.parse text = .ok d := by
    unfold Catalog.parse at hparse
    split at hparse
    · next d hread => exact ⟨d, hread⟩
    · cases hparse
  obtain ⟨d, hread⟩ := hdocument
  -- the catalog is that of the document, whose interfaces become labels
  have hmade : Catalog.ofDocument d = .ok c.catalog := by
    rw [Catalog.parse, hread] at hparse
    exact hparse
  obtain ⟨rfl, hwell⟩ := (Vocabulary.gathered_ofDocument hmade).wellFormed.type ht
  obtain ⟨hnodup, hlabels⟩ := Catalog.labels_of_parse hread hparse ht
  have hfilled := hgiven.filled hwell
  have harguments : ∀ name ∈ f.head.arguments.keys, t.Stores name := fun _ => hgiven.stores
  exact ⟨d, t.withDefaults given, hread, hcreates, hfilled, harguments, hnodup, hlabels,
    hfilled.stored_iff harguments, hfilled.stores_iff harguments⟩

/-- What is written when an entity is created: the given values with the defaults, bound as one
parameter. -/
theorem run_createClauses {f : RootField} {t : EntityType} {given : Dict Json}
    {properties : Expression} {following : List Clause} {p q r s : Parameters}
    (hgiven : (f.head.storedProperties t none).run p = .ok (given, q))
    (hproperties : (Compiling.bind "properties" (.obj (t.withDefaults given))).run q
      = .ok (properties, r))
    (hreturning : (c.returning f t (rootVariable t.name f.head.responseKey)).run r
      = .ok (following, s)) :
    (c.createClauses f t).run p
      = .ok (.create (.node ⟨some (rootVariable t.name f.head.responseKey), t.allLabels, []⟩)
          :: .set [.replace (rootVariable t.name f.head.responseKey) properties] :: following,
        s) := by
  unfold createClauses
  simp only [StateT.run_bind]
  simp only [hgiven, hproperties, hreturning, Bind.bind, Except.bind]
  rfl

end Compiler

-- ============================================================= an instance

/-- Films, whose stars are computed and have a default all the same. -/
def Catalog.starredText : String :=
  "type Film \x7b stars: Int @cypher(statement: \"3\") @defaultValue(value: 3) \x7d"

/-- The stars of a film. -/
def PropertyField.stars : PropertyField :=
  { PropertyField.plain "stars" (.scalar "Int") with
    default := some (.int 3), custom := some (.plain "3") }

def EntityType.film : EntityType :=
  { EntityType.blank "Film" with properties := [("stars", .stars)] }

def Catalog.starred : Catalog := { Catalog.empty with types := [("Film", .film)] }

theorem Catalog.parse_starredText : Catalog.parse Catalog.starredText = .ok .starred := by
  decide +kernel

def Compiler.starred : Compiler := ⟨.starred, .standard⟩

/-- A film is made, of which nothing is given. -/
def RootField.newcomer : RootField where
  head := .plain "createFilm"
  selections := [.field (.plain "_id") []]

/-- The stars are written to the node. -/
theorem Compiler.translates_newcomer :
    ∃ compiled, Compiler.starred.Translates .newcomer [] (.change (.create .film)) compiled
      ∧ compiled.parameters = [("properties", .obj [("stars", .int 3)])] := by
  have hpurpose : Compiler.starred.purpose? true .newcomer = some (.change (.create .film)) := rfl
  have hnamed : Compiler.starred.catalog.mutationNamed? "createFilm" = some (.create .film) := rfl
  have hroot : rootVariable EntityType.film.name RootField.newcomer.head.responseKey
      = "film" := by decide
  have hreturning := run_returning (c := .starred) (f := .newcomer) (t := .film)
    (p := ⟨[], [("properties", .obj [("stars", .int 3)])]⟩) rfl
    (run_planFields_value rfl (run_planFields_nil "film" _))
  have hrun := run_createClauses (c := .starred) (f := .newcomer) (t := .film) (p := ⟨[], []⟩)
    rfl rfl (hroot ▸ hreturning)
  have hcompiled := mutation_eq_of_run (c := .starred) (f := .newcomer) rfl hnamed hrun
  exact ⟨_, .compile hpurpose hcompiled, rfl⟩

/-- The node of the new film has the stars, which no argument could give it. -/
theorem Compiler.creates_stored_iff_newcomer :
    ∃ compiled stored, Compiler.starred.Translates .newcomer [] (.change (.create .film)) compiled
      ∧ compiled.Creates RootField.newcomer.head .film stored
      ∧ "stars" ∈ stored.keys ∧ ¬ EntityType.film.Stores "stars" := by
  obtain ⟨compiled, h, -⟩ := translates_newcomer
  obtain ⟨d, stored, -, hcreates, hfilled, -⟩ := creates_stored_iff Catalog.parse_starredText h
  have hstars : EntityType.film.property? "stars" = some .stars := rfl
  refine ⟨compiled, stored, h, hcreates, ?_, ?_⟩
  · exact (hfilled.keys "stars").mpr (.inr ⟨_, hstars, trivial, rfl⟩)
  · rintro ⟨p, hp, hstored⟩
    rw [hstars] at hp
    cases hp
    cases hstored

/-- So it is not the stored properties that a new node has. -/
theorem Compiler.not_creates_stored :
    ¬ ∀ (text : String) (c : Compiler) (f : RootField) (vars : Dict Json) (t : EntityType)
        (compiled : Compiled),
      Catalog.parse text = .ok c.catalog → c.Translates f vars (.change (.create t)) compiled →
        ∃ stored, compiled.Creates f.head t stored
          ∧ Outcome.Filled vars f.head t (fun p => p.isStored = true) stored := by
  intro hcreated
  obtain ⟨compiled, h, hparameters⟩ := translates_newcomer
  obtain ⟨stored, hcreates, hfilled⟩ := hcreated _ _ _ _ _ compiled Catalog.parse_starredText h
  have hnone (name : String) : name ∉ stored.keys := by
    intro hname
    rcases (hfilled.keys name).mp hname with hname | ⟨p, hp, hstored, -⟩
    · cases hname
    · have hmem := Dict.mem_of_get? hp
      cases List.mem_singleton.mp hmem
      cases hstored
  have hempty : stored = [] := List.map_eq_nil_iff.mp (List.eq_nil_iff_forall_not_mem.mpr hnone)
  obtain ⟨j, hj, hagrees⟩ := hcreates.bound
  rw [hparameters] at hj
  cases hj
  rw [hempty] at hagrees
  rcases hagrees with heq | hsame
  · cases heq
  · cases hsame

end PropertyGraphQL
