/-
Which statements have a map with a key twice.

Besides the maps of the projection a statement has none but the one that asks
for the node of a change, whose only key is the identifying property. So what
is true of a plan is true of the statement, whatever it is made for: no map has
a key twice exactly if for every field that is read the names that its statement
is run with are apart (`Compiler.keysDistinct_iff_namesApart`). They need not be, as nothing
looks for a name that stands among the static parameters and the declared
arguments of one statement.
-/
import PropertyGraphQL.Proofs.Data.Decidable
import PropertyGraphQL.Proofs.Keys.Fields
import PropertyGraphQL.Proofs.Keys.Schema

namespace PropertyGraphQL

open Cypher Compiling

namespace FieldHead

variable {vars : Dict Json} (head : FieldHead)

/-- A node is told by one property, whose value is a parameter. -/
theorem yields_distinct_identifiedNode (t : EntityType) (id : PropertyField) (entity : String) :
    Yields vars (head.identifiedNode t id entity) fun _ node => node.KeysDistinct := by
  refine (head.yields_identifiedNode t id entity).mono fun _ _ h => ?_
  obtain ⟨-, -, _, _, rfl, -, -⟩ := h
  simp

end FieldHead

namespace Compiler

variable {vars : Dict Json} (c : Compiler)

/-- The names are apart for every statement that is run for collected fields. -/
def NamesApart (fields : List Collected) : Prop :=
  ∀ f, Collected.Reads c.catalog fields f → f.NamesApart

section

variable (hc : c.catalog.KeysDistinct) (hvars : vars.ValuesKeysDistinct) {f : RootField}
  (hf : f.Every FieldHead.KeysDistinct) {t : EntityType} (ht : t.KeysDistinct)

include hc hvars ht

/-- A projection has distinct keys exactly if the names of all statements below it are apart. -/
theorem yields_distinct_project (entity : String) {ss : List Selection}
    (hss : Selection.EveryIn FieldHead.KeysDistinct ss) :
    Yields vars (c.project t entity ss) fun _ projection =>
      projection.1.KeysDistinct ∧ Clause.AllKeysDistinct projection.2
        ↔ c.NamesApart (Collected.collect c.catalog t ss) := by
  have hplan : Yields vars (c.plan t entity ss) fun _ entries =>
      (c.projected entity entries).1.KeysDistinct
          ∧ Clause.AllKeysDistinct (c.projected entity entries).2
        ↔ c.NamesApart (Collected.collect c.catalog t ss) := by
    refine ((c.yields_plan t entity ss).and (c.yields_distinct_planFields hc hvars entity _)).mono
      fun _ entries h => ?_
    obtain ⟨hentries, hdistinct⟩ := h
    have hkeys : (entries.map Prod.fst).Nodup := by
      rw [hentries.keys, Collected.keys_collect]
      exact nodup_eraseDups _
    rw [c.keysDistinct_projected, hdistinct (Collected.keysDistinct_collect hc ht hss)]
    exact and_iff_right hkeys
  unfold project
  refine hplan.bind fun entries => ?_
  unfold projected
  cases c.options.dialect with
  | comprehension => exact .pure fun _ h => h
  | staged => exact .pure fun _ h => h

include hf

/-- What returns an entity has distinct keys exactly if the names of all statements below it are
apart. -/
theorem yields_distinct_returning (entity : String) :
    Yields vars (c.returning f t entity) fun _ clauses =>
      Clause.AllKeysDistinct clauses
        ↔ c.NamesApart (Collected.collect c.catalog t f.selections) := by
  unfold returning
  split
  · next h =>
    refine .pure fun _ => iff_of_true ?_ ?_
    · simp [FieldHead.countClause, ReturnItem.aliased, OrderBy.KeysDistinct]
    · rw [List.isEmpty_iff.mp h]
      exact Collected.forall_reads_nil
  · refine (c.yields_distinct_project hc hvars ht entity hf.2).bind fun projection => ?_
    obtain ⟨projection, nested⟩ := projection
    refine .pure fun _ h => ?_
    have hreturned : Clause.AllKeysDistinct
        [.returnItems [.aliased projection f.head.responseKey] none none none]
          ↔ projection.KeysDistinct := by
      simp [ReturnItem.aliased, OrderBy.KeysDistinct]
    have hcarried : (Clause.withItems [.carried entity] none).KeysDistinct := by
      simp [ReturnItem.carried, OrderBy.KeysDistinct]
    rw [← h, Clause.allKeysDistinct_append, hreturned, and_comm]
    cases nested with
    | nil => rfl
    | cons clause rest =>
      refine and_congr_right fun _ => ?_
      exact (Clause.allKeysDistinct_cons _ _).trans (and_iff_right hcarried)

/-- Selecting brings in the condition on the entities, which has no key twice. -/
theorem yields_distinct_scopeClauses :
    Yields vars (c.scopeClauses f t) fun _ clauses =>
      Clause.AllKeysDistinct clauses
        ↔ c.NamesApart (Collected.collect c.catalog t f.selections) := by
  unfold scopeClauses
  refine (ScopeArguments.yields_distinct_ofArguments _ _ _ hvars _ hf.1).bind fun a =>
    (c.yields_distinct_project hc hvars ht _ hf.2).bind fun projection => ?_
  obtain ⟨projection, nested⟩ := projection
  refine .pure fun _ h hcondition => ?_
  rw [← h]
  simp [Pattern.node, NodePattern.labelled, ReturnItem.aliased, hcondition,
    ScopeArguments.keysDistinct_orderByClause, and_comm]

/-- The clauses that create an entity write one parameter, so only what is returned counts. -/
theorem yields_distinct_createClauses :
    Yields vars (c.createClauses f t) fun _ clauses =>
      Clause.AllKeysDistinct clauses
        ↔ c.NamesApart (Collected.collect c.catalog t f.selections) := by
  unfold createClauses
  refine (f.head.yields_storedProperties t none).bind fun given =>
    (yields_bind "properties" _).bind fun properties =>
      (c.yields_distinct_returning hc hvars hf ht _).bind fun returning => .pure ?_
  rintro final hreturning ⟨name, _, rfl, -, -⟩ -
  rw [← hreturning]
  simp [Pattern.node]

/-- The clauses that update an entity write one parameter, so only what is returned counts. -/
theorem yields_distinct_updateClauses :
    Yields vars (c.updateClauses f t) fun _ clauses =>
      Clause.AllKeysDistinct clauses
        ↔ c.NamesApart (Collected.collect c.catalog t f.selections) := by
  unfold updateClauses
  refine (f.head.yields_idProperty t).bind fun id =>
    (f.head.yields_distinct_identifiedNode t id _).bind fun node =>
      (f.head.yields_storedProperties t _).bind fun given =>
        (yields_bind "properties" _).bind fun properties =>
          (c.yields_distinct_returning hc hvars hf ht _).bind fun returning => .pure ?_
  rintro final hreturning ⟨name, _, rfl, -, -⟩ - hnode -
  rw [← hreturning]
  simp [Pattern.node, hnode]

end

/-- The clauses that delete an entity have distinct keys. -/
theorem yields_distinct_deleteClauses (f : RootField) (t : EntityType) :
    Yields vars (deleteClauses f t) fun _ clauses => Clause.AllKeysDistinct clauses := by
  unfold deleteClauses
  refine (f.head.yields_idProperty t).bind fun id =>
    (f.head.yields_allowOnly t _).bind fun _ =>
      (f.head.yields_distinct_identifiedNode t id _).bind fun node => .pure ?_
  rintro - hnode - -
  simp [Pattern.node, hnode, FieldHead.countClause,
      ReturnItem.aliased, OrderBy.KeysDistinct]

/-- The clauses that connect or disconnect entities have distinct keys. -/
theorem yields_distinct_relateClauses (f : RootField) (t : EntityType) (r : RelationshipField)
    (connect : Bool) :
    Yields vars (c.relateClauses f t r connect) fun _ clauses =>
      Clause.AllKeysDistinct clauses := by
  refine (c.yields_relateClauses f t r connect).mono fun _ _ h => ?_
  obtain ⟨-, -, -, -, ⟨-, -, _, _, rfl, -, -⟩, -, -, _, _, rfl, -, -⟩ := h
  cases connect <;>
    simp [Pattern.node, Pattern.related, NodePattern.named, NodePattern.labelled,
      FieldHead.countClause,
      ReturnItem.aliased, OrderBy.KeysDistinct]

/-- The maps of the clauses have distinct keys exactly if the names are apart for
every statement that is run for a field. -/
theorem yields_distinct_purposeClauses (hc : c.catalog.KeysDistinct)
    (hvars : vars.ValuesKeysDistinct) {f : RootField} (hf : f.Every FieldHead.KeysDistinct)
    {purpose : Purpose} (hpurpose : ∀ t ∈ purpose.read?, t.KeysDistinct) :
    Yields vars (c.purposeClauses f purpose) fun _ clauses =>
      Clause.AllKeysDistinct clauses ↔ c.NamesApart (c.collected f purpose) := by
  cases purpose with
  | select t => exact c.yields_distinct_scopeClauses hc hvars hf (hpurpose t rfl)
  | change mutation =>
    cases mutation with
    | create t => exact c.yields_distinct_createClauses hc hvars hf (hpurpose t rfl)
    | update t => exact c.yields_distinct_updateClauses hc hvars hf (hpurpose t rfl)
    | delete t =>
      exact (yields_distinct_deleteClauses f t).mono fun _ _ h =>
        iff_of_true h Collected.forall_reads_nil
    | addRelationship t r =>
      exact (c.yields_distinct_relateClauses f t r true).mono fun _ _ h =>
        iff_of_true h Collected.forall_reads_nil
    | deleteRelationship t r =>
      exact (c.yields_distinct_relateClauses f t r false).mono fun _ _ h =>
        iff_of_true h Collected.forall_reads_nil

variable {c}

/-- **Keys of maps.** No map of a statement, be it written out, a projection, a
constant or asked of a node, has a key twice, exactly if no field that is read, at
any depth, has a statement one of whose declared arguments has the name of a static
parameter, or one of either is called `this`. -/
theorem keysDistinct_iff_namesApart {text : String} (hparse : Catalog.parse text = .ok c.catalog)
    {f : RootField} (hf : f.Every FieldHead.KeysDistinct) (hvars : vars.ValuesKeysDistinct)
    {purpose : Purpose} (hknown : ∀ t ∈ purpose.read?, ∃ name, c.catalog.type? name = some t)
    {compiled : Compiled} (h : c.Translates f vars purpose compiled) :
    ∃ s, compiled.body = .clauses s
      ∧ (s.KeysDistinct ↔ ∀ g, Collected.Reads c.catalog (c.collected f purpose) g →
        ∀ custom declared, g.statement? = some (custom, declared) →
          custom.NamesApart declared) := by
  obtain ⟨clauses, p, isList, hrun, rfl⟩ := run_of_translates h
  have hc := Catalog.keysDistinct_of_parse hparse
  have htypes : ∀ t ∈ purpose.read?, t.KeysDistinct := by
    intro t ht
    obtain ⟨name, hname⟩ := hknown t ht
    exact hc hname
  exact ⟨_, rfl, (c.yields_distinct_purposeClauses hc hvars hf htypes).of_run hrun⟩

end Compiler

-- ============================================================= an instance

/-- Films, whose rank is computed from an argument that has the name of a static
parameter. -/
def Catalog.rankedText : String :=
  "type Film \x7brank(top: Int): Int @cypher(statement: \"3\", params: \x7btop: 5\x7d)\x7d"

def CustomStatement.rank : CustomStatement := ⟨"3", [("top", .int 5)], false⟩

/-- The rank of a film. -/
def PropertyField.rank : PropertyField :=
  { PropertyField.plain "rank" (.scalar "Int") with
    custom := some .rank, arguments := [("top", .plain "top" (.scalar "Int"))] }

def EntityType.ranked : EntityType :=
  { EntityType.blank "Film" with properties := [("rank", .rank)] }

def Catalog.ranked : Catalog := { Catalog.empty with types := [("Film", .ranked)] }

theorem Catalog.parse_rankedText : Catalog.parse Catalog.rankedText = .ok .ranked := by
  decide +kernel

/-- A compiler for ranked films. -/
def Compiler.ranked (dialect : Dialect) : Compiler :=
  ⟨.ranked, { CompileOptions.standard with dialect }⟩

/-- The rank of a field, with an argument for it. -/
def FieldHead.rank : FieldHead := ⟨"rank", none, [("top", .int 3)], []⟩

/-- All films with their rank. -/
def RootField.ranks : RootField := ⟨.plain "Film", [.field .rank []]⟩

theorem RootField.keysDistinct_ranks : RootField.ranks.Every FieldHead.KeysDistinct := by
  refine ⟨trivial, ⟨⟨trivial, trivial⟩, trivial⟩, trivial⟩

namespace Compiler

/-- In either dialect the call has the name twice. -/
theorem compiled_ranks (dialect : Dialect) :
    ∃ compiled s, (Compiler.ranked dialect).compile false .ranks [] = .ok compiled
      ∧ compiled.body = .clauses s ∧ ¬ s.KeysDistinct := by
  have hroot : rootVariable EntityType.ranked.name RootField.ranks.head.responseKey = "film" := by
    decide
  refine ⟨_, _, scopeQuery_eq_of_runs true hroot rfl
    (run_planFields_value rfl (run_planFields_nil _ _)), rfl, fun h => ?_⟩
  obtain ⟨-, h⟩ := (Clause.allKeysDistinct_cons _ _).mp h
  obtain ⟨hnested, hreturned⟩ := (Clause.allKeysDistinct_append _ _).mp h
  have hprojected := hreturned _ List.mem_cons_self
  have hentries := ((Compiler.ranked dialect).keysDistinct_projected _ _).mp
    ⟨hprojected.1 _ List.mem_cons_self, hnested⟩
  obtain ⟨-, hcall, -⟩ := hentries
  obtain ⟨⟨-, ⟨hnames, -⟩, -⟩, -⟩ := hcall
  exact absurd hnames (by decide)

/-- The rank of the films is read, and `top` is the name of a static parameter of
its statement and of an argument. -/
theorem keysDistinct_iff_namesApart_ranks :
    ∃ compiled s, (Compiler.ranked .staged).compile false .ranks [] = .ok compiled
      ∧ compiled.body = .clauses s ∧ ¬ s.KeysDistinct := by
  obtain ⟨compiled, -, h, -, -⟩ := compiled_ranks .staged
  have hpurpose : (Compiler.ranked .staged).purpose? false .ranks = some (.select .ranked) := rfl
  have hvars : Dict.ValuesKeysDistinct [] := by
    intro name j hj
    cases hj
  obtain ⟨s, hbody, hiff⟩ := keysDistinct_iff_namesApart (c := .ranked .staged)
    Catalog.parse_rankedText RootField.keysDistinct_ranks hvars
    (fun _ => type?_of_purpose? hpurpose) (.compile hpurpose h)
  refine ⟨compiled, s, h, hbody, fun hs => ?_⟩
  have hapart := hiff.mp hs ⟨"rank", .rank, .ranked, []⟩ (.here List.mem_cons_self) .rank _ rfl
  exact hapart.apart "top" (by decide) (by decide)

/-- So not every map that is written has distinct keys. -/
theorem not_keysDistinct :
    ¬ ∀ (text : String) (c : Compiler) (f : RootField) (vars : Dict Json) (isMutation : Bool)
        (compiled : Compiled) (s : Statement),
      Catalog.parse text = .ok c.catalog → f.Every FieldHead.KeysDistinct →
        vars.ValuesKeysDistinct → c.compile isMutation f vars = .ok compiled →
          compiled.body = .clauses s → s.KeysDistinct := by
  intro hdistinct
  obtain ⟨compiled, s, h, hbody, hnot⟩ := compiled_ranks .comprehension
  have hvars : Dict.ValuesKeysDistinct [] := by
    intro name j hj
    cases hj
  exact hnot (hdistinct Catalog.rankedText _ _ _ false compiled s Catalog.parse_rankedText
    RootField.keysDistinct_ranks hvars h hbody)

end Compiler

end PropertyGraphQL
