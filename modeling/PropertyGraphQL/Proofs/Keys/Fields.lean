/-
The maps that fields bring into a plan.

A value that is given brings its own objects, in which no key is repeated, and a
condition brings the values that it compares with. Maps that are made are two: that
of the entries of an entity, whose keys are response keys and collected without
repetition, and that of the names a statement is run with. The second puts three
sources one behind the other, and it is the one that may have a key twice
(`Compiler.yields_distinct_customCall`). So a plan has distinct keys exactly if the
names are apart for all statements that its fields run, at every depth
(`Compiler.keysDistinct_planFields`).
-/
import PropertyGraphQL.Proofs.Data.Dict
import PropertyGraphQL.Proofs.Filter.Evaluation
import PropertyGraphQL.Proofs.Keys.Maps
import PropertyGraphQL.Proofs.Parameters.Values
import PropertyGraphQL.Proofs.Selection.Reads
import PropertyGraphQL.Proofs.Selection.Statement

namespace PropertyGraphQL

open Cypher Compiling

-- ================================================================== values

namespace Value

/-- The entries of an object have distinct keys further in if each of its values has. -/
theorem entriesKeysDistinct_iff (entries : List (String × Value)) :
    EntriesKeysDistinct entries ↔ ∀ entry ∈ entries, entry.2.KeysDistinct := by
  induction entries with
  | nil => simp [EntriesKeysDistinct]
  | cons entry rest ih => simp [EntriesKeysDistinct, ih]

/-- The literal for an object has its keys. -/
theorem keys_entryLiterals (entries : List (String × Value)) :
    Dict.keys (entryLiterals entries) = Dict.keys entries := by
  induction entries with
  | nil => rfl
  | cons entry rest ih =>
    obtain ⟨key, x⟩ := entry
    rw [entryLiterals]
    exact congrArg (key :: ·) ih

mutual

/-- Writing a value as a constant makes no new keys. -/
theorem KeysDistinct.literal {x : Value} (h : x.KeysDistinct) : x.literal.KeysDistinct := by
  cases x with
  | list elems =>
    rw [Value.literal, Literal.KeysDistinct]
    exact ElemsKeysDistinct.literals h
  | object entries =>
    rw [Value.literal, Literal.KeysDistinct, keys_entryLiterals]
    exact ⟨h.1, EntriesKeysDistinct.literals h.2⟩
  | _ => trivial

/-- Distinct keys in the elements of a list are distinct in their literals. -/
theorem ElemsKeysDistinct.literals {elems : List Value} (h : ElemsKeysDistinct elems) :
    Literal.ElemsKeysDistinct (elemLiterals elems) := by
  cases elems with
  | nil => trivial
  | cons x rest => exact ⟨KeysDistinct.literal h.1, ElemsKeysDistinct.literals h.2⟩

/-- Distinct keys in the entries of an object are distinct in their literals. -/
theorem EntriesKeysDistinct.literals {entries : List (String × Value)}
    (h : EntriesKeysDistinct entries) : Literal.EntriesKeysDistinct (entryLiterals entries) := by
  match entries with
  | [] => trivial
  | (key, x) :: rest => exact ⟨KeysDistinct.literal h.1, EntriesKeysDistinct.literals h.2⟩

end

variable {vars : Dict Json}

mutual

/-- The expression made from a value has the objects of the value, and no other
maps. -/
theorem yields_distinct_expression (x : Value) :
    Yields vars x.expression fun _ e => x.KeysDistinct → e.KeysDistinct := by
  cases x with
  | var name =>
    rw [expression]
    refine (yields_valueOf name).bind fun v => (yields_bind name v).mono ?_
    rintro _ _ ⟨_, _, rfl, -, -⟩ - -
    trivial
  | list elems =>
    rw [expression]
    split
    · exact (yields_distinct_elemExpressions elems).map fun _ _ h => h
    · exact .pure fun _ h => ElemsKeysDistinct.literals h
  | object entries =>
    rw [expression]
    split
    · refine (yields_distinct_entryExpressions entries).map fun _ es h hkeys => ?_
      exact ⟨h.1.symm ▸ hkeys.1, h.2 hkeys.2⟩
    · refine .pure fun _ h => ?_
      rw [Expression.KeysDistinct, Literal.KeysDistinct, keys_entryLiterals]
      exact ⟨h.1, EntriesKeysDistinct.literals h.2⟩
  | _ =>
    rw [expression]
    · exact .pure fun _ _ => trivial
    all_goals intros; contradiction

/-- Elements with distinct keys are written with distinct keys. -/
theorem yields_distinct_elemExpressions (elems : List Value) :
    Yields vars (elemExpressions elems)
      fun _ es => ElemsKeysDistinct elems → Expression.AllKeysDistinct es := by
  cases elems with
  | nil =>
    rw [elemExpressions]
    exact .pure fun _ _ => trivial
  | cons x rest =>
    rw [elemExpressions]
    refine (yields_distinct_expression x).bind fun e =>
      (yields_distinct_elemExpressions rest).bind fun es => .pure fun _ hrest hfirst h => ?_
    exact ⟨hfirst h.1, hrest h.2⟩

/-- Entries are written under their keys, and what is distinct further in stays so. -/
theorem yields_distinct_entryExpressions (entries : List (String × Value)) :
    Yields vars (entryExpressions entries) fun _ es =>
      es.map Prod.fst = Dict.keys entries
        ∧ (EntriesKeysDistinct entries → Expression.EntriesKeysDistinct es) := by
  match entries with
  | [] =>
    rw [entryExpressions]
    exact .pure fun _ => ⟨rfl, fun _ => trivial⟩
  | (key, x) :: rest =>
    rw [entryExpressions]
    refine (yields_distinct_expression x).bind fun e =>
      (yields_distinct_entryExpressions rest).bind fun es => .pure fun _ hrest hfirst => ?_
    exact ⟨congrArg (key :: ·) hrest.1, fun h => ⟨hfirst h.1, hrest.2 h.2⟩⟩

end

end Value

-- ============================================================== conditions

/-- A condition may be compared with more expressions than it is. -/
theorem Cypher.Predicate.Filtering.mono {R R' : Expression → Prop} {entity : String}
    {p : Predicate} (h : p.Filtering R entity) (himp : ∀ e, R e → R' e) :
    p.Filtering R' entity := by
  induction h with
  | always => exact .always
  | never => exact .never
  | compare compared => exact .compare (himp _ compared)
  | isNull => exact .isNull
  | isNotNull => exact .isNotNull
  | quantified _ ih => exact .quantified ih
  | conj _ _ ihp ihq => exact .conj ihp ihq
  | disj _ _ ihp ihq => exact .disj ihp ihq
  | neg _ ih => exact .neg ih

/-- A filter compares with its own objects. -/
theorem Json.filtering_of_keysDistinct {catalog : Catalog} {filter : Json} {t : EntityType}
    {entity : String} {p : Predicate} (hkeys : filter.KeysDistinct)
    (h : filter.filterPredicate catalog t entity = .ok p) :
    p.Filtering Expression.KeysDistinct entity := by
  -- What a condition looks like does not hang on the database, so any will do.
  have hsays := (means_operand Graph.movies.lawful_integerDatabase filter hkeys).filter h
  refine hsays.1.mono fun e he => ?_
  obtain ⟨l, hl, rfl⟩ := he
  exact hl

/-- All values of the variables have distinct keys. -/
def Dict.ValuesKeysDistinct (vars : Dict Json) : Prop :=
  ∀ ⦃name j⦄, vars.get? name = some j → j.KeysDistinct

/-- A value with distinct keys stands for data with distinct keys, if the variables have them. -/
theorem Value.StandsFor.keysDistinct {vars : Dict Json} (hvars : vars.ValuesKeysDistinct)
    {x : Value} (hx : x.KeysDistinct) {j : Json} (h : x.StandsFor vars j) : j.KeysDistinct :=
  @keysDistinct_of_resolve ⟨vars, []⟩ hvars x hx j h

namespace EntityType

variable {vars : Dict Json} (t : EntityType) (entity name : String) {x : Value}

/-- An argument with distinct keys gives a condition with distinct keys. -/
theorem yields_distinct_comparisonArgument (hx : x.KeysDistinct) :
    Yields vars (t.comparisonArgument entity name x)
      fun _ p => p.Filtering Expression.KeysDistinct entity := by
  unfold comparisonArgument
  generalize Operator.resolve t.properties.contains name = resolved
  obtain ⟨field, op⟩ := resolved
  dsimp only
  cases t.property? field with
  | none => exact .throw
  | some property =>
    have hlift (rhs : Option Expression) :
        Yields vars (liftM (op.predicate property (.property entity field) rhs))
          fun _ p => (rhs.getD (.literal .null)).KeysDistinct →
            p.Filtering Expression.KeysDistinct entity :=
      (Yields.lift _).mono fun _ _ hp hrhs => Operator.filtering_predicate hrhs hp
    refine (x.yields_isNull).bind fun isNull => ?_
    cases isNull with
    | true => exact (hlift none).mono fun _ _ hp _ => hp trivial
    | false =>
      rw [if_neg Bool.false_ne_true]
      have hrhs : Yields vars (some <$> x.expression)
          fun _ rhs => (rhs.getD (.literal .null)).KeysDistinct :=
        x.yields_distinct_expression.map fun _ e he => he hx
      exact hrhs.bind fun rhs => (hlift rhs).mono fun _ _ hp hrhs _ => hp hrhs

/-- An argument with distinct keys that is compared by the plain name of a field gives a
condition with distinct keys. -/
theorem yields_distinct_plainArgument (hx : x.KeysDistinct) :
    Yields vars (t.plainArgument entity name x)
      fun _ p => p.Filtering Expression.KeysDistinct entity := by
  unfold plainArgument
  have hcomparison : Yields vars (t.comparisonArgument entity name x)
      fun _ p => p.Filtering Expression.KeysDistinct entity :=
    t.yields_distinct_comparisonArgument entity name hx
  split
  · refine x.yields_isList.bind fun isList => ?_
    cases isList with
    | true =>
      exact x.yields_distinct_expression.bind fun e => .pure fun _ he _ => .compare (he hx)
    | false =>
      rw [if_neg Bool.false_ne_true]
      exact hcomparison.mono fun _ _ h _ => h
  · exact hcomparison

end EntityType

namespace ScopeArguments

variable {vars : Dict Json} (catalog : Catalog) (t : EntityType) (entity : String)

/-- One more argument adds conditions with distinct keys. -/
theorem yields_distinct_gather (hvars : vars.ValuesKeysDistinct) (g : Gathered)
    {argument : String × Value} (hx : argument.2.KeysDistinct) :
    Yields vars (gather catalog t entity g argument) fun _ g' =>
      (∀ p ∈ g.2, p.Filtering Expression.KeysDistinct entity) →
        ∀ p ∈ g'.2, p.Filtering Expression.KeysDistinct entity := by
  obtain ⟨a, conditions⟩ := g
  obtain ⟨name, x⟩ := argument
  have hnext {p : Predicate} (hp : p.Filtering Expression.KeysDistinct entity)
      (h : ∀ p ∈ conditions, p.Filtering Expression.KeysDistinct entity) :
      ∀ q ∈ conditions ++ [p], q.Filtering Expression.KeysDistinct entity := by
    intro q hq
    rcases List.mem_append.mp hq with hq | hq
    · exact h q hq
    · rw [List.mem_singleton.mp hq]
      exact hp
  unfold gather
  dsimp only
  split
  · exact (yields_resolve x).bind fun j => (Yields.lift _).bind fun n => .pure fun _ _ _ h => h
  · exact (yields_resolve x).bind fun j => (Yields.lift _).bind fun n => .pure fun _ _ _ h => h
  · exact (yields_resolve x).bind fun j => (Yields.lift _).bind fun o => .pure fun _ _ _ h => h
  · refine (yields_resolve x).bind fun j => (Yields.lift _).bind fun p => .pure fun _ hp hj => ?_
    exact hnext (Json.filtering_of_keysDistinct (hj.keysDistinct hvars hx) hp)
  · exact (t.yields_distinct_plainArgument entity name hx).bind fun p => .pure fun _ hp => hnext hp

/-- What arguments ask of entities compares with their own objects. -/
theorem yields_distinct_ofArguments (hvars : vars.ValuesKeysDistinct)
    (declared : Dict DeclaredArgument) {arguments : Dict Value}
    (h : Value.EntriesKeysDistinct arguments) :
    Yields vars (ofArguments catalog t entity declared arguments)
      fun _ a => a.condition.KeysDistinct := by
  unfold ofArguments
  have hfold (g : Gathered) (own : List (String × Value))
      (hown : ∀ argument ∈ own, argument.2.KeysDistinct) :
      Yields vars (own.foldlM (gather catalog t entity) g) fun _ g' =>
        (∀ p ∈ g.2, p.Filtering Expression.KeysDistinct entity) →
          ∀ p ∈ g'.2, p.Filtering Expression.KeysDistinct entity := by
    induction own generalizing g with
    | nil =>
      rw [List.foldlM_nil]
      exact .pure fun _ h => h
    | cons argument rest ih =>
      obtain ⟨hfirst, hrest⟩ := List.forall_mem_cons.mp hown
      rw [List.foldlM_cons]
      exact (yields_distinct_gather catalog t entity hvars g hfirst).bind fun g' =>
        (ih g' hrest).mono fun _ _ hmore hstep h => hmore (hstep h)
  refine (hfold _ _ fun argument hmem => ?_).bind fun g => .pure fun _ hg => ?_
  · exact (Value.entriesKeysDistinct_iff arguments).mp h argument (List.mem_of_mem_filter hmem)
  · have hconditions := hg (List.forall_mem_nil _)
    exact (Predicate.Filtering.all hconditions).keysDistinct

end ScopeArguments

-- ============================================================== statements

/-- No static parameter is given twice, nor a key inside of one. -/
def CustomStatement.KeysDistinct (custom : CustomStatement) : Prop :=
  custom.staticParameters.keys.Nodup ∧ custom.staticParameters.ValuesKeysDistinct

/-- No argument is declared twice, nor is there a key twice in a default. -/
structure DeclaredArgument.KeysDistinct (declared : Dict DeclaredArgument) : Prop where
  nodup : declared.keys.Nodup
  default : ∀ entry ∈ declared, ∀ j ∈ entry.2.default, j.KeysDistinct

/-- No key is given twice in what a type says of its fields. -/
structure EntityType.KeysDistinct (t : EntityType) : Prop where
  property : ∀ ⦃name p⦄, t.property? name = some p →
    (∀ custom ∈ p.custom, custom.KeysDistinct) ∧ DeclaredArgument.KeysDistinct p.arguments
  relationship : ∀ ⦃name r⦄, t.relationship? name = some r →
    (∀ custom ∈ r.custom, custom.KeysDistinct) ∧ DeclaredArgument.KeysDistinct r.arguments

/-- The names that a statement is run with are apart: those of its static parameters,
those of the arguments declared with it, and the one for the entity. -/
structure CustomStatement.NamesApart (custom : CustomStatement)
    (declared : Dict DeclaredArgument) : Prop where
  this_static : "this" ∉ custom.staticParameters.keys
  this_declared : "this" ∉ declared.keys
  apart : ∀ name ∈ custom.staticParameters.keys, name ∉ declared.keys

/-- The map of a call has distinct keys exactly if the static parameters, the arguments and the
entity are named apart. -/
theorem CustomStatement.nodup_names_iff {custom : CustomStatement}
    {declared : Dict DeclaredArgument} (hcustom : custom.KeysDistinct)
    (hdeclared : DeclaredArgument.KeysDistinct declared) :
    ("this" :: custom.staticParameters.keys ++ declared.keys).Nodup
      ↔ custom.NamesApart declared := by
  rw [List.cons_append, List.nodup_cons, List.mem_append, List.nodup_append, not_or]
  constructor
  · rintro ⟨⟨hstatic, harguments⟩, -, -, hapart⟩
    exact ⟨hstatic, harguments, fun name hname hname' => hapart name hname name hname' rfl⟩
  · intro h
    refine ⟨⟨h.this_static, h.this_declared⟩, hcustom.1, hdeclared.nodup, ?_⟩
    rintro name hname _ hname' rfl
    exact h.apart name hname hname'

namespace Compiler

variable {vars : Dict Json} (c : Compiler)

/-- A declared argument is written with distinct keys, whether it is given or has a default. -/
theorem yields_distinct_declaredExpression {head : FieldHead}
    (hhead : Value.EntriesKeysDistinct head.arguments) (name : String)
    {declared : DeclaredArgument} (hdefault : ∀ j ∈ declared.default, j.KeysDistinct) :
    Yields vars (declaredExpression head name declared) fun _ e => e.KeysDistinct := by
  unfold declaredExpression
  cases hx : head.arguments.get? name with
  | some x =>
    have hkeys := (Value.entriesKeysDistinct_iff _).mp hhead _ (Dict.mem_of_get? hx)
    exact x.yields_distinct_expression.mono fun _ _ he => he hkeys
  | none =>
    cases hj : declared.default with
    | some j => exact .pure fun _ => (hdefault j hj).literal
    | none => exact .pure fun _ => trivial

/-- Every declared argument is given under its name. -/
theorem yields_distinct_given {declared : Dict DeclaredArgument}
    (hdefault : ∀ entry ∈ declared, ∀ j ∈ entry.2.default, j.KeysDistinct) {head : FieldHead}
    (hhead : Value.EntriesKeysDistinct head.arguments) :
    Yields vars (declared.mapM fun d => do return (d.1, ← declaredExpression head d.1 d.2))
      fun _ given => given.map Prod.fst = declared.keys
        ∧ Expression.EntriesKeysDistinct given := by
  induction declared with
  | nil =>
    rw [List.mapM_nil]
    exact .pure fun _ => ⟨rfl, trivial⟩
  | cons d rest ih =>
    obtain ⟨hfirst, hrest⟩ := List.forall_mem_cons.mp hdefault
    have hone : Yields vars (do return (d.1, ← declaredExpression head d.1 d.2))
        fun _ g => g.1 = d.1 ∧ g.2.KeysDistinct :=
      (yields_distinct_declaredExpression hhead d.1 hfirst).bind fun e =>
        .pure fun _ he => ⟨rfl, he⟩
    rw [List.mapM_cons]
    refine hone.bind fun g => (ih hrest).bind fun given => .pure fun _ hgiven hg => ?_
    refine ⟨?_, hg.2, hgiven.2⟩
    rw [List.map_cons, hg.1, hgiven.1]
    rfl

/-- The call of a statement has distinct keys if the names it is run with are
apart. -/
theorem yields_distinct_customCall {custom : CustomStatement} (hcustom : custom.KeysDistinct)
    {declared : Dict DeclaredArgument} (hdeclared : DeclaredArgument.KeysDistinct declared)
    {head : FieldHead} (hhead : Value.EntriesKeysDistinct head.arguments) (this : String)
    (list : Bool) :
    Yields vars (c.customCall custom declared head this list)
      fun _ e => e.KeysDistinct ↔ custom.NamesApart declared := by
  unfold customCall
  dsimp only
  refine (yields_distinct_given hdeclared.default hhead).bind fun given => .pure ?_
  rintro - ⟨hkeys, hgiven⟩
  have hstatic : Expression.EntriesKeysDistinct
      (custom.staticParameters.map fun s => (s.1, .literal s.2.literal)) := by
    refine (Expression.entriesKeysDistinct_iff _).mpr fun entry hentry => ?_
    obtain ⟨⟨name, j⟩, hmem, rfl⟩ := List.mem_map.mp hentry
    have hj := hcustom.2 ((Dict.get?_eq_some_iff hcustom.1).mpr hmem)
    exact hj.literal
  -- the values are fine by themselves, so all depends on the names
  have hentries : Expression.EntriesKeysDistinct (("this", .var this)
      :: custom.staticParameters.map (fun s => (s.1, .literal s.2.literal)) ++ given) := by
    rw [Expression.entriesKeysDistinct_iff] at hstatic hgiven ⊢
    intro entry hentry
    rcases List.mem_append.mp hentry with hentry | hentry
    · rcases List.mem_cons.mp hentry with rfl | hentry
      · trivial
      · exact hstatic entry hentry
    · exact hgiven entry hentry
  have hnames : (("this", Expression.var this)
      :: custom.staticParameters.map (fun s => (s.1, .literal s.2.literal)) ++ given).map Prod.fst
      = "this" :: custom.staticParameters.keys ++ declared.keys := by
    rw [List.map_append, List.map_cons, List.map_map, hkeys]
    rfl
  rw [← CustomStatement.nodup_names_iff hcustom hdeclared, ← hnames]
  exact ⟨fun h => h.2.1.1, fun h => ⟨trivial, ⟨h, hentries⟩, trivial, trivial⟩⟩

end Compiler

-- ================================================================== fields

/-- No key is given twice in what a catalog says of its types. -/
def Catalog.KeysDistinct (c : Catalog) : Prop :=
  ∀ ⦃name t⦄, c.type? name = some t → t.KeysDistinct

/-- No key is given twice in an argument of a field. -/
def FieldHead.KeysDistinct (head : FieldHead) : Prop := Value.EntriesKeysDistinct head.arguments

namespace Collected

/-- No key is given twice in the arguments of a field, in what its type says, and in
what is selected below it. -/
structure KeysDistinct (f : Collected) : Prop where
  head : f.head.KeysDistinct
  scope : f.scope.KeysDistinct
  selections : Selection.EveryIn FieldHead.KeysDistinct f.selections

/-- The names that the statement of a field is run with are apart. -/
def NamesApart (f : Collected) : Prop :=
  ∀ ⦃custom declared⦄, f.statement? = some (custom, declared) → custom.NamesApart declared

/-- Without a statement there is no map of a call. -/
theorem namesApart_of_none {f : Collected} (h : f.statement? = none) : f.NamesApart := by
  intro custom declared hstatement
  rw [h] at hstatement
  cases hstatement

/-- With a statement, it is the names of that map that count. -/
theorem namesApart_iff {f : Collected} {custom : CustomStatement} {declared : Dict DeclaredArgument}
    (h : f.statement? = some (custom, declared)) :
    f.NamesApart ↔ custom.NamesApart declared := by
  constructor
  · intro hf
    exact hf h
  · intro hapart custom' declared' hstatement
    cases h.symm.trans hstatement
    exact hapart

variable {catalog : Catalog}

/-- The type that a field leads to is one of the catalog. -/
theorem traversed?_keysDistinct (hc : catalog.KeysDistinct) {f : Collected} {target : EntityType}
    (h : f.traversed? catalog = some target) : target.KeysDistinct := by
  obtain ⟨r, -, h⟩ := Option.bind_eq_some_iff.mp h
  split at h
  · cases h
  · exact hc h

/-- Collected fields have distinct keys where the selections have. -/
theorem keysDistinct_collect (hc : catalog.KeysDistinct) {t : EntityType} (ht : t.KeysDistinct)
    {ss : List Selection} (hss : Selection.EveryIn FieldHead.KeysDistinct ss) :
    ∀ f ∈ collect catalog t ss, f.KeysDistinct := by
  intro f hf
  have hall := every_occurrences hc ht hss
  obtain ⟨first, hfirst, heq⟩ := mem_collect hf
  obtain ⟨hhead, hscope, -⟩ := hall first (List.mem_of_find?_eq_some hfirst)
  rw [heq]
  exact ⟨hhead, hscope, everyIn_merged _ fun o ho => (hall o ho).2.2⟩

end Collected

-- =================================================================== plans

/-- No map in what is read for a field has a key twice. -/
def Plan.ReadKeysDistinct (read : Expression ⊕ Traversal × EntityType) : Prop :=
  read.elim Expression.KeysDistinct fun t => t.1.KeysDistinct

namespace Compiler

variable {vars : Dict Json} (c : Compiler)

/-- The value of a property has distinct keys exactly if the names of its statement are apart. -/
theorem yields_distinct_propertyValue {f : Collected} (hf : f.KeysDistinct)
    {property : PropertyField} (hproperty : f.property? = some property) (entity : String) :
    Yields vars (c.propertyValue f property entity) fun _ e => e.KeysDistinct ↔ f.NamesApart := by
  obtain ⟨-, hscope⟩ := Collected.property?_eq_some_iff.mp hproperty
  obtain ⟨hcustoms, hdeclared⟩ := hf.scope.property hscope
  have hstatement := Collected.statement?_of_property hproperty
  unfold propertyValue
  cases hcustom : property.custom with
  | none =>
    rw [hcustom, Option.map_none] at hstatement
    exact .pure fun _ => iff_of_true trivial (Collected.namesApart_of_none hstatement)
  | some custom =>
    rw [hcustom, Option.map_some] at hstatement
    rw [Collected.namesApart_iff hstatement]
    refine (yields_rejectUndeclared _ _ _).bind fun _ =>
      (c.yields_distinct_customCall (hcustoms custom hcustom) hdeclared hf.head _ _).bind
        fun call => .pure fun _ hcall _ => ?_
    rw [← hcall]
    split
    · rfl
    · simp [Expression.head]

/-- What is read for a relationship has distinct keys exactly if the names of its statement are
apart. -/
theorem yields_distinct_relationshipPlan (hvars : vars.ValuesKeysDistinct) {f : Collected}
    (hf : f.KeysDistinct) {r : RelationshipField} (hr : f.relationship? = some r)
    (parent : String) :
    Yields vars (c.relationshipPlan f r parent)
      fun _ read => Plan.ReadKeysDistinct read ↔ f.NamesApart := by
  obtain ⟨-, -, hscope⟩ := Collected.relationship?_eq_some_iff.mp hr
  obtain ⟨hcustoms, hdeclared⟩ := hf.scope.relationship hscope
  have hstatement := Collected.statement?_of_relationship hr
  have harguments (target : EntityType) (entity : String) (declared : Dict DeclaredArgument) :
      Yields vars (ScopeArguments.ofArguments c.catalog target entity declared f.head.arguments)
        fun _ a => a.condition.KeysDistinct :=
    ScopeArguments.yields_distinct_ofArguments _ _ _ hvars declared hf.head
  unfold relationshipPlan
  cases c.catalog.type? r.shape.targetType with
  | none => exact .throw
  | some target =>
    dsimp only
    cases hcustom : r.custom with
    | none =>
      rw [hcustom, Option.map_none] at hstatement
      refine (harguments target _ []).bind fun a => .pure fun _ ha => ?_
      -- without a statement no map of parameters is written
      have hread : Traversal.KeysDistinct ⟨r.shape, r.multi, target.name, parent,
          parent ++ "_" ++ f.key, a, none⟩ := by
        simp [Traversal.KeysDistinct, ha]
      exact iff_of_true hread (Collected.namesApart_of_none hstatement)
    | some custom =>
      rw [hcustom, Option.map_some] at hstatement
      rw [Collected.namesApart_iff hstatement]
      have hcall (list : Bool) : Yields vars (c.customCall custom r.arguments f.head parent list)
          fun _ e => e.KeysDistinct ↔ custom.NamesApart r.arguments :=
        c.yields_distinct_customCall (hcustoms custom hcustom) hdeclared hf.head parent list
      dsimp only
      -- the call is the value itself, or the source of a traversal
      split
      · exact (yields_rejectUndeclared _ _ _).bind fun _ =>
          (hcall r.multi).bind fun call => .pure fun _ hcall _ => hcall
      · refine (hcall true).bind fun source => (harguments target _ r.arguments).bind fun a =>
          .pure fun _ ha hsource => ?_
        simp [Plan.ReadKeysDistinct, Traversal.KeysDistinct, hsource, ha]

/-- What is read for a field has distinct keys if the names that its statement is
run with are apart. -/
theorem yields_distinct_fieldPlan (hvars : vars.ValuesKeysDistinct) {f : Collected}
    (hf : f.KeysDistinct) (entity : String) :
    Yields vars (c.fieldPlan f entity)
      fun _ read => Plan.ReadKeysDistinct read ↔ f.NamesApart := by
  have hnode (h : f.head.name ∈ ["_id", "_labels", "__typename"]) : f.NamesApart := by
    refine Collected.namesApart_of_none ?_
    simp [Collected.statement?, Collected.property?, Collected.relationship?, h]
  unfold fieldPlan
  split
  · next hname => exact .pure fun _ => iff_of_true ⟨trivial, trivial⟩ (hnode (by simp [hname]))
  · next hname => exact .pure fun _ => iff_of_true ⟨trivial, trivial⟩ (hnode (by simp [hname]))
  · next hname => exact .pure fun _ => iff_of_true trivial (hnode (by simp [hname]))
  · next hid hlabels htype =>
    have hname : f.head.name ∉ ["_id", "_labels", "__typename"] := by
      simp only [List.mem_cons, List.not_mem_nil, or_false, not_or]
      exact ⟨hid, hlabels, htype⟩
    split
    · next property hproperty =>
      have hp := Collected.property?_eq_some_iff.mpr ⟨hname, hproperty⟩
      exact (c.yields_distinct_propertyValue hf hp entity).bind fun e => .pure fun _ he => he
    · next hproperty =>
      split
      · next r hr =>
        have hr := Collected.relationship?_eq_some_iff.mpr ⟨hname, hproperty, hr⟩
        exact c.yields_distinct_relationshipPlan hvars hf hr entity
      · exact .throw

/-- The maps of a plan have distinct keys exactly if the names are apart for every
statement that is run for it. That the fields below have distinct keys themselves is
known only once the type they are read on is, so it is asked in what is yielded. -/
theorem yields_distinct_planFields (hc : c.catalog.KeysDistinct)
    (hvars : vars.ValuesKeysDistinct) (entity : String) (fields : List Collected) :
    Yields vars (c.planFields entity fields) fun _ entries =>
      (∀ f ∈ fields, f.KeysDistinct) → (Plan.EntriesKeysDistinct entries
        ↔ ∀ f, Collected.Reads c.catalog fields f → f.NamesApart) := by
  match fields with
  | [] =>
    rw [planFields]
    exact .pure fun _ _ => iff_of_true trivial Collected.forall_reads_nil
  | f :: rest =>
    rw [planFields]
    have hmore := yields_distinct_planFields hc hvars entity rest
    have hfield : Yields vars (c.fieldPlan f entity) fun _ read =>
        f.traversed? c.catalog = read.elim (fun _ => none) (fun t => some t.2)
          ∧ (f.KeysDistinct → (Plan.ReadKeysDistinct read ↔ f.NamesApart)) := by
      have hread : Yields vars (c.fieldPlan f entity) _ := c.yields_fieldPlan f entity
      by_cases hf : f.KeysDistinct
      · exact (hread.and (c.yields_distinct_fieldPlan hvars hf entity)).mono fun _ _ h =>
          ⟨h.1.traversed?, fun _ => h.2⟩
      · exact hread.mono fun _ _ h => ⟨h.traversed?, fun h => absurd h hf⟩
    refine hfield.bind fun read => ?_
    cases read with
    | inl e =>
      refine hmore.bind fun more => .pure ?_
      rintro _ hmore ⟨htraversed, hfield⟩ hfields
      obtain ⟨hf, hrest⟩ := List.forall_mem_cons.mp hfields
      rw [Collected.forall_reads_cons, htraversed, Plan.EntriesKeysDistinct, hmore hrest,
        ← hfield hf]
      simp [Plan.KeysDistinct, Plan.ReadKeysDistinct]
    | inr read =>
      obtain ⟨t, target⟩ := read
      have hbelow := (c.yields_planFields t.entity (Collected.collect c.catalog target
        f.selections)).and (yields_distinct_planFields hc hvars t.entity _)
      refine hbelow.bind fun below => hmore.bind fun more => .pure ?_
      rintro _ hmore ⟨hentries, hbelow⟩ ⟨htraversed, hfield⟩ hfields
      obtain ⟨hf, hrest⟩ := List.forall_mem_cons.mp hfields
      have htarget := Collected.traversed?_keysDistinct hc htraversed
      have hinside := hbelow (Collected.keysDistinct_collect hc htarget hf.selections)
      have hkeys : (below.map Prod.fst).Nodup := by
        rw [hentries.keys, Collected.keys_collect]
        exact nodup_eraseDups _
      rw [Collected.forall_reads_cons, htraversed, Plan.EntriesKeysDistinct, hmore hrest,
        ← hfield hf]
      simp [Plan.KeysDistinct, Plan.ReadKeysDistinct, hkeys, hinside, and_assoc]
termination_by Collected.weight fields
decreasing_by
  · simp only [Collected.weight]
    omega
  · refine Nat.lt_of_le_of_lt (Collected.weight_collect_le ..) ?_
    simp only [Collected.weight]
    omega

end Compiler

end PropertyGraphQL
