/-
What the expression made from a value denotes.

An expression made from a value consists of constants, parameters, lists
and maps, so it denotes data once the parameters are known (`denote`). It
denotes the data that the value stands for, whatever parameters were bound
before it and are bound behind it (`yields_expression`).
-/
import PropertyGraphQL.Proofs.Parameters.Yields

namespace PropertyGraphQL

open Cypher

-- =============================================================== constants

namespace Cypher.Literal

mutual

/-- A constant as data. -/
def json : Literal → Json
  | .null => .null
  | .boolean b => .bool b
  | .int n => .int n
  | .float x => .float x
  | .string s => .str s
  | .list elems => .arr (elemsJson elems)
  | .map entries => .obj (entriesJson entries)

def elemsJson : List Literal → List Json
  | [] => []
  | l :: rest => json l :: elemsJson rest

def entriesJson : List (String × Literal) → List (String × Json)
  | [] => []
  | (k, l) :: rest => (k, json l) :: entriesJson rest

end

end Cypher.Literal

namespace Cypher.Expression

mutual

/-- The data that an expression denotes under parameters, if it consists of
constants, parameters that have a value, lists and maps. -/
def denote (parameters : Dict Json) : Expression → Option Json
  | .literal l => some l.json
  | .parameter name => parameters.get? name
  | .list elems => (denoteElems parameters elems).map .arr
  | .map entries => (denoteEntries parameters entries).map .obj
  | _ => none

def denoteElems (parameters : Dict Json) : List Expression → Option (List Json)
  | [] => some []
  | e :: rest =>
      match denote parameters e, denoteElems parameters rest with
      | some d, some ds => some (d :: ds)
      | _, _ => none

def denoteEntries (parameters : Dict Json) :
    List (String × Expression) → Option (List (String × Json))
  | [] => some []
  | (k, e) :: rest =>
      match denote parameters e, denoteEntries parameters rest with
      | some d, some ds => some ((k, d) :: ds)
      | _, _ => none

end

end Cypher.Expression

-- ================================================================== values

namespace Value

mutual

/-- Every float written in the value is finite. -/
def FloatsFinite : Value → Prop
  | .float x => x.isFinite = true
  | .list elems => ElemsFinite elems
  | .object entries => EntriesFinite entries
  | _ => True

def ElemsFinite : List Value → Prop
  | [] => True
  | v :: rest => FloatsFinite v ∧ ElemsFinite rest

def EntriesFinite : List (String × Value) → Prop
  | [] => True
  | (_, v) :: rest => FloatsFinite v ∧ EntriesFinite rest

end

/-- A value stands for data, given the variables. -/
def StandsFor (vars : Dict Json) (x : Value) (j : Json) : Prop :=
  (Parameters.mk vars []).resolve x = .ok j

mutual

/-- What a value stands for hangs on the variables alone. -/
theorem resolve_congr {p q : Parameters} (h : p.vars = q.vars) (x : Value) :
    p.resolve x = q.resolve x := by
  cases x with
  | list elems =>
    rw [Parameters.resolve, Parameters.resolve, resolveElems_congr h elems]
  | object entries =>
    rw [Parameters.resolve, Parameters.resolve, resolveEntries_congr h entries]
  | var name =>
    rw [Parameters.resolve, Parameters.resolve]
    unfold Parameters.valueOf
    rw [h]
  | _ => simp only [Parameters.resolve]

/-- The elements of a list are looked up in the variables, whatever is bound. -/
theorem resolveElems_congr {p q : Parameters} (h : p.vars = q.vars) (elems : List Value) :
    p.resolveElems elems = q.resolveElems elems := by
  cases elems with
  | nil => simp only [Parameters.resolveElems]
  | cons x rest =>
    rw [Parameters.resolveElems, Parameters.resolveElems, resolve_congr h x,
      resolveElems_congr h rest]

/-- The entries of an object are looked up in the variables, whatever is bound. -/
theorem resolveEntries_congr {p q : Parameters} (h : p.vars = q.vars)
    (entries : List (String × Value)) : p.resolveEntries entries = q.resolveEntries entries := by
  match entries with
  | [] => simp only [Parameters.resolveEntries]
  | (key, x) :: rest =>
    rw [Parameters.resolveEntries, Parameters.resolveEntries, resolve_congr h x,
      resolveEntries_congr h rest]

end

mutual

/-- A value without variables stands for what it is as a constant. -/
theorem resolve_literal {p : Parameters} {x : Value} (h : x.hasVariable = false) :
    ∃ j, p.resolve x = .ok j ∧ (x.FloatsFinite → x.literal.json = j) := by
  cases x with
  | float x =>
    refine ⟨_, by rw [Parameters.resolve], fun hfinite => ?_⟩
    rw [FloatsFinite] at hfinite
    unfold Json.ofBinary64
    rw [if_pos hfinite]
    simp only [literal, Literal.json]
  | list elems =>
    rw [hasVariable] at h
    obtain ⟨js, hjs, heq⟩ := resolveElems_literals (p := p) h
    refine ⟨.arr js, ?_, fun hfinite => ?_⟩
    · rw [Parameters.resolve, hjs]
      rfl
    · rw [literal, Literal.json, heq hfinite]
  | object entries =>
    rw [hasVariable] at h
    obtain ⟨ms, hms, heq⟩ := resolveEntries_literals (p := p) h
    refine ⟨.obj ms, ?_, fun hfinite => ?_⟩
    · rw [Parameters.resolve, hms]
      rfl
    · rw [literal, Literal.json, heq hfinite]
  | var name => simp only [hasVariable, Bool.true_eq_false] at h
  | _ => exact ⟨_, by rw [Parameters.resolve], fun _ => by simp only [literal, Literal.json]⟩

/-- Elements without variables stand for what their literals say. -/
theorem resolveElems_literals {p : Parameters} {elems : List Value}
    (h : anyHasVariable elems = false) :
    ∃ js, p.resolveElems elems = .ok js
      ∧ (ElemsFinite elems → Literal.elemsJson (elemLiterals elems) = js) := by
  cases elems with
  | nil =>
    refine ⟨[], by rw [Parameters.resolveElems], fun _ => ?_⟩
    simp only [elemLiterals, Literal.elemsJson]
  | cons x rest =>
    rw [anyHasVariable, Bool.or_eq_false_iff] at h
    obtain ⟨j, hj, heq⟩ := resolve_literal (p := p) h.1
    obtain ⟨js, hjs, heqs⟩ := resolveElems_literals (p := p) h.2
    refine ⟨j :: js, ?_, fun hfinite => ?_⟩
    · rw [Parameters.resolveElems, hj, hjs]
      rfl
    · rw [elemLiterals, Literal.elemsJson, heq hfinite.1, heqs hfinite.2]

/-- Entries without variables stand for what their literals say. -/
theorem resolveEntries_literals {p : Parameters} {entries : List (String × Value)}
    (h : anyEntryHasVariable entries = false) :
    ∃ ms, p.resolveEntries entries = .ok ms
      ∧ (EntriesFinite entries → Literal.entriesJson (entryLiterals entries) = ms) := by
  match entries with
  | [] =>
    refine ⟨[], by rw [Parameters.resolveEntries], fun _ => ?_⟩
    simp only [entryLiterals, Literal.entriesJson]
  | (key, x) :: rest =>
    rw [anyEntryHasVariable, Bool.or_eq_false_iff] at h
    obtain ⟨j, hj, heq⟩ := resolve_literal (p := p) h.1
    obtain ⟨ms, hms, heqs⟩ := resolveEntries_literals (p := p) h.2
    refine ⟨(key, j) :: ms, ?_, fun hfinite => ?_⟩
    · rw [Parameters.resolveEntries, hj, hms]
      rfl
    · rw [entryLiterals, Literal.entriesJson, heq hfinite.1, heqs hfinite.2]

end

end Value

-- ============================================================== denotation

namespace Cypher.Expression

/-- An expression denotes what a value stands for. A float that is not
finite has no data of its own, so floats are asked to be finite. -/
def Denotes (vars parameters : Dict Json) (x : Value) (e : Expression) : Prop :=
  ∃ j d, x.StandsFor vars j ∧ e.denote parameters = some d
    ∧ (x.FloatsFinite → j.Sound → j.same d = true)

/-- An expression made of constants, of parameters that have a value, of lists
and of maps: it reads no variable and binds none. -/
inductive Ground (parameters : Dict Json) : Expression → Prop where
  | literal {l : Literal} : Ground parameters (.literal l)
  | parameter {name : String} (h : name ∈ parameters.keys) :
      Ground parameters (.parameter name)
  | list {elems : List Expression} (h : ∀ e ∈ elems, Ground parameters e) :
      Ground parameters (.list elems)
  | map {entries : List (String × Expression)}
      (h : ∀ entry ∈ entries, Ground parameters entry.2) : Ground parameters (.map entries)

variable {parameters : Dict Json}

/-- A bound parameter has no variables. -/
theorem ground_parameter {name : String} {d : Json} (h : parameters.get? name = some d) :
    (Expression.parameter name).Ground parameters := by
  refine .parameter (Classical.byContradiction fun hname => ?_)
  rw [Dict.get?_eq_none_iff.mpr hname] at h
  cases h

mutual

/-- What denotes data is ground. -/
theorem ground_of_denote {e : Expression} {d : Json} (h : e.denote parameters = some d) :
    e.Ground parameters := by
  cases e with
  | literal l => exact .literal
  | parameter name =>
    rw [denote] at h
    exact ground_parameter h
  | list elems =>
    rw [denote] at h
    obtain ⟨ds, hds, -⟩ := Option.map_eq_some_iff.mp h
    exact .list (ground_of_denoteElems hds)
  | map entries =>
    rw [denote] at h
    obtain ⟨ds, hds, -⟩ := Option.map_eq_some_iff.mp h
    exact .map (ground_of_denoteEntries hds)
  | _ =>
    rw [denote] at h
    · cases h
    all_goals intros; contradiction

/-- Elements that denote data have no variables. -/
theorem ground_of_denoteElems {es : List Expression} {ds : List Json}
    (h : denoteElems parameters es = some ds) : ∀ e ∈ es, e.Ground parameters := by
  cases es with
  | nil => exact List.forall_mem_nil _
  | cons e rest =>
    rw [denoteElems] at h
    split at h
    · next hd hds =>
      exact List.forall_mem_cons.mpr ⟨ground_of_denote hd, ground_of_denoteElems hds⟩
    · cases h

/-- Entries that denote data have no variables. -/
theorem ground_of_denoteEntries {entries : List (String × Expression)}
    {ds : List (String × Json)} (h : denoteEntries parameters entries = some ds) :
    ∀ entry ∈ entries, entry.2.Ground parameters := by
  match entries with
  | [] => exact List.forall_mem_nil _
  | (_, e) :: rest =>
    rw [denoteEntries] at h
    split at h
    · next hd hds =>
      exact List.forall_mem_cons.mpr ⟨ground_of_denote hd, ground_of_denoteEntries hds⟩
    · cases h

end

/-- An expression that denotes a value has no variables. -/
theorem Denotes.ground {vars : Dict Json} {x : Value} {e : Expression}
    (h : e.Denotes vars parameters x) : e.Ground parameters := by
  obtain ⟨j, d, -, hd, -⟩ := h
  exact ground_of_denote hd

/-- An expression for a bound value has no variables. -/
theorem BoundTo.ground {value : Json} {e : Expression} (h : e.BoundTo parameters value) :
    e.Ground parameters := by
  obtain ⟨name, w, rfl, hw, -⟩ := h
  exact ground_parameter hw

end Cypher.Expression

namespace Compiling

variable {vars : Dict Json}

/-- A step that reads the variables alone. -/
theorem yields_ofVars {α : Type} {f : Parameters → Except CompileError α}
    (hf : ∀ {p q : Parameters}, p.vars = q.vars → f p = f q) :
    Yields vars (do f (← get)) fun _ a => f ⟨vars, []⟩ = .ok a := by
  intro p q a hp hstep
  have h : f p = f ⟨vars, []⟩ := hf hp
  obtain ⟨hq, hkeeps, hok⟩ := Yields.lift (f p) hp hstep
  exact ⟨hq, hkeeps, fun final hfinal => h ▸ hok hfinal⟩

theorem yields_resolve (x : Value) :
    Yields vars (Compiling.resolve x) fun _ j => x.StandsFor vars j :=
  yields_ofVars fun h => Value.resolve_congr h x

/-- What is looked up under a name is the value of the variable. -/
theorem yields_valueOf (name : String) :
    Yields vars (Compiling.valueOf name) fun _ j => vars.get? name = some j := by
  refine (yields_ofVars fun h => ?_).mono fun _ j hj => ?_
  · unfold Parameters.valueOf
    rw [h]
  · unfold Parameters.valueOf at hj
    split at hj
    · next v hv =>
      cases hj
      exact hv
    · cases hj

end Compiling

namespace Value

variable {vars : Dict Json}

/-- A value without variables is denoted by its literal. -/
theorem denotes_literal {x : Value} (h : x.hasVariable = false) (parameters : Dict Json) :
    Expression.Denotes vars parameters x (.literal x.literal) := by
  obtain ⟨j, hj, heq⟩ := resolve_literal (p := ⟨vars, []⟩) h
  refine ⟨j, _, hj, by rw [Expression.denote], fun hfinite hsound => ?_⟩
  rw [heq hfinite]
  exact Json.same_refl hsound

mutual

/-- The expression made from a value denotes what the value stands for. -/
theorem yields_expression (x : Value) :
    Compiling.Yields vars x.expression fun parameters e =>
      Expression.Denotes vars parameters x e := by
  cases x with
  | var name =>
    rw [expression]
    -- the parameter may be another one of the same value, bound before
    refine (Compiling.yields_valueOf name).bind fun v =>
      (Compiling.yields_bind name v).mono ?_
    rintro parameters e ⟨bound, w, rfl, hw, hagrees⟩ hv
    refine ⟨v, w, ?_, by rw [Expression.denote, hw], fun _ hsound => hagrees.same hsound⟩
    unfold StandsFor
    rw [Parameters.resolve]
    unfold Parameters.valueOf
    rw [hv]
  | list elems =>
    rw [expression]
    split
    · refine (yields_elemExpressions elems).map ?_
      rintro parameters es ⟨js, ds, hjs, hds, hsame⟩
      refine ⟨.arr js, .arr ds, ?_, ?_, fun hfinite hsound => ?_⟩
      · unfold StandsFor
        rw [Parameters.resolve, hjs]
        rfl
      · rw [Expression.denote, hds]
        rfl
      -- where nothing is infinite the elements are the same one by one
      · rw [Json.same, Json.sameElems_iff]
        exact hsame hfinite hsound.finite hsound.keys
    · next h =>
      refine .pure fun parameters => ?_
      have hvar : (Value.list elems).hasVariable = false := by
        rw [hasVariable]
        exact Bool.eq_false_iff.mpr h
      have hdenotes : Expression.Denotes vars parameters _ _ := denotes_literal hvar parameters
      rw [literal] at hdenotes
      exact hdenotes
  | object entries =>
    rw [expression]
    split
    · refine (yields_entryExpressions entries).map ?_
      rintro parameters es ⟨ms, ds, hms, hds, hsame⟩
      refine ⟨.obj ms, .obj ds, ?_, ?_, fun hfinite hsound => ?_⟩
      · unfold StandsFor
        rw [Parameters.resolve, hms]
        rfl
      · rw [Expression.denote, hds]
        rfl
      · have hall := hsame hfinite hsound.finite hsound.keys.2
        rw [Json.same, hall.length_eq, BEq.rfl, Bool.true_and]
        exact Json.sameMembers_of_forall₂ hall hsound.keys.1 [] fun _ _ => List.not_mem_nil
    · next h =>
      refine .pure fun parameters => ?_
      have hvar : (Value.object entries).hasVariable = false := by
        rw [hasVariable]
        exact Bool.eq_false_iff.mpr h
      have hdenotes : Expression.Denotes vars parameters _ _ := denotes_literal hvar parameters
      rw [literal] at hdenotes
      exact hdenotes
  | _ =>
    rw [expression]
    · exact .pure fun parameters => denotes_literal (by simp only [hasVariable]) parameters
    all_goals intros; contradiction

/-- The expressions for elements denote data that agree with them, element by element. -/
theorem yields_elemExpressions (elems : List Value) :
    Compiling.Yields vars (elemExpressions elems) fun parameters es =>
      ∃ js ds, (Parameters.mk vars []).resolveElems elems = .ok js
        ∧ Expression.denoteElems parameters es = some ds
        ∧ (ElemsFinite elems → Json.ElemsFinite js → Json.ElemsKeysDistinct js →
          List.Forall₂ (fun j d => j.same d = true) js ds) := by
  cases elems with
  | nil =>
    rw [elemExpressions]
    exact .pure fun parameters => ⟨[], [], by rw [Parameters.resolveElems],
      by rw [Expression.denoteElems], fun _ _ _ => .nil⟩
  | cons x rest =>
    rw [elemExpressions]
    refine (yields_expression x).bind fun e => (yields_elemExpressions rest).bind fun es =>
      .pure ?_
    rintro parameters ⟨js, ds, hjs, hds, hrest⟩ ⟨j, d, hj, hd, hfirst⟩
    unfold StandsFor at hj
    refine ⟨j :: js, d :: ds, ?_, ?_, fun hfinite hjfinite hkeys => ?_⟩
    · rw [Parameters.resolveElems, hj, hjs]
      rfl
    · rw [Expression.denoteElems, hd, hds]
    · exact .cons (hfirst hfinite.1 ⟨hjfinite.1, hkeys.1⟩)
        (hrest hfinite.2 hjfinite.2 hkeys.2)

/-- The expressions for entries denote data that agree with them under the same keys. -/
theorem yields_entryExpressions (entries : List (String × Value)) :
    Compiling.Yields vars (entryExpressions entries) fun parameters es =>
      ∃ ms ds, (Parameters.mk vars []).resolveEntries entries = .ok ms
        ∧ Expression.denoteEntries parameters es = some ds
        ∧ (EntriesFinite entries → Json.MembersFinite ms → Json.MembersKeysDistinct ms →
          List.Forall₂ (fun m d => m.1 = d.1 ∧ m.2.same d.2 = true) ms ds) := by
  match entries with
  | [] =>
    rw [entryExpressions]
    exact .pure fun parameters => ⟨[], [], by rw [Parameters.resolveEntries],
      by rw [Expression.denoteEntries], fun _ _ _ => .nil⟩
  | (key, x) :: rest =>
    rw [entryExpressions]
    refine (yields_expression x).bind fun e => (yields_entryExpressions rest).bind fun es =>
      .pure ?_
    rintro parameters ⟨ms, ds, hms, hds, hrest⟩ ⟨j, d, hj, hd, hfirst⟩
    unfold StandsFor at hj
    refine ⟨(key, j) :: ms, (key, d) :: ds, ?_, ?_, fun hfinite hjfinite hkeys => ?_⟩
    · rw [Parameters.resolveEntries, hj, hms]
      rfl
    · rw [Expression.denoteEntries, hd, hds]
    · exact .cons ⟨rfl, hfirst hfinite.1 ⟨hjfinite.1, hkeys.1⟩⟩
        (hrest hfinite.2 hjfinite.2 hkeys.2)

end

end Value

end PropertyGraphQL
