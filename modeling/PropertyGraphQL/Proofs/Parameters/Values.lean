/-
Expressions for values, with the parameters put in.

The expression made from a value and the data that the value stands for are
computed on two paths: the one binds variables to parameters, the other looks
them up. They fail together, with the same error, and agree otherwise: once the
parameters have their values, the expression is that of the data, up to whether
a list or map of constants is itself a constant (`tracks_expression`).

How close they agree hangs on what is bound before. From parameters that have
the value of the variable of their name, as those of a query always do, the
value put in is the very data. If others are bound besides, a parameter may
later get an equal value. Both are said at once, of any way to keep what is
bound (`Keeping`), of which these two are instances.
-/
import PropertyGraphQL.Proofs.Parameters.Denotation
import PropertyGraphQL.Proofs.Readability.Canonical

namespace PropertyGraphQL

open Cypher

-- ========================================================= values put in

namespace Cypher

mutual

/-- The expression with every parameter that has a value replaced by the value. -/
def Expression.valued (parameters : Dict Json) : Expression → Expression
  | .literal value => .literal value
  | .parameter name =>
      match parameters.get? name with
      | some value => .literal value.literal
      | none => .parameter name
  | .var name => .var name
  | .property owner key => .property owner key
  | .call function args => .call function (Expression.listValued parameters args)
  | .map entries => .map (Expression.entriesValued parameters entries)
  | .projection owner items => .projection owner (MapItem.listValued parameters items)
  | .list elems => .list (Expression.listValued parameters elems)
  | .patternComprehension pattern condition result =>
      .patternComprehension (Pattern.valued parameters pattern)
        (Predicate.valued parameters condition) (Expression.valued parameters result)
  | .listComprehension binder source condition result =>
      .listComprehension binder (Expression.valued parameters source)
        (Predicate.valued parameters condition) (Expression.resultValued parameters result)
  | .slice source lower upper => .slice (Expression.valued parameters source) lower upper
  | .conditional condition yes no =>
      .conditional (Predicate.valued parameters condition) (Expression.valued parameters yes)
        (Expression.valued parameters no)
  | .countAll => .countAll

def Expression.resultValued (parameters : Dict Json) : Option Expression → Option Expression
  | none => none
  | some e => some (Expression.valued parameters e)

def Expression.listValued (parameters : Dict Json) : List Expression → List Expression
  | [] => []
  | e :: rest => Expression.valued parameters e :: Expression.listValued parameters rest

def Expression.entriesValued (parameters : Dict Json) :
    List (String × Expression) → List (String × Expression)
  | [] => []
  | (key, e) :: rest =>
      (key, Expression.valued parameters e) :: Expression.entriesValued parameters rest

def MapItem.valued (parameters : Dict Json) : MapItem → MapItem
  | .property key => .property key
  | .entry key value => .entry key (Expression.valued parameters value)

def MapItem.listValued (parameters : Dict Json) : List MapItem → List MapItem
  | [] => []
  | item :: rest => MapItem.valued parameters item :: MapItem.listValued parameters rest

def NodePattern.valued (parameters : Dict Json) : NodePattern → NodePattern
  | ⟨binder, labels, properties⟩ =>
      ⟨binder, labels, Expression.entriesValued parameters properties⟩

def NodePattern.hopsValued (parameters : Dict Json) :
    List (RelationshipPattern × NodePattern) → List (RelationshipPattern × NodePattern)
  | [] => []
  | (relationship, node) :: rest =>
      (relationship, NodePattern.valued parameters node)
        :: NodePattern.hopsValued parameters rest

def Pattern.valued (parameters : Dict Json) : Pattern → Pattern
  | ⟨start, hops⟩ => ⟨NodePattern.valued parameters start, NodePattern.hopsValued parameters hops⟩

/-- The predicate with every parameter that has a value replaced by the value. -/
def Predicate.valued (parameters : Dict Json) : Predicate → Predicate
  | .always => .always
  | .never => .never
  | .compare comparison lhs rhs =>
      .compare comparison (Expression.valued parameters lhs) (Expression.valued parameters rhs)
  | .isNull subject => .isNull (Expression.valued parameters subject)
  | .isNotNull subject => .isNotNull (Expression.valued parameters subject)
  | .quantified quantifier binder source condition =>
      .quantified quantifier binder (Expression.valued parameters source)
        (Predicate.valued parameters condition)
  | .conj lhs rhs => .conj (Predicate.valued parameters lhs) (Predicate.valued parameters rhs)
  | .disj lhs rhs => .disj (Predicate.valued parameters lhs) (Predicate.valued parameters rhs)
  | .neg inner => .neg (Predicate.valued parameters inner)

end

end Cypher

-- =============================================================== constants

namespace Value

/-- The value as a constant is that of its data, if it has no variable, its floats
are finite and its integers have 64 bits. -/
def IsExact (x : Value) : Prop := x.FloatsFinite ∧ x.within64 = x

mutual

/-- A value without variables has the literal of what it stands for. -/
theorem literal_of_resolve {p : Parameters} {x : Value} (h : x.hasVariable = false)
    (hexact : x.IsExact) {j : Json} (hj : p.resolve x = .ok j) : x.literal = j.literal := by
  obtain ⟨hfinite, hwithin⟩ := hexact
  cases x with
  | null | boolean b | string s | enum s =>
    rw [Parameters.resolve] at hj
    cases hj
    simp only [literal, Json.literal]
  | int n =>
    rw [Parameters.resolve] at hj
    cases hj
    rw [within64] at hwithin
    rw [literal, Json.literal]
    split at hwithin
    · next hrange => rw [if_pos hrange]
    · cases hwithin
  | float x =>
    rw [Parameters.resolve] at hj
    rw [FloatsFinite] at hfinite
    -- what is not finite would resolve to null
    unfold Json.ofBinary64 at hj
    rw [if_pos hfinite] at hj
    cases hj
    simp only [literal, Json.literal]
  | list elems =>
    rw [hasVariable] at h
    rw [within64] at hwithin
    rw [Parameters.resolve] at hj
    obtain ⟨js, hjs, rfl⟩ := map_eq_ok_iff.mp hj
    rw [literal, Json.literal,
      literals_of_resolveElems h hfinite (Value.list.inj hwithin) hjs]
  | object entries =>
    rw [hasVariable] at h
    rw [within64] at hwithin
    rw [Parameters.resolve] at hj
    obtain ⟨ms, hms, rfl⟩ := map_eq_ok_iff.mp hj
    rw [literal, Json.literal,
      literals_of_resolveEntries h hfinite (Value.object.inj hwithin) hms]
  | var name => simp only [hasVariable, Bool.true_eq_false] at h

/-- Elements without variables have the literals of what they stand for. -/
theorem literals_of_resolveElems {p : Parameters} {elems : List Value}
    (h : anyHasVariable elems = false) (hfinite : ElemsFinite elems)
    (hwithin : elemsWithin64 elems = elems) {js : List Json}
    (hjs : p.resolveElems elems = .ok js) : elemLiterals elems = Json.elemLiterals js := by
  cases elems with
  | nil =>
    rw [Parameters.resolveElems] at hjs
    cases hjs
    rw [elemLiterals, Json.elemLiterals]
  | cons x rest =>
    rw [anyHasVariable, Bool.or_eq_false_iff] at h
    rw [elemsWithin64] at hwithin
    obtain ⟨hx, hrest⟩ := List.cons.inj hwithin
    rw [Parameters.resolveElems] at hjs
    obtain ⟨j, hj, hjs⟩ := bind_eq_ok_iff.mp hjs
    obtain ⟨more, hmore, hjs⟩ := bind_eq_ok_iff.mp hjs
    cases hjs
    rw [elemLiterals, Json.elemLiterals, literal_of_resolve h.1 ⟨hfinite.1, hx⟩ hj,
      literals_of_resolveElems h.2 hfinite.2 hrest hmore]

/-- Entries without variables have the literals of what they stand for. -/
theorem literals_of_resolveEntries {p : Parameters} {entries : List (String × Value)}
    (h : anyEntryHasVariable entries = false) (hfinite : EntriesFinite entries)
    (hwithin : entriesWithin64 entries = entries) {ms : List (String × Json)}
    (hms : p.resolveEntries entries = .ok ms) :
    entryLiterals entries = Json.memberLiterals ms := by
  match entries with
  | [] =>
    rw [Parameters.resolveEntries] at hms
    cases hms
    rw [entryLiterals, Json.memberLiterals]
  | (key, x) :: rest =>
    rw [anyEntryHasVariable, Bool.or_eq_false_iff] at h
    rw [entriesWithin64] at hwithin
    obtain ⟨hx, hrest⟩ := List.cons.inj hwithin
    rw [Parameters.resolveEntries] at hms
    obtain ⟨j, hj, hms⟩ := bind_eq_ok_iff.mp hms
    obtain ⟨more, hmore, hms⟩ := bind_eq_ok_iff.mp hms
    cases hms
    rw [entryLiterals, Json.memberLiterals,
      literal_of_resolve h.1 ⟨hfinite.1, (Prod.mk.inj hx).2⟩ hj,
      literals_of_resolveEntries h.2 hfinite.2 hrest hmore]

end

end Value

-- ============================================================ sound values

namespace Value

mutual

/-- No object in the value has a key twice. -/
def KeysDistinct : Value → Prop
  | .list elems => ElemsKeysDistinct elems
  | .object entries => (Dict.keys entries).Nodup ∧ EntriesKeysDistinct entries
  | _ => True

def ElemsKeysDistinct : List Value → Prop
  | [] => True
  | x :: rest => KeysDistinct x ∧ ElemsKeysDistinct rest

def EntriesKeysDistinct : List (String × Value) → Prop
  | [] => True
  | (_, x) :: rest => KeysDistinct x ∧ EntriesKeysDistinct rest

end

/-- The data of the entries of an object has their keys. -/
theorem keys_resolveEntries {p : Parameters} {entries : List (String × Value)}
    {ms : List (String × Json)} (hms : p.resolveEntries entries = .ok ms) :
    Dict.keys ms = Dict.keys entries := by
  induction entries generalizing ms with
  | nil =>
    rw [Parameters.resolveEntries] at hms
    cases hms
    rfl
  | cons entry rest ih =>
    obtain ⟨key, x⟩ := entry
    rw [Parameters.resolveEntries] at hms
    obtain ⟨j, -, hms⟩ := bind_eq_ok_iff.mp hms
    obtain ⟨more, hmore, hms⟩ := bind_eq_ok_iff.mp hms
    cases hms
    show key :: Dict.keys more = key :: Dict.keys rest
    rw [ih hmore]

mutual

/-- A value without repeated keys stands for such data, if the variables have such
data. -/
theorem keysDistinct_of_resolve {p : Parameters}
    (hvars : ∀ name j, p.vars.get? name = some j → j.KeysDistinct) {x : Value}
    (hkeys : x.KeysDistinct) {j : Json} (hj : p.resolve x = .ok j) : j.KeysDistinct := by
  cases x with
  | var name =>
    rw [Parameters.resolve] at hj
    unfold Parameters.valueOf at hj
    split at hj
    · next hv =>
      cases hj
      exact hvars name j hv
    · cases hj
  | float x =>
    rw [Parameters.resolve, Json.ofBinary64] at hj
    -- infinite or not, a number has no keys
    split at hj
    · cases hj
      trivial
    · cases hj
      trivial
  | list elems =>
    rw [Parameters.resolve] at hj
    obtain ⟨js, hjs, rfl⟩ := map_eq_ok_iff.mp hj
    exact keysDistinct_of_resolveElems hvars hkeys hjs
  | object entries =>
    rw [Parameters.resolve] at hj
    obtain ⟨ms, hms, rfl⟩ := map_eq_ok_iff.mp hj
    refine ⟨?_, keysDistinct_of_resolveEntries hvars hkeys.2 hms⟩
    rw [keys_resolveEntries hms]
    exact hkeys.1
  | _ =>
    rw [Parameters.resolve] at hj
    cases hj
    trivial

/-- Elements with distinct keys stand for data with distinct keys. -/
theorem keysDistinct_of_resolveElems {p : Parameters}
    (hvars : ∀ name j, p.vars.get? name = some j → j.KeysDistinct) {elems : List Value}
    (hkeys : ElemsKeysDistinct elems) {js : List Json} (hjs : p.resolveElems elems = .ok js) :
    Json.ElemsKeysDistinct js := by
  cases elems with
  | nil =>
    rw [Parameters.resolveElems] at hjs
    cases hjs
    trivial
  | cons x rest =>
    rw [Parameters.resolveElems] at hjs
    obtain ⟨j, hj, hjs⟩ := bind_eq_ok_iff.mp hjs
    obtain ⟨more, hmore, hjs⟩ := bind_eq_ok_iff.mp hjs
    cases hjs
    exact ⟨keysDistinct_of_resolve hvars hkeys.1 hj,
      keysDistinct_of_resolveElems hvars hkeys.2 hmore⟩

/-- Entries with distinct keys stand for data with distinct keys. -/
theorem keysDistinct_of_resolveEntries {p : Parameters}
    (hvars : ∀ name j, p.vars.get? name = some j → j.KeysDistinct)
    {entries : List (String × Value)} (hkeys : EntriesKeysDistinct entries)
    {ms : List (String × Json)} (hms : p.resolveEntries entries = .ok ms) :
    Json.MembersKeysDistinct ms := by
  match entries with
  | [] =>
    rw [Parameters.resolveEntries] at hms
    cases hms
    trivial
  | (key, x) :: rest =>
    rw [Parameters.resolveEntries] at hms
    obtain ⟨j, hj, hms⟩ := bind_eq_ok_iff.mp hms
    obtain ⟨more, hmore, hms⟩ := bind_eq_ok_iff.mp hms
    cases hms
    exact ⟨keysDistinct_of_resolve hvars hkeys.1 hj,
      keysDistinct_of_resolveEntries hvars hkeys.2 hmore⟩

end

mutual

/-- A value with finite floats stands for such data, if the variables have such
data. -/
theorem finite_of_resolve {p : Parameters}
    (hvars : ∀ name j, p.vars.get? name = some j → j.FloatsFinite) {x : Value}
    (hfinite : x.FloatsFinite) {j : Json} (hj : p.resolve x = .ok j) : j.FloatsFinite := by
  cases x with
  | var name =>
    rw [Parameters.resolve] at hj
    unfold Parameters.valueOf at hj
    split at hj
    · next hv =>
      cases hj
      exact hvars name j hv
    · cases hj
  | float x =>
    rw [FloatsFinite] at hfinite
    rw [Parameters.resolve, Json.ofBinary64, if_pos hfinite] at hj
    cases hj
    exact hfinite
  | list elems =>
    rw [Parameters.resolve] at hj
    obtain ⟨js, hjs, rfl⟩ := map_eq_ok_iff.mp hj
    exact finite_of_resolveElems hvars hfinite hjs
  | object entries =>
    rw [Parameters.resolve] at hj
    obtain ⟨ms, hms, rfl⟩ := map_eq_ok_iff.mp hj
    exact finite_of_resolveEntries hvars hfinite hms
  | _ =>
    rw [Parameters.resolve] at hj
    cases hj
    trivial

/-- Finite elements stand for finite data. -/
theorem finite_of_resolveElems {p : Parameters}
    (hvars : ∀ name j, p.vars.get? name = some j → j.FloatsFinite) {elems : List Value}
    (hfinite : ElemsFinite elems) {js : List Json} (hjs : p.resolveElems elems = .ok js) :
    Json.ElemsFinite js := by
  cases elems with
  | nil =>
    rw [Parameters.resolveElems] at hjs
    cases hjs
    trivial
  | cons x rest =>
    rw [Parameters.resolveElems] at hjs
    obtain ⟨j, hj, hjs⟩ := bind_eq_ok_iff.mp hjs
    obtain ⟨more, hmore, hjs⟩ := bind_eq_ok_iff.mp hjs
    cases hjs
    exact ⟨finite_of_resolve hvars hfinite.1 hj, finite_of_resolveElems hvars hfinite.2 hmore⟩

/-- Finite entries stand for finite data. -/
theorem finite_of_resolveEntries {p : Parameters}
    (hvars : ∀ name j, p.vars.get? name = some j → j.FloatsFinite)
    {entries : List (String × Value)} (hfinite : EntriesFinite entries)
    {ms : List (String × Json)} (hms : p.resolveEntries entries = .ok ms) :
    Json.MembersFinite ms := by
  match entries with
  | [] =>
    rw [Parameters.resolveEntries] at hms
    cases hms
    trivial
  | (key, x) :: rest =>
    rw [Parameters.resolveEntries] at hms
    obtain ⟨j, hj, hms⟩ := bind_eq_ok_iff.mp hms
    obtain ⟨more, hmore, hms⟩ := bind_eq_ok_iff.mp hms
    cases hms
    exact ⟨finite_of_resolve hvars hfinite.1 hj, finite_of_resolveEntries hvars hfinite.2 hmore⟩

end

/-- A value stands for sound data, if the variables have sound data. -/
theorem sound_of_resolve {p : Parameters} (hvars : ∀ name j, p.vars.get? name = some j → j.Sound)
    {x : Value} (hfinite : x.FloatsFinite) (hkeys : x.KeysDistinct) {j : Json}
    (hj : p.resolve x = .ok j) : j.Sound where
  finite := finite_of_resolve (fun name j h => (hvars name j h).finite) hfinite hj
  keys := keysDistinct_of_resolve (fun name j h => (hvars name j h).keys) hkeys hj

end Value

-- ================================================================= keeping

/-- Every parameter has the value of the variable of its name. -/
def Parameters.Faithful (p : Parameters) : Prop :=
  ∀ ⦃name v⦄, p.bound.get? name = some v → p.vars.get? name = some v

theorem Parameters.faithful_nil (vars : Dict Json) : (Parameters.mk vars []).Faithful := by
  intro name v h
  cases h

/-- What becomes of parameters while further ones are bound: what is known of
them, which values are kept, and how alike the data is that a parameter has in
the end to that which it was bound to. -/
structure Keeping (vars : Dict Json) where
  Known : Parameters → Prop
  Kept : Dict Json → Dict Json → Prop
  Alike : Json → Json → Prop
  refl (d : Dict Json) : Kept d d
  trans {d e f : Dict Json} : Kept d e → Kept e f → Kept d f
  bind {p : Parameters} {name : String} {v : Json} : p.vars = vars → Known p →
    vars.get? name = some v → Known (p.set (p.freeName name v) v)
      ∧ Kept p.bound (p.set (p.freeName name v) v).bound
      ∧ ∀ final, Kept (p.set (p.freeName name v) v).bound final →
        ∃ w, final.get? (p.freeName name v) = some w ∧ (v.Sound → Alike v w)
  same {j d : Json} : j.Sound → Alike j d → j.same d = true
  self {j : Json} : j.Sound → Alike j j
  arr {js ds : List Json} : List.Forall₂ Alike js ds → Alike (.arr js) (.arr ds)
  obj {ms ds : List (String × Json)} : (Dict.keys ms).Nodup →
    List.Forall₂ (fun m d => m.1 = d.1 ∧ Alike m.2 d.2) ms ds → Alike (.obj ms) (.obj ds)

namespace Keeping

/-- Any parameters: a value may be replaced by an equal one. -/
def equal (vars : Dict Json) : Keeping vars where
  Known _ := True
  Kept := Dict.Keeps
  Alike j d := j.same d = true
  refl := .refl
  trans := .trans
  bind {p name v} _ _ _ := by
    refine ⟨trivial, Parameters.keeps_set (p.available_freeName name v), fun final hfinal => ?_⟩
    obtain ⟨w, hw, hagrees⟩ := hfinal (Dict.get?_insert_self p.bound (p.freeName name v) v)
    exact ⟨w, hw, hagrees.same⟩
  same _ h := h
  self := Json.same_refl
  arr h := by
    rw [Json.same, Json.sameElems_iff]
    exact h
  obj {ms ds} hkeys h := by
    rw [Json.same, h.length_eq, BEq.rfl, Bool.true_and]
    exact Json.sameMembers_of_forall₂ h hkeys [] fun _ _ => List.not_mem_nil

/-- From faithful parameters a variable is bound under its own name. -/
theorem freeName_of_faithful {p : Parameters} (hp : p.Faithful) {name : String} {v : Json}
    (hv : p.vars.get? name = some v) (hsound : v.Sound) : p.freeName name v = name := by
  have havailable : p.available v name = true := by
    unfold Parameters.available
    split
    · rfl
    · next w hw =>
      rw [hp hw] at hv
      cases hv
      exact Json.same_refl hsound
  unfold Parameters.freeName Parameters.candidates
  rw [List.find?_cons_of_pos havailable]
  rfl

/-- Faithful parameters: values are never replaced. -/
def exact {vars : Dict Json} (hvars : ∀ ⦃name j⦄, vars.get? name = some j → j.Sound) :
    Keeping vars where
  Known p := p.Faithful
  Kept d e := ∀ ⦃name v⦄, d.get? name = some v → e.get? name = some v
  Alike j d := j = d
  refl _ _ _ h := h
  trans h h' _ _ hv := h' (h hv)
  bind {p name v} hp hfaithful hv := by
    subst hp
    rw [freeName_of_faithful hfaithful hv (hvars hv)]
    have hget (other : String) : (p.set name v).bound.get? other
        = if name = other then some v else p.bound.get? other := Dict.get?_insert ..
    refine ⟨fun other w hw => ?_, fun other w hw => ?_, fun final hfinal => ?_⟩
    · rw [hget] at hw
      split at hw
      · next heq =>
        cases hw
        rw [← heq]
        exact hv
      · exact hfaithful hw
    · rw [hget]
      split
      · next heq =>
        rw [← heq] at hw
        rw [← hv, hfaithful hw]
      · exact hw
    · refine ⟨v, hfinal ?_, fun _ => rfl⟩
      rw [hget, if_pos rfl]
  same hsound h := h ▸ Json.same_refl hsound
  self _ := rfl
  arr h := by
    rw [List.forall₂_eq_eq_eq] at h
    rw [h]
  obj _ h := by
    have hequal := h.imp fun _ _ hmd => Prod.ext hmd.1 hmd.2
    rw [List.forall₂_eq_eq_eq] at hequal
    rw [hequal]

-- ================================================================ tracking

variable {vars : Dict Json} {α β γ δ : Type}

/-- A step comes to what a plain computation comes to: it fails with its error, or
succeeds with it, and then `post` holds of both results under all parameters that
keep what is bound. -/
def Tracks (k : Keeping vars) (step : Compiling α) (plain : Except CompileError β)
    (post : Dict Json → α → β → Prop) : Prop :=
  ∀ ⦃p⦄, p.vars = vars → k.Known p →
    match plain with
    | .error e => step.run p = .error e
    | .ok b => ∃ a q, step.run p = .ok (a, q) ∧ q.vars = vars ∧ k.Known q
        ∧ k.Kept p.bound q.bound ∧ ∀ final, k.Kept q.bound final → post final a b

namespace Tracks

variable {k : Keeping vars} {post : Dict Json → α → β → Prop} {post' : Dict Json → γ → δ → Prop}

theorem pure {a : α} {b : β} (h : ∀ final, post final a b) :
    k.Tracks (Pure.pure a) (.ok b) post :=
  fun p hp hknown => ⟨a, p, rfl, hp, hknown, k.refl _, fun final _ => h final⟩

/-- Two steps one behind the other track two computations one behind the other. -/
theorem bind {step : Compiling α} {plain : Except CompileError β} (h : k.Tracks step plain post)
    {next : α → Compiling γ} {after : β → Except CompileError δ}
    (hnext : ∀ a b, plain = .ok b → k.Tracks (next a) (after b) fun final c d =>
      post final a b → post' final c d) :
    k.Tracks (step >>= next) (plain >>= after) post' := by
  intro p hp hknown
  have hstep := h hp hknown
  -- the first step fails as its plain counterpart does, or leaves what the second is to keep
  cases plain with
  | error e =>
    show (step >>= next).run p = .error e
    rw [StateT.run_bind, hstep]
    rfl
  | ok b =>
    obtain ⟨a, q, hrun, hq, hknown, hpq, hpost⟩ := hstep
    have hafter := hnext a b rfl hq hknown
    have hbind : (step >>= next).run p = (next a).run q := by
      rw [StateT.run_bind, hrun]
      rfl
    show match after b with | .error e => _ | .ok d => _
    rw [hbind]
    cases hplain : after b with
    | error e =>
      rw [hplain] at hafter
      exact hafter
    | ok d =>
      rw [hplain] at hafter
      obtain ⟨c, r, hrun, hr, hknown, hqr, hpost'⟩ := hafter
      exact ⟨c, r, hrun, hr, hknown, k.trans hpq hqr, fun final hfinal =>
        hpost' final hfinal (hpost final (k.trans hqr hfinal))⟩

/-- What becomes of a result is tracked by what becomes of the other. -/
theorem map {step : Compiling α} {plain : Except CompileError β} (h : k.Tracks step plain post)
    {f : α → γ} {g : β → δ} (hf : ∀ final a b, post final a b → post' final (f a) (g b)) :
    k.Tracks (f <$> step) (g <$> plain) post' := by
  rw [← bind_pure_comp, ← bind_pure_comp]
  exact h.bind fun a b _ => .pure fun final => hf final a b

/-- What is tracked closely is tracked loosely. -/
theorem mono {step : Compiling α} {plain : Except CompileError β}
    {other : Dict Json → α → β → Prop} (h : k.Tracks step plain post)
    (himp : ∀ final a b, post final a b → other final a b) : k.Tracks step plain other := by
  intro p hp hknown
  have hstep := h hp hknown
  cases plain with
  | error e => exact hstep
  | ok b =>
    obtain ⟨a, q, hrun, hq, hknown, hpq, hpost⟩ := hstep
    exact ⟨a, q, hrun, hq, hknown, hpq, fun final hfinal => himp final a b (hpost final hfinal)⟩

/-- A step that fails or succeeds as a computation does, and binds nothing. -/
theorem lift {x : Except CompileError α} {plain : Except CompileError β}
    (h : match plain with
      | .error e => x = .error e
      | .ok b => ∃ a, x = .ok a ∧ ∀ final, post final a b) :
    k.Tracks (liftM x) plain post := by
  intro p hp hknown
  cases plain with
  | error e =>
    dsimp only at h
    rw [h]
    rfl
  | ok b =>
    obtain ⟨a, rfl, hpost⟩ := h
    exact ⟨a, p, rfl, hp, hknown, k.refl _, fun final _ => hpost final⟩

end Tracks

/-- A variable is looked up without binding anything. -/
theorem run_valueOf {p : Parameters} (hp : p.vars = vars) (name : String) :
    (Compiling.valueOf name).run p
      = ((Parameters.mk vars []).valueOf name).map fun v => (v, p) := by
  subst hp
  show (liftM (p.valueOf name) : Compiling Json).run p = _
  unfold Parameters.valueOf
  cases p.vars.get? name with
  | none => rfl
  | some v => rfl

/-- A variable becomes a parameter that has its value. -/
theorem tracks_variable (k : Keeping vars) (name : String) :
    k.Tracks (Compiling.valueOf name >>= Compiling.bind name)
      ((Parameters.mk vars []).valueOf name) fun final e v =>
        ∃ bound w, e = .parameter bound ∧ final.get? bound = some w
          ∧ (v.Sound → k.Alike v w) := by
  intro p hp hknown
  rw [StateT.run_bind, run_valueOf hp]
  unfold Parameters.valueOf
  dsimp only
  cases hv : vars.get? name with
  | none => rfl
  | some v =>
    obtain ⟨hbound, hkept, hfinal⟩ := k.bind hp hknown hv
    refine ⟨_, _, rfl, hp, hbound, hkept, fun final h => ?_⟩
    obtain ⟨w, hw, halike⟩ := hfinal final h
    exact ⟨_, w, rfl, hw, halike⟩

end Keeping

-- ================================================================== values

namespace Value

variable {vars : Dict Json} (k : Keeping vars)

/-- With the parameters put in, an expression is that of data alike to what the
value stands for. -/
def Comes (x : Value) (parameters : Dict Json) (e : Expression) (j : Json) : Prop :=
  x.IsExact → j.Sound → ∃ d, k.Alike j d ∧ (e.valued parameters).canonical = d.literal.canonical

/-- A value without variables is a constant on both paths. -/
theorem tracks_literal {x : Value} (h : x.hasVariable = false) :
    k.Tracks (pure (.literal x.literal)) ((Parameters.mk vars []).resolve x)
      fun final e j => x.Comes k final e j := by
  obtain ⟨j, hj, -⟩ := @resolve_literal ⟨vars, []⟩ x h
  rw [hj]
  refine .pure fun final hexact hsound => ⟨j, k.self hsound, ?_⟩
  rw [Expression.valued, Expression.canonical, literal_of_resolve h hexact hj]

mutual

/-- The expression for a value is made as the data is that the value stands for. -/
theorem tracks_expression (x : Value) :
    k.Tracks x.expression ((Parameters.mk vars []).resolve x)
      fun final e j => x.Comes k final e j := by
  cases x with
  | var name =>
    rw [expression, Parameters.resolve]
    refine (k.tracks_variable name).mono fun final e v hbound _ hsound => ?_
    obtain ⟨bound, w, rfl, hw, halike⟩ := hbound
    refine ⟨w, halike hsound, ?_⟩
    rw [Expression.valued, hw, Expression.canonical]
  | list elems =>
    rw [expression]
    -- element by element if there is a variable in it, and one literal otherwise
    split
    · rw [Parameters.resolve]
      refine (tracks_elemExpressions elems).map fun final es js hes hexact hsound => ?_
      obtain ⟨hfinite, hwithin⟩ := hexact
      rw [within64] at hwithin
      obtain ⟨ds, halike, hvalued⟩ :=
        hes hfinite (Value.list.inj hwithin) hsound.finite hsound.keys
      refine ⟨.arr ds, k.arr halike, ?_⟩
      rw [Expression.valued, Expression.canonical, hvalued, Json.literal, Literal.canonical]
    · next h =>
      have hvariable : (Value.list elems).hasVariable = false := by
        rw [hasVariable]
        exact Bool.eq_false_iff.mpr h
      have htracks := tracks_literal k hvariable
      rw [literal] at htracks
      exact htracks
  | object entries =>
    rw [expression]
    split
    · rw [Parameters.resolve]
      refine (tracks_entryExpressions entries).map fun final es ms hes hexact hsound => ?_
      obtain ⟨hfinite, hwithin⟩ := hexact
      rw [within64] at hwithin
      obtain ⟨ds, halike, hvalued⟩ :=
        hes hfinite (Value.object.inj hwithin) hsound.finite hsound.keys.2
      refine ⟨.obj ds, k.obj hsound.keys.1 halike, ?_⟩
      rw [Expression.valued, Expression.canonical, hvalued, Json.literal, Literal.canonical]
    · next h =>
      have hvariable : (Value.object entries).hasVariable = false := by
        rw [hasVariable]
        exact Bool.eq_false_iff.mpr h
      have htracks := tracks_literal k hvariable
      rw [literal] at htracks
      exact htracks
  | _ =>
    rw [expression]
    · exact tracks_literal k (by simp only [hasVariable])
    all_goals intros; contradiction

/-- The expressions for elements track the data that they stand for. -/
theorem tracks_elemExpressions (elems : List Value) :
    k.Tracks (elemExpressions elems) ((Parameters.mk vars []).resolveElems elems)
      fun final es js => ElemsFinite elems → elemsWithin64 elems = elems →
        Json.ElemsFinite js → Json.ElemsKeysDistinct js →
        ∃ ds, List.Forall₂ k.Alike js ds
          ∧ Expression.listCanonicals (Expression.listValued final es)
            = Literal.elemCanonicals (Json.elemLiterals ds) := by
  cases elems with
  | nil =>
    rw [elemExpressions, Parameters.resolveElems]
    refine .pure fun final _ _ _ _ => ⟨[], .nil, ?_⟩
    rw [Expression.listValued, Expression.listCanonicals, Json.elemLiterals,
      Literal.elemCanonicals]
  | cons x rest =>
    rw [elemExpressions, Parameters.resolveElems]
    refine (tracks_expression x).bind fun e j _ => (tracks_elemExpressions rest).bind
      fun es js _ => .pure fun final hes he hfinite hwithin hjfinite hkeys => ?_
    rw [elemsWithin64] at hwithin
    obtain ⟨hx, hrest⟩ := List.cons.inj hwithin
    obtain ⟨d, hd, hvalued⟩ := he ⟨hfinite.1, hx⟩ ⟨hjfinite.1, hkeys.1⟩
    obtain ⟨ds, hds, hmore⟩ := hes hfinite.2 hrest hjfinite.2 hkeys.2
    refine ⟨d :: ds, .cons hd hds, ?_⟩
    rw [Expression.listValued, Expression.listCanonicals, hvalued, hmore, Json.elemLiterals,
      Literal.elemCanonicals]

/-- The expressions for entries track the data that they stand for. -/
theorem tracks_entryExpressions (entries : List (String × Value)) :
    k.Tracks (entryExpressions entries) ((Parameters.mk vars []).resolveEntries entries)
      fun final es ms => EntriesFinite entries → entriesWithin64 entries = entries →
        Json.MembersFinite ms → Json.MembersKeysDistinct ms →
        ∃ ds, List.Forall₂ (fun m d => m.1 = d.1 ∧ k.Alike m.2 d.2) ms ds
          ∧ Expression.entriesCanonicals (Expression.entriesValued final es)
            = Literal.entryCanonicals (Json.memberLiterals ds) := by
  match entries with
  | [] =>
    rw [entryExpressions, Parameters.resolveEntries]
    refine .pure fun final _ _ _ _ => ⟨[], .nil, ?_⟩
    rw [Expression.entriesValued, Expression.entriesCanonicals, Json.memberLiterals,
      Literal.entryCanonicals]
  | (key, x) :: rest =>
    rw [entryExpressions, Parameters.resolveEntries]
    refine (tracks_expression x).bind fun e j _ => (tracks_entryExpressions rest).bind
      fun es ms _ => .pure fun final hes he hfinite hwithin hjfinite hkeys => ?_
    rw [entriesWithin64] at hwithin
    obtain ⟨hx, hrest⟩ := List.cons.inj hwithin
    obtain ⟨d, hd, hvalued⟩ := he ⟨hfinite.1, (Prod.mk.inj hx).2⟩ ⟨hjfinite.1, hkeys.1⟩
    obtain ⟨ds, hds, hmore⟩ := hes hfinite.2 hrest hjfinite.2 hkeys.2
    refine ⟨(key, d) :: ds, .cons ⟨rfl, hd⟩ hds, ?_⟩
    rw [Expression.entriesValued, Expression.entriesCanonicals, hvalued, hmore,
      Json.memberLiterals, Literal.entryCanonicals]

end

end Value

end PropertyGraphQL
