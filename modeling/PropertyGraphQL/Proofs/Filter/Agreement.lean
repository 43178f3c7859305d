/-
Arguments and filters that say the same.

A condition on a property can be asked for by an argument of the field or by
an entry of its filter. An argument binds the variables of its value to
parameters, a filter takes over their data, and a null counts as none on both
paths wherever it is found. What an operator makes of a value does not hang on
the value (`Operator.predicate_some`), so both fail alike, and otherwise the
condition of the argument, with the parameters put in, is that of the filter.
-/
import PropertyGraphQL.Proofs.Outcome.Arguments
import PropertyGraphQL.Proofs.Parameters.Values
import PropertyGraphQL.Proofs.Semantics.Movies

namespace PropertyGraphQL

open Cypher

-- ============================================================= conditions

/-- A condition that compares with constants has no parameters. -/
theorem Cypher.Predicate.Filtering.valued_eq {p : Predicate} {entity : String}
    (h : p.Filtering (fun e => ∃ l, e = .literal l) entity) (parameters : Dict Json) :
    p.valued parameters = p := by
  induction h with
  | always | never | isNull | isNotNull => rfl
  | compare compared =>
    obtain ⟨l, rfl⟩ := compared
    rfl
  | quantified _ ih =>
    rw [Predicate.valued, ih]
    rfl
  | conj _ _ ihp ihq | disj _ _ ihp ihq => rw [Predicate.valued, ihp, ihq]
  | neg _ ih => rw [Predicate.valued, ih]

/-- A comparison, or the negation of one. -/
def Cypher.Predicate.comparing (c : Comparison) (negated : Bool) (lhs rhs : Expression) :
    Predicate :=
  if negated then .neg (.compare c lhs rhs) else .compare c lhs rhs

namespace Operator

/-- With something to compare to, the condition of an operator is its comparison. -/
theorem condition?_some (op : Operator) (lhs rhs : Expression) :
    op.condition? lhs (Option.some rhs)
      = op.comparison?.map fun c => .compare c lhs rhs := by
  cases op with
  | _ => rfl

/-- An operator is refused whatever the value, or makes the same comparison of
each. -/
theorem predicate_some (op : Operator) (property : PropertyField) (lhs : Expression) :
    (∃ e, ∀ rhs, op.predicate property lhs (Option.some rhs) = .error e)
      ∨ ∃ c negated, ∀ rhs, op.predicate property lhs (Option.some rhs)
        = .ok (.comparing c negated lhs rhs) := by
  unfold Operator.predicate
  by_cases hop : op ∈ forType property.type
  · simp only [if_neg (not_not_intro hop), condition?_some]
    cases op.positive.comparison? with
    | none => exact .inl ⟨_, fun _ => rfl⟩
    | some c =>
      right
      cases op.isNegated with
      | false => exact ⟨c, false, fun _ => rfl⟩
      | true =>
        cases c with
        | eq => exact ⟨.neq, false, fun _ => rfl⟩
        | neq => exact ⟨.eq, false, fun _ => rfl⟩
        | _ => exact ⟨_, true, fun _ => rfl⟩
  · simp only [if_pos hop]
    exact .inl ⟨_, fun _ => rfl⟩

end Operator

/-- Comparing with an expression is comparing with a constant, if the one is the
other with the parameters put in. -/
theorem Cypher.Predicate.canonical_comparing {parameters : Dict Json} {c : Comparison}
    {negated : Bool} {entity field : String} {e : Expression} {l : Literal}
    (h : (e.valued parameters).canonical = l.canonical) :
    ((Predicate.comparing c negated (.property entity field) e).valued parameters).canonical
      = (Predicate.comparing c negated (.property entity field) (.literal l)).canonical := by
  have hcompare : ((Predicate.compare c (.property entity field) e).valued parameters).canonical
      = (Predicate.compare c (.property entity field) (.literal l)).canonical := by
    rw [Predicate.valued, Predicate.canonical, Predicate.canonical, h]
    rfl
  cases negated with
  | false => exact hcompare
  | true =>
    show (Predicate.neg (Predicate.valued parameters _)).canonical = (Predicate.neg _).canonical
    rw [Predicate.canonical, Predicate.canonical, hcompare]

theorem Cypher.Predicate.all_singleton (p : Predicate) : Predicate.all [p] = p := by
  cases p with
  | _ => rfl

/-- A value other than null is a constant. -/
theorem Json.constant?_of_not_null {j : Json} (h : j.isNull = false) :
    j.constant? = some (.literal j.literal) := by
  unfold constant?
  rw [h, if_neg Bool.false_ne_true]

/-- Values that are the same are both null or both not. -/
theorem Json.isNull_of_same {j d : Json} (h : j.same d = true) : d.isNull = j.isNull := by
  cases j with
  | null =>
    cases d with
    | null => rfl
    | _ => simp only [same, Bool.false_eq_true] at h
  | _ =>
    cases d with
    | null => simp only [same, Bool.false_eq_true] at h
    | _ => rfl

-- ============================================================== arguments

/-- What is written, but for null and variables, is not null. -/
theorem Value.isNull_of_resolve {p : Parameters} {x : Value} (hnull : x ≠ .null)
    (hvar : ∀ name, x ≠ .var name) (hfinite : x.FloatsFinite) {j : Json}
    (hj : p.resolve x = .ok j) : j.isNull = false := by
  cases x with
  | null => exact absurd rfl hnull
  | var name => exact absurd rfl (hvar name)
  | float x =>
    rw [FloatsFinite] at hfinite
    rw [Parameters.resolve, Json.ofBinary64, if_pos hfinite] at hj
    cases hj
    rfl
  | list elems | object entries =>
    rw [Parameters.resolve] at hj
    obtain ⟨_, -, rfl⟩ := map_eq_ok_iff.mp hj
    rfl
  | _ =>
    rw [Parameters.resolve] at hj
    cases hj
    rfl

/-- What is no list is found to be none, or a variable is missing. -/
theorem Value.run_isList {vars : Dict Json} {p : Parameters} (hp : p.vars = vars) {x : Value}
    (hlist : x.IsListIn vars = false) :
    x.isList.run p = .ok (false, p)
      ∨ ∃ e, x.isList.run p = .error e ∧ (Parameters.mk vars []).resolve x = .error e := by
  cases x with
  | var name =>
    rw [Value.isList, StateT.run_bind, Keeping.run_valueOf hp, Parameters.resolve]
    have helim : (vars.get? name).elim false Json.isArray = false := hlist
    unfold Parameters.valueOf
    dsimp only
    cases hv : vars.get? name with
    | none => exact .inr ⟨_, rfl, rfl⟩
    | some v =>
      rw [hv] at helim
      have harray : v.isArray = false := helim
      left
      show Except.ok (v.isArray, p) = _
      rw [harray]
  | list elems => cases hlist
  | _ => exact .inl rfl

/-- Whether a variable is null is told by its value, and nothing is bound for that. -/
theorem Value.run_isNull_var {vars : Dict Json} {p : Parameters} (hp : p.vars = vars)
    (name : String) : (Value.var name).isNull.run p
      = ((Parameters.mk vars []).valueOf name).map fun v => (v.isNull, p) := by
  rw [Value.isNull, StateT.run_bind, Keeping.run_valueOf hp]
  cases (Parameters.mk vars []).valueOf name with
  | error e => rfl
  | ok v => rfl

section

variable {catalog : Catalog} {vars : Dict Json} (k : Keeping vars) {t : EntityType}
  {entity name field : String} {op : Operator} {property : PropertyField} {x : Value}

/-- A condition is, with the parameters put in, the one that an operator makes of
data alike to what a value stands for. -/
def Cypher.Predicate.MadeOf {vars : Dict Json} (k : Keeping vars) (op : Operator)
    (property : PropertyField) (lhs : Expression) (x : Value) (parameters : Dict Json)
    (p : Predicate) : Prop :=
  ∃ j d p', x.StandsFor vars j ∧ k.Alike j d ∧ op.predicate property lhs d.constant? = .ok p'
    ∧ (p.valued parameters).canonical = p'.canonical

namespace EntityType

/-- Without a value both paths make the same condition. -/
theorem tracks_null (hx : x.StandsFor vars .null) :
    k.Tracks (liftM (op.predicate property (.property entity field) none))
      (op.predicate property (.property entity field) Json.null.constant?)
      fun final p _ => p.MadeOf k op property (.property entity field) x final := by
  refine .lift ?_
  cases hp : op.predicate property (.property entity field) Json.null.constant? with
  | error e => exact hp
  | ok p =>
    refine ⟨p, hp, fun final => ⟨.null, .null, p, hx, k.self ⟨trivial, trivial⟩, hp, ?_⟩⟩
    rw [(Operator.filtering_predicate ⟨.null, rfl⟩ hp).valued_eq]

/-- With a value one path compares with an expression for it and the other with
its data. -/
theorem tracks_value (hexact : x.IsExact) (hsound : ∀ j, x.StandsFor vars j → j.Sound)
    (hnull : ∀ j, x.StandsFor vars j → j.isNull = false) :
    k.Tracks ((some <$> x.expression) >>= fun rhs =>
        (liftM (op.predicate property (.property entity field) rhs) : Compiling Predicate))
      ((Parameters.mk vars []).resolve x >>= fun j =>
        op.predicate property (.property entity field) j.constant?)
      fun final p _ => p.MadeOf k op property (.property entity field) x final := by
  rw [bind_map_left]
  refine (Value.tracks_expression k x).bind fun e j hj => ?_
  have hjnull := hnull j hj
  rw [Json.constant?_of_not_null hjnull]
  refine .lift ?_
  rcases op.predicate_some property (.property entity field) with
    ⟨err, herror⟩ | ⟨c, negated, hcomparing⟩
  · rw [herror, herror]
  · rw [hcomparing, hcomparing]
    refine ⟨_, rfl, fun final hcomes => ?_⟩
    obtain ⟨d, halike, hvalued⟩ := hcomes hexact (hsound j hj)
    have hdnull : d.isNull = false := by
      rw [Json.isNull_of_same (k.same (hsound j hj) halike)]
      exact hjnull
    refine ⟨j, d, _, hj, halike, ?_, Predicate.canonical_comparing hvalued⟩
    rw [Json.constant?_of_not_null hdnull, hcomparing]

/-- An argument that names a property makes the condition that a filter makes of the
data of its value. -/
theorem tracks_comparisonArgument
    (hresolve : Operator.resolve t.properties.contains name = (field, op))
    (hproperty : t.property? field = some property) (hexact : x.IsExact)
    (hsound : ∀ j, x.StandsFor vars j → j.Sound) :
    k.Tracks (t.comparisonArgument entity name x)
      ((Parameters.mk vars []).resolve x >>= fun j =>
        op.predicate property (.property entity field) j.constant?)
      fun final p _ => p.MadeOf k op property (.property entity field) x final := by
  unfold comparisonArgument
  rw [hresolve]
  dsimp only
  rw [hproperty]
  dsimp only
  -- whether it is null is known at once, by the variable's value, or not at all
  by_cases hnull : x = .null
  · subst hnull
    rw [Parameters.resolve]
    exact tracks_null k (by rw [Value.StandsFor, Parameters.resolve])
  by_cases hvar : ∃ y, x = .var y
  · obtain ⟨y, rfl⟩ := hvar
    intro p hp hknown
    -- without a value for the variable both fail, and of the same error
    cases hv : (Parameters.mk vars []).valueOf y with
    | error e =>
      rw [Parameters.resolve, hv, StateT.run_bind, Value.run_isNull_var hp, hv]
      rfl
    | ok w =>
      have hstands : (Value.var y).StandsFor vars w := by
        rw [Value.StandsFor, Parameters.resolve]
        exact hv
      have honly : ∀ j, (Value.var y).StandsFor vars j → j = w := fun j hj =>
        Except.ok.inj (hj.symm.trans hstands)
      have hisNull : (Value.var y).isNull.run p = .ok (w.isNull, p) := by
        rw [Value.run_isNull_var hp, hv]
        rfl
      rw [StateT.run_bind, hisNull]
      cases hw : w.isNull with
      | true =>
        obtain rfl : w = .null := by
          cases w with
          | null => rfl
          | _ => cases hw
        rw [Parameters.resolve, hv]
        exact tracks_null k hstands hp hknown
      | false =>
        have htracks : k.Tracks _ ((Parameters.mk vars []).resolve (.var y) >>= fun j =>
            op.predicate property (.property entity field) j.constant?) _ :=
          tracks_value k hexact hsound fun j hj => honly j hj ▸ hw
        exact htracks hp hknown
  -- what is no variable is written, and if not as null then it is not null
  · have hwritten : x.isNull = pure false := by
      cases x with
      | null => exact absurd rfl hnull
      | var y => exact absurd ⟨y, rfl⟩ hvar
      | _ => rfl
    rw [hwritten, pure_bind, if_neg Bool.false_ne_true]
    refine tracks_value k hexact hsound fun j hj => ?_
    exact Value.isNull_of_resolve hnull (fun y hy => hvar ⟨y, hy⟩) hexact.1 hj

/-- So does an argument that is not read as a plural. -/
theorem tracks_plainArgument (hsingle : t.pluralOf? name = none ∨ x.IsListIn vars = false)
    (hresolve : Operator.resolve t.properties.contains name = (field, op))
    (hproperty : t.property? field = some property) (hexact : x.IsExact)
    (hsound : ∀ j, x.StandsFor vars j → j.Sound) :
    k.Tracks (t.plainArgument entity name x)
      ((Parameters.mk vars []).resolve x >>= fun j =>
        op.predicate property (.property entity field) j.constant?)
      fun final p _ => p.MadeOf k op property (.property entity field) x final := by
  have hcomparison : k.Tracks (t.comparisonArgument entity name x) _ _ :=
    tracks_comparisonArgument k hresolve hproperty hexact hsound
  unfold plainArgument
  cases hplural : t.pluralOf? name with
  | none => exact hcomparison
  | some singular =>
    have hlist : x.IsListIn vars = false := by
      rcases hsingle with hnone | hlist
      · rw [hplural] at hnone
        cases hnone
      · exact hlist
    intro p hp hknown
    dsimp only
    rw [StateT.run_bind]
    rcases Value.run_isList hp hlist with hrun | ⟨e, hrun, hresolved⟩
    · rw [hrun]
      exact hcomparison hp hknown
    · rw [hrun, hresolved]
      rfl

end EntityType

end

-- ================================================================== filters

section

variable {catalog : Catalog} {t : EntityType} {entity key field : String} {op : Operator}
  {property : PropertyField}

/-- A filter of one entry that names a property is the condition of its operator. -/
theorem Json.filterPredicate_property (hkey : key ∉ ["AND", "OR"])
    (hresolve : Operator.resolve t.hasField key = (field, op))
    (hproperty : t.property? field = some property) (value : Json) :
    (Json.obj [(key, value)]).filterPredicate catalog t entity
      = op.predicate property (.property entity field) value.constant? := by
  have hand : key ≠ "AND" := fun heq => hkey (heq ▸ List.mem_cons_self)
  have hor : key ≠ "OR" := fun heq => hkey (heq ▸ List.mem_cons_of_mem _ List.mem_cons_self)
  have hentry : (operand catalog value).entry catalog key value t entity
      = op.predicate property (.property entity field) value.constant? := by
    unfold Operand.entry
    rw [if_neg hand, if_neg hor, hresolve]
    dsimp only
    rw [hproperty]
    rfl
  unfold filterPredicate
  rw [operand]
  dsimp only
  rw [entryPredicates, hentry, entryPredicates]
  cases op.predicate property (.property entity field) value.constant? with
  | error e => rfl
  | ok p => exact congrArg Except.ok p.all_singleton

namespace ScopeArguments

variable {declared : Dict DeclaredArgument}

/-- One argument without a meaning of its own asks for its condition alone. -/
theorem run_ofArguments_plain {x : Value} (hkey : key ∉ ["first", "offset", "orderBy", "filter"])
    (hdeclared : declared.contains key = false) (p : Parameters) :
    (ofArguments catalog t entity declared [(key, x)]).run p
      = ((t.plainArgument entity key x).run p).map fun r =>
          ({ none with condition := r.1 }, r.2) := by
  have hgather : gather catalog t entity (none, []) (key, x)
      = (do return (none, [← t.plainArgument entity key x])) := by
    unfold gather
    dsimp only
    split
    · exact absurd (by decide) hkey
    · exact absurd (by decide) hkey
    · exact absurd (by decide) hkey
    · exact absurd (by decide) hkey
    · rfl
  unfold ofArguments
  rw [List.filter_cons_of_pos (by simp [hdeclared]), List.filter_nil]
  show StateT.run ((List.foldlM (gather catalog t entity) (none, []) [(key, x)]) >>= _) p = _
  rw [List.foldlM_cons, hgather]
  simp only [List.foldlM_nil, bind_pure_comp, bind_pure, StateT.run_map]
  cases (t.plainArgument entity key x).run p with
  | error e => rfl
  | ok r =>
    obtain ⟨c, q⟩ := r
    show Except.ok (_, q) = Except.ok (_, q)
    rw [Predicate.all_singleton]

/-- A filter of one entry asks for what the entry says of its data, and binds
nothing. -/
theorem run_ofArguments_filter (hdeclared : declared.contains "filter" = false) (x : Value)
    (p : Parameters) :
    (ofArguments catalog t entity declared [("filter", .object [(key, x)])]).run p
      = (p.resolve x >>= fun j =>
          (Json.obj [(key, j)]).filterPredicate catalog t entity).map fun c =>
            ({ none with condition := c }, p) := by
  -- an object with one entry resolves as its value does
  have hresolve : (Compiling.resolve (.object [(key, x)])).run p
      = (p.resolve x).map fun j => (.obj [(key, j)], p) := by
    show (liftM (p.resolve (.object [(key, x)])) : Compiling Json).run p = _
    rw [Parameters.resolve, Parameters.resolveEntries, Parameters.resolveEntries]
    cases p.resolve x with
    | error e => rfl
    | ok j => rfl
  unfold ofArguments
  rw [List.filter_cons_of_pos (by simp [hdeclared]), List.filter_nil]
  show StateT.run (List.foldlM (gather catalog t entity) (none, [])
    [("filter", .object [(key, x)])] >>= _) p = _
  rw [List.foldlM_cons]
  unfold gather
  dsimp only
  simp only [List.foldlM_nil, bind_pure, bind_assoc, StateT.run_bind, hresolve]
  cases p.resolve x with
  | error e => rfl
  | ok j =>
    show ((liftM ((Json.obj [(key, j)]).filterPredicate catalog t entity) : Compiling _).run p
      >>= _) = Except.map _ ((Json.obj [(key, j)]).filterPredicate catalog t entity)
    cases (Json.obj [(key, j)]).filterPredicate catalog t entity with
    | error e => rfl
    | ok c =>
      show Except.ok (_, p) = Except.ok (_, p)
      rw [List.nil_append, Predicate.all_singleton]

variable (catalog entity) in
/-- An argument and the filter of one entry that is written like it fail with the same
error, or the argument says of the value what the filter says of its data. -/
theorem run_ofArguments_madeOf {x : Value} {p : Parameters} (k : Keeping p.vars)
    (hknown : k.Known p) (hkey : key ∉ ["first", "offset", "orderBy", "filter", "AND", "OR"])
    (hdeclared : declared.contains key = false) (hfilter : declared.contains "filter" = false)
    (hsingle : t.pluralOf? key = Option.none ∨ x.IsListIn p.vars = false)
    (hargument : Operator.resolve t.properties.contains key = (field, op))
    (hentry : Operator.resolve t.hasField key = (field, op))
    (hproperty : t.property? field = some property) (hexact : x.IsExact)
    (hsound : ∀ j, x.StandsFor p.vars j → j.Sound) :
    (∃ e, (ofArguments catalog t entity declared [(key, x)]).run p = .error e
      ∧ (ofArguments catalog t entity declared [("filter", .object [(key, x)])]).run p = .error e)
    ∨ ∃ asked q said,
      (ofArguments catalog t entity declared [(key, x)]).run p
        = .ok ({ none with condition := asked }, q)
      ∧ (ofArguments catalog t entity declared [("filter", .object [(key, x)])]).run p
        = .ok ({ none with condition := said }, p)
      ∧ (∀ j, x.StandsFor p.vars j →
          op.predicate property (.property entity field) j.constant? = .ok said)
      ∧ k.Known q ∧ asked.MadeOf k op property (.property entity field) x q.bound := by
  have hplain : key ∉ ["first", "offset", "orderBy", "filter"] := fun h =>
    hkey (List.mem_append_left ["AND", "OR"] h)
  have hcombining : key ∉ ["AND", "OR"] := fun h =>
    hkey (List.mem_append_right ["first", "offset", "orderBy", "filter"] h)
  have hvars : p.resolve x = (Parameters.mk p.vars []).resolve x := by
    apply Value.resolve_congr
    rfl
  -- both run the operator on the one value, the entry of the filter at once and the argument
  -- by `plainArgument`
  rw [run_ofArguments_plain hplain hdeclared, run_ofArguments_filter hfilter, hvars]
  simp only [Json.filterPredicate_property hcombining hentry hproperty]
  have htracks : k.Tracks (t.plainArgument entity key x) _ _ :=
    EntityType.tracks_plainArgument k hsingle hargument hproperty hexact hsound
  have hrun := htracks rfl hknown
  cases hsaid : (Parameters.mk p.vars []).resolve x >>= fun j =>
      op.predicate property (.property entity field) j.constant? with
  | error e =>
    rw [hsaid] at hrun
    left
    refine ⟨e, ?_, rfl⟩
    rw [hrun]
    rfl
  | ok said =>
    rw [hsaid] at hrun
    obtain ⟨asked, q, hrun, -, hq, -, hmade⟩ := hrun
    right
    refine ⟨asked, q, said, ?_, rfl, fun j hj => ?_, hq, hmade q.bound (k.refl _)⟩
    · rw [hrun]
      rfl
    · rw [hj] at hsaid
      exact hsaid

/-- An argument that names a property, and the filter of one entry that is written like it.
They fail with the same error; or both succeed, the filter binds nothing, and with the
parameters put in the argument asks for what the filter of data equal to that of its value
asks for. From faithful parameters, as a statement starts out with, it is the very filter. -/
theorem argument_as_filter {x : Value} {p : Parameters}
    (hkey : key ∉ ["first", "offset", "orderBy", "filter", "AND", "OR"])
    (hdeclared : declared.contains key = false) (hfilter : declared.contains "filter" = false)
    (hsingle : t.pluralOf? key = Option.none ∨ x.IsListIn p.vars = false)
    (hargument : Operator.resolve t.properties.contains key = (field, op))
    (hentry : Operator.resolve t.hasField key = (field, op))
    (hproperty : t.property? field = some property) (hexact : x.IsExact)
    (hkeys : x.KeysDistinct) (hvars : ∀ name j, p.vars.get? name = some j → j.Sound) :
    (∃ e, (ofArguments catalog t entity declared [(key, x)]).run p = .error e
      ∧ (ofArguments catalog t entity declared [("filter", .object [(key, x)])]).run p = .error e)
    ∨ ∃ a b q,
      (ofArguments catalog t entity declared [(key, x)]).run p = .ok (a, q)
      ∧ (ofArguments catalog t entity declared [("filter", .object [(key, x)])]).run p
        = .ok (b, p)
      ∧ a = { b with condition := a.condition }
      ∧ (p.Faithful → q.Faithful
        ∧ (a.condition.valued q.bound).canonical = b.condition.canonical)
      ∧ ∃ j d c, x.StandsFor p.vars j ∧ j.same d = true
        ∧ (Json.obj [(key, d)]).filterPredicate catalog t entity = .ok c
        ∧ (a.condition.valued q.bound).canonical = c.canonical := by
  have hcombining : key ∉ ["AND", "OR"] := fun h =>
    hkey (List.mem_append_right ["first", "offset", "orderBy", "filter"] h)
  have hsound (j : Json) (hj : x.StandsFor p.vars j) : j.Sound :=
    @Value.sound_of_resolve ⟨p.vars, []⟩ hvars x hexact.1 hkeys j hj
  -- what is bound may be kept up to equal values or exactly, and each way gives a half
  have hmade {k : Keeping p.vars} (hknown : k.Known p) :=
    run_ofArguments_madeOf catalog entity k hknown hkey hdeclared hfilter hsingle hargument hentry
      hproperty hexact hsound
  rcases hmade (k := .equal p.vars) trivial with
    hfails | ⟨asked, q, said, hasked, hsaid, hdata, -, j, d, c, hj, hjd, hc, hequal⟩
  · exact .inl hfails
  right
  refine ⟨_, _, q, hasked, hsaid, rfl, fun hfaithful => ?_, j, d, c, hj, hjd, ?_, hequal⟩
  -- kept exactly, the value denoted is the value itself
  · rcases hmade (k := .exact hvars) hfaithful with
      ⟨e, herror, -⟩ | ⟨_, _, _, hasked', -, -, hq, j', d', c', hj', hjd', hc', hequal'⟩
    · rw [hasked] at herror
      cases herror
    · rw [hasked] at hasked'
      cases hasked'
      refine ⟨hq, ?_⟩
      obtain rfl : j' = d' := hjd'
      have hsame := (hdata j' hj').symm.trans hc'
      cases hsame
      exact hequal'
  · rw [Json.filterPredicate_property hcombining hentry hproperty]
    exact hc

end ScopeArguments

end

/-- People born in one of two years, the second a variable. -/
theorem ScopeArguments.argument_as_filter_person :
    ∃ a b q, (ofArguments .movies .person "person" []
        [("born_in", .list [.int 1964, .var "year"])]).run ⟨[("year", .int 1967)], []⟩ = .ok (a, q)
      ∧ (ofArguments .movies .person "person" []
        [("filter", .object [("born_in", .list [.int 1964, .var "year"])])]).run
          ⟨[("year", .int 1967)], []⟩ = .ok (b, ⟨[("year", .int 1967)], []⟩)
      ∧ a.condition = .compare .member (.property "person" "born")
          (.list [.literal (.int 1964), .parameter "year"])
      ∧ b.condition = .compare .member (.property "person" "born")
          (.literal (.list [.int 1964, .int 1967]))
      ∧ (a.condition.valued q.bound).canonical = b.condition.canonical := by
  have hkey : "born_in" ∉ ["first", "offset", "orderBy", "filter", "AND", "OR"] := by decide
  have hdeclared : Dict.contains ([] : Dict DeclaredArgument) "born_in" = false := rfl
  have hfilter : Dict.contains ([] : Dict DeclaredArgument) "filter" = false := rfl
  have hplural : EntityType.person.pluralOf? "born_in" = Option.none := by decide
  have hargument : Operator.resolve EntityType.person.properties.contains "born_in"
      = ("born", .oneOf) := by decide
  have hentry : Operator.resolve EntityType.person.hasField "born_in" = ("born", .oneOf) := by
    decide
  have hproperty : EntityType.person.property? "born"
      = some (.plain "born" (.scalar "Int")) := rfl
  have hexact : (Value.list [.int 1964, .var "year"]).IsExact :=
    ⟨⟨trivial, trivial, trivial⟩, rfl⟩
  have hkeys : (Value.list [.int 1964, .var "year"]).KeysDistinct := ⟨trivial, trivial, trivial⟩
  have hvars (name : String) (j : Json)
      (hj : (Parameters.mk [("year", .int 1967)] []).vars.get? name = some j) : j.Sound := by
    have hmember : (name, j) = ("year", .int 1967) :=
      List.mem_singleton.mp (Dict.mem_of_get? hj)
    rw [(Prod.mk.inj hmember).2]
    exact ⟨trivial, trivial⟩
  rcases argument_as_filter hkey hdeclared hfilter (.inl hplural) hargument hentry hproperty hexact
    hkeys hvars with ⟨e, herror, -⟩ | ⟨a, b, q, ha, hb, -, hfaithful, -⟩
  · cases herror
  · refine ⟨a, b, q, ha, hb, ?_, ?_, (hfaithful (Parameters.faithful_nil _)).2⟩
    · cases ha
      rfl
    · cases hb
      rfl

end PropertyGraphQL
