/-
The condition that a filter is compiled to means what the filter says.

Compiling simplifies: it drops what is true anyway, absorbs, and drops a
condition that repeats its neighbour. That keeps the truth because, of the
conditions of filters, those that are the same have the same truth:
constants occur in them only where something is compared with them.

A quantifier binds a variable made from that of its entity. Where no such
name is bound, the pattern of the quantifier finds the related nodes, and
not those that some outer variable stands for; and the names made from the
new variable are among those made from the old one, so that this holds
again further in (`FreshBelow.bind`).
-/
import PropertyGraphQL.Proofs.Filter.Reading
import PropertyGraphQL.Proofs.Filter.Shape
import PropertyGraphQL.Proofs.Semantics.Evaluation
import PropertyGraphQL.Proofs.Semantics.Movies

namespace PropertyGraphQL

open Cypher

variable {db : Database} {catalog : Catalog}

-- ======================================================= repeated operands

/-- A constant in which no map has a key twice. -/
def Cypher.Expression.Constant (e : Expression) : Prop :=
  ∃ l : Literal, l.KeysDistinct ∧ e = .literal l

namespace Cypher.Predicate.Filtering

/-- The list of related entities holds no constant, so it is the same as
another only if it is that one. -/
theorem related_eq_of_same {shape shape' : RelationshipShape}
    {entity item label entity' item' label' : String}
    (h : (shape.related entity item label).same (shape'.related entity' item' label')
      = true) :
    shape.related entity item label = shape'.related entity' item' label' := by
  unfold RelationshipShape.related at h ⊢
  unfold RelationshipShape.pattern Pattern.related Pattern.node NodePattern.named
    NodePattern.labelled at h ⊢
  simp only [Expression.same, Pattern.same, NodePattern.same, NodePattern.sameHops,
    Expression.sameEntries, Predicate.same, List.nil_append, Bool.and_true, Bool.and_eq_true,
    beq_iff_eq] at h
  simp only [List.nil_append, Expression.patternComprehension.injEq, Pattern.mk.injEq]
  grind

/-- Conditions of filters that are the same have the same truth. -/
theorem eval_eq_of_same (lawful : db.Lawful) {p q : Predicate} {entity other : String}
    (hp : p.Filtering Expression.Constant entity)
    (hq : q.Filtering Expression.Constant other) (same : p.same q = true)
    (env : Environment) : p.eval db env = q.eval db env := by
  -- predicates of different shapes are never the same, so one case of `hq` is left each time
  induction hp generalizing q other env with
  | always =>
    cases hq with
    | always => rfl
    | _ => simp only [Predicate.same, Bool.false_eq_true] at same
  | never =>
    cases hq with
    | never => rfl
    | _ => simp only [Predicate.same, Bool.false_eq_true] at same
  | compare compared =>
    cases hq with
    | compare compared' =>
      obtain ⟨l, hl, rfl⟩ := compared
      obtain ⟨l', hl', rfl⟩ := compared'
      simp only [Predicate.same, Expression.same, Bool.and_eq_true, beq_iff_eq] at same
      -- the constants may differ as they are written, and only compare alike
      obtain ⟨⟨rfl, rfl, rfl⟩, hsame⟩ := same
      simp only [Predicate.eval, Expression.eval]
      exact lawful.same _ _ hl hl' hsame
    | _ => simp only [Predicate.same, Bool.false_eq_true] at same
  | isNull =>
    cases hq with
    | isNull =>
      simp only [Predicate.same, Expression.same, Bool.and_eq_true, beq_iff_eq] at same
      obtain ⟨rfl, rfl⟩ := same
      rfl
    | _ => simp only [Predicate.same, Bool.false_eq_true] at same
  | isNotNull =>
    cases hq with
    | isNotNull =>
      simp only [Predicate.same, Expression.same, Bool.and_eq_true, beq_iff_eq] at same
      obtain ⟨rfl, rfl⟩ := same
      rfl
    | _ => simp only [Predicate.same, Bool.false_eq_true] at same
  | quantified inner ih =>
    cases hq with
    | quantified inner' =>
      simp only [Predicate.same, Bool.and_eq_true, beq_iff_eq] at same
      obtain ⟨⟨⟨rfl, hbinder⟩, hs⟩, hc⟩ := same
      rw [Predicate.eval, Predicate.eval, related_eq_of_same hs, hbinder]
      simp only [ih inner' hc]
    | _ => simp only [Predicate.same, Bool.false_eq_true] at same
  | conj lhs rhs ihl ihr =>
    cases hq with
    | conj lhs' rhs' =>
      simp only [Predicate.same, Bool.and_eq_true] at same
      rw [Predicate.eval, Predicate.eval, ihl lhs' same.1, ihr rhs' same.2]
    | _ => simp only [Predicate.same, Bool.false_eq_true] at same
  | disj lhs rhs ihl ihr =>
    cases hq with
    | disj lhs' rhs' =>
      simp only [Predicate.same, Bool.and_eq_true] at same
      rw [Predicate.eval, Predicate.eval, ihl lhs' same.1, ihr rhs' same.2]
    | _ => simp only [Predicate.same, Bool.false_eq_true] at same
  | neg inner ih =>
    cases hq with
    | neg inner' =>
      simp only [Predicate.same] at same
      rw [Predicate.eval, Predicate.eval, ih inner' same]
    | _ => simp only [Predicate.same, Bool.false_eq_true] at same

/-- The conditions on an entity are a family, so lists of them may be
combined. -/
theorem family (lawful : db.Lawful) (env : Environment) (entity : String) :
    Valuation.Family (Predicate.eval db env)
      fun p => p.Filtering Expression.Constant entity where
  always := .always
  never := .never
  and := Filtering.and
  or := Filtering.or
  same hp hq h := hp.eval_eq_of_same lawful hq h env

end Cypher.Predicate.Filtering

-- ======================================================== related entities

namespace Cypher.Environment

/-- No name made from a variable is bound. -/
def FreshBelow (env : Environment) (entity : String) : Prop :=
  ∀ rest, env (entity ++ "_" ++ rest) = none

/-- A name made from a variable is longer than it. -/
theorem madeFrom_ne (entity rest : String) : entity ++ "_" ++ rest ≠ entity := by
  intro e
  have hlength := congrArg String.length e
  simp only [String.length_append] at hlength
  have hunderscore : "_".length = 1 := rfl
  omega

/-- Where one variable is bound, no name made from it is. -/
theorem freshBelow_bind_unbound (entity : String) (d : Datum) :
    (unbound.bind entity d).FreshBelow entity := by
  intro rest
  rw [bind_other _ (madeFrom_ne entity rest)]
  rfl

/-- Names made from a variable that is itself made from another are made
from that one too. -/
theorem FreshBelow.bind {env : Environment} {entity : String} (h : env.FreshBelow entity)
    (name : String) (d : Datum) :
    (env.bind (entity ++ "_" ++ name) d).FreshBelow (entity ++ "_" ++ name) := by
  intro rest
  have hassoc : entity ++ "_" ++ name ++ "_" ++ rest
      = entity ++ "_" ++ (name ++ "_" ++ rest) := by
    simp only [String.append_assoc]
  rw [bind_other _ (madeFrom_ne _ rest), hassoc]
  exact h _

end Cypher.Environment

namespace RelationshipShape

/-- The pattern of a relationship, whose start is bound and whose end is
not, is matched once for every node reached. -/
theorem matchings_pattern (shape : RelationshipShape) {env : Environment}
    {entity item label : String} {n : Nat} (hn : env entity = some (.node n))
    (hitem : env item = none) :
    Pattern.matchings db env (shape.pattern entity item label)
      = (db.graph.reached shape label n).map fun other =>
          (env.bind entity (.node n)).bind item (.node other) := by
  have hne : item ≠ entity := by
    intro e
    rw [e, hn] at hitem
    cases hitem
  have hstart : db.graph.starts env (some entity) = [n] := by
    unfold Graph.starts
    rw [Option.bind_some, hn]
  have hnode : NodePattern.matchedBy db env n ⟨some entity, [], []⟩ = true := by
    rw [NodePattern.matchedBy, Expression.evalEntries]
    simp [Environment.admits, hn, Datum.isNode]
  have hother : ∀ other, NodePattern.matchedBy db (env.bind entity (.node n)) other
      ⟨some item, [label], []⟩ = decide (label ∈ db.graph.labels other) := by
    intro other
    rw [NodePattern.matchedBy, Expression.evalEntries]
    simp [Environment.admits, Environment.bind_other _ hne, hitem]
  unfold RelationshipShape.pattern Pattern.related Pattern.node NodePattern.named
    NodePattern.labelled Graph.reached
  rw [Pattern.matchings, hstart, List.filter_map, List.map_map]
  simp [hnode, hother, NodePattern.walks, Environment.bind?, Environment.admits,
    ← List.map_eq_flatMap, Function.comp_def]

/-- The comprehension of related entities gives the nodes that are reached. -/
theorem eval_related (shape : RelationshipShape) {env : Environment}
    {entity item label : String} {n : Nat} (hn : env entity = some (.node n))
    (hitem : env item = none) :
    (shape.related entity item label).eval db env
      = .list ((db.graph.reached shape label n).map .node) := by
  unfold RelationshipShape.related
  rw [Expression.eval, shape.matchings_pattern hn hitem,
    List.filter_eq_self.mpr fun _ _ => by rw [Predicate.eval]; rfl, List.map_map]
  congr 1
  refine List.map_congr_left fun other _ => ?_
  rw [Function.comp_apply, Expression.eval]
  unfold Environment.value
  rw [Environment.bind_self]
  rfl

end RelationshipShape

-- ============================================= what conditions say of a node

namespace Cypher.Predicate

variable (db) in
/-- A condition on the entity of a variable says of a node what a reading
says, wherever no name made from the variable is bound. -/
def Says (p : Predicate) (entity : String) (reading : Nat → Truth) : Prop :=
  p.Filtering Expression.Constant entity ∧ ∀ (env : Environment) (n : Nat),
    env entity = some (.node n) → env.FreshBelow entity → p.eval db env = reading n

variable (db) in
/-- Conditions say what the readings of a list say, one by one. -/
def AllSay (ps : List Predicate) (entity : String) (readings : Nat → List Truth) : Prop :=
  (∀ p ∈ ps, p.Filtering Expression.Constant entity) ∧ ∀ (env : Environment) (n : Nat),
    env entity = some (.node n) → env.FreshBelow entity →
      ps.map (Predicate.eval db env) = readings n

variable {entity : String} {p : Predicate} {ps : List Predicate}

theorem Says.congr {reading reading' : Nat → Truth} (h : Says db p entity reading)
    (heq : ∀ n, reading n = reading' n) : Says db p entity reading' :=
  ⟨h.1, fun env n hn hfresh => (h.2 env n hn hfresh).trans (heq n)⟩

theorem Says.always : Says db .always entity fun _ => .yes :=
  ⟨.always, fun _ _ _ _ => by rw [Predicate.eval]⟩

theorem AllSay.nil : AllSay db [] entity fun _ => [] :=
  ⟨List.forall_mem_nil _, fun _ _ _ _ => rfl⟩

/-- One more condition says one thing more. -/
theorem AllSay.cons {reading : Nat → Truth} {readings : Nat → List Truth}
    (hp : Says db p entity reading) (hps : AllSay db ps entity readings) :
    AllSay db (p :: ps) entity fun n => reading n :: readings n := by
  refine ⟨?_, fun env n hn hfresh => ?_⟩
  · intro q hq
    rcases List.mem_cons.mp hq with rfl | hq
    · exact hp.1
    · exact hps.1 q hq
  · rw [List.map_cons, hp.2 env n hn hfresh, hps.2 env n hn hfresh]

/-- Conditions that are joined by `AND` say whether all their readings hold. -/
theorem AllSay.all (lawful : db.Lawful) {readings : Nat → List Truth}
    (h : AllSay db ps entity readings) :
    Says db (.all ps) entity fun n => Truth.all (readings n) := by
  refine ⟨.all h.1, fun env n hn hfresh => ?_⟩
  have hfamily := Filtering.family lawful env entity
  rw [(Database.valuation lawful env).truth_all hfamily h.1, h.2 env n hn hfresh]

/-- Conditions that are joined by `OR` say whether one of their readings holds. -/
theorem AllSay.any (lawful : db.Lawful) {readings : Nat → List Truth}
    (h : AllSay db ps entity readings) :
    Says db (.any ps) entity fun n => Truth.any (readings n) := by
  refine ⟨.any h.1, fun env n hn hfresh => ?_⟩
  have hfamily := Filtering.family lawful env entity
  rw [(Database.valuation lawful env).truth_any hfamily h.1, h.2 env n hn hfresh]

/-- A quantifier says of a node what it makes of the nodes reached from it:
the variable it binds is new, and so are the names made from that. -/
theorem Says.quantified {reading : Nat → Truth} (shape : RelationshipShape)
    (name label : String) (q : Quantifier) (h : Says db p (entity ++ "_" ++ name) reading) :
    Says db (.quantified q (entity ++ "_" ++ name)
        (shape.related entity (entity ++ "_" ++ name) label) p) entity
      fun n => q.truth ((db.graph.reached shape label n).map reading) := by
  refine ⟨.quantified h.1, fun env n hn hfresh => ?_⟩
  rw [Predicate.eval, shape.eval_related hn (hfresh name)]
  dsimp only
  rw [List.map_map]
  congr 1
  refine List.map_congr_left fun other _ => ?_
  exact h.2 _ other (Environment.bind_self env _ _) (hfresh.bind name _)

end Cypher.Predicate

-- ============================================================== operators

namespace Operator

/-- An operator that is no negation compares as Cypher does, except with null for equality. -/
theorem compares_positive {op : Operator} {c : Comparison}
    (hc : op.comparison? = Option.some c) {operand : Json}
    (hnull : op = .eq → operand.isNull = false) (value : Datum) :
    op.compares db value operand = db.compare c value (.ofJson operand) := by
  cases op with
  | eq =>
    cases hc
    unfold compares
    rw [hnull rfl]
    rfl
  | _ => cases hc <;> rfl

/-- A negated operator says the negation of what its positive one says. -/
theorem compares_negated {op : Operator} (h : op.isNegated = true) (value : Datum)
    (operand : Json) :
    op.compares db value operand = (op.positive.compares db value operand).not := by
  cases op with
  | neq | notOneOf | notContains | notStartsWith | notEndsWith => rfl
  | _ => cases h

/-- Null is the only value that is no constant. -/
theorem isNull_of_constant? {value : Json} (h : value.constant? = Option.none) :
    value.isNull = true := by
  unfold Json.constant? at h
  split at h
  · assumption
  · cases h

/-- Null is no constant. -/
theorem constant?_of_isNull {value : Json} (h : value.isNull = true) :
    value.constant? = Option.none := by
  unfold Json.constant?
  rw [if_pos h]

/-- The condition of a positive operator says what the operator says about
the value of the property. -/
theorem eval_condition {op : Operator} {entity field : String} {operand : Json}
    {base : Predicate} {env : Environment} {n : Nat} (hn : env entity = Option.some (.node n))
    (h : op.condition? (.property entity field) operand.constant? = Option.some base) :
    base.eval db env = op.compares db (db.graph.property n field) operand := by
  have hvalue : Expression.eval db env (.property entity field)
      = db.graph.property n field := by
    rw [Expression.eval]
    unfold Environment.value
    rw [hn]
    rfl
  rcases condition_cases h with ⟨rfl, hnull, rfl⟩ | ⟨c, hc, hnull, rfl⟩
  · rw [Predicate.eval, hvalue]
    unfold compares
    rw [isNull_of_constant? hnull]
    rfl
  · have hoperand : op = .eq → operand.isNull = false := fun heq =>
      Bool.eq_false_iff.mpr fun htrue => hnull heq (constant?_of_isNull htrue)
    rw [Json.constant?_getD, Predicate.eval, hvalue, Expression.eval,
      Datum.ofLiteral_literal, compares_positive hc hoperand]

/-- The condition for a property says what its operator makes of the stored and the given value. -/
theorem says_predicate (lawful : db.Lawful) {op : Operator} {property : PropertyField}
    {entity field : String} {operand : Json} {p : Predicate} (hkeys : operand.KeysDistinct)
    (h : op.predicate property (.property entity field) operand.constant? = .ok p) :
    Predicate.Says db p entity
      fun n => op.compares db (db.graph.property n field) operand := by
  have hconstant : Expression.Constant (operand.constant?.getD (.literal .null)) := by
    rw [Json.constant?_getD]
    exact ⟨_, hkeys.literal, rfl⟩
  refine ⟨filtering_predicate hconstant h, fun env n hn _ => ?_⟩
  obtain ⟨base, hbase, rfl⟩ := predicate_eq_ok h
  have heval : base.eval db env
      = op.positive.compares db (db.graph.property n field) operand :=
    eval_condition hn hbase
  cases hneg : op.isNegated with
  | true =>
    rw [if_pos rfl, (Database.valuation lawful env).truth_not, heval]
    exact (compares_negated hneg _ _).symm
  | false =>
    have hpos : op.positive = op := by
      unfold isNegated at hneg
      simpa using hneg
    rw [if_neg Bool.false_ne_true, heval, hpos]

/-- The quantifier of an operator combines what is said of each related entity as the operator
does. -/
theorem truth_quantifier (op : Operator) (each : List Truth) :
    op.quantifier.truth each = op.combines each := by
  cases op with
  | _ => rfl

end Operator

-- ================================================================ filters

variable (db catalog) in
/-- What a value inside a filter stands for says what the value says. -/
structure Operand.Means (operand : Operand) (value : Json) : Prop where
  isNull : operand.isNull = value.isNull
  filter : ∀ {t entity p}, operand.filter t entity = .ok p →
    Predicate.Says db p entity (value.holds db catalog t)
  filters : ∀ {key t entity ps}, operand.filters key t entity = .ok ps →
    Predicate.AllSay db ps entity (value.alternatives db catalog t)

namespace Operand.Means

variable {operand : Operand} {value : Json} {entity : String} {p : Predicate}

/-- The condition on related entities says what the filter means by it. -/
theorem related (lawful : db.Lawful) (means : operand.Means db catalog value)
    {op : Operator} {r : RelationshipField}
    (h : operand.related catalog op r entity = .ok p) :
    Predicate.Says db p entity (Json.relatedHolds db catalog op r value
      (value.holds db catalog) (value.alternatives db catalog)) := by
  obtain ⟨target, q, inner, htarget, asks, rfl⟩ := related_eq_ok h
  clear h
  unfold Json.relatedHolds
  rw [htarget, ← means.isNull]
  dsimp only
  -- `null` asks whether there is a related node at all, and anything else for those that
  -- satisfy the filter
  cases asks with
  | absent hop hnull =>
    refine (Predicate.Says.quantified r.shape r.name target.name .none .always).congr fun n => ?_
    rw [if_pos ⟨hop, hnull⟩]
    show (Truth.any _).not = _
    rw [Truth.any_map_yes]
    cases (db.graph.reached r.shape target.name n).isEmpty with
    | true => rfl
    | false => rfl
  | present hop hnull =>
    refine (Predicate.Says.quantified r.shape r.name target.name .any .always).congr fun n => ?_
    rw [if_neg fun h => absurd (hop.symm.trans h.1) (by decide), if_pos ⟨hop, hnull⟩]
    exact Truth.any_map_yes _
  | oneOf hop hps =>
    have hinner := (means.filters hps).any lawful
    refine (Predicate.Says.quantified r.shape r.name target.name _ hinner).congr fun n => ?_
    have hne : op ≠ .eq ∧ op ≠ .neq := by
      rcases hop with rfl | rfl
      · decide
      · decide
    rw [if_neg fun h => hne.1 h.1, if_neg fun h => hne.2 h.1, Operator.truth_quantifier]
    simp only [if_pos hop]
  | each hop hnull hp =>
    have hinner := means.filter hp
    refine (Predicate.Says.quantified r.shape r.name target.name _ hinner).congr fun n => ?_
    rw [if_neg fun h => (hnull h.2).1 h.1, if_neg fun h => (hnull h.2).2 h.1,
      Operator.truth_quantifier]
    simp only [if_neg hop]

/-- The condition of an entry of a filter says what the filter means by it, whatever the entry
is about. -/
theorem entry (lawful : db.Lawful) (means : operand.Means db catalog value)
    (hkeys : value.KeysDistinct) {key : String} {t : EntityType}
    (h : operand.entry catalog key value t entity = .ok p) :
    Predicate.Says db p entity (Json.entryHolds db catalog key value
      (value.holds db catalog) (value.alternatives db catalog) t) := by
  unfold Json.entryHolds
  rcases entry_eq_ok h with ⟨rfl, ps, hps, rfl⟩ | ⟨hand, rfl, ps, hps, rfl⟩ |
    ⟨hand, hor, field, op, hresolve, hfield⟩
  · exact (means.filters hps).all lawful
  · exact (means.filters hps).any lawful
  · simp only [if_neg hand, if_neg hor, hresolve]
    rcases hfield with ⟨property, hproperty, h⟩ | ⟨hproperty, r, hr, h⟩
    · rw [hproperty]
      exact Operator.says_predicate lawful hkeys h
    · rw [hproperty, hr]
      exact means.related lawful h

/-- A value that is no filter and no list of filters stands for nothing. -/
theorem other (value : Json) : (Operand.other value).Means db catalog value where
  isNull := rfl
  filter h := by cases h
  filters h := by cases h

end Operand.Means

namespace Json

mutual

/-- Every operand means its value, by induction on the value. -/
theorem means_operand (lawful : db.Lawful) (value : Json) (hkeys : value.KeysDistinct) :
    (operand catalog value).Means db catalog value := by
  cases value with
  | null =>
    rw [operand]
    refine ⟨rfl, ?_, fun h => (by cases h)⟩
    intro t entity p h
    cases h
    exact .always
  | obj entries =>
    rw [KeysDistinct] at hkeys
    rw [operand]
    have hfilter : ∀ {t entity p}, Predicate.all <$> entryPredicates catalog entries t entity
        = .ok p → Predicate.Says db p entity ((Json.obj entries).holds db catalog t) := by
      intro t entity p h
      obtain ⟨ps, hps, rfl⟩ := map_eq_ok_iff.mp h
      exact (allSay_entryPredicates lawful entries hkeys.2 hps).all lawful
    refine ⟨rfl, hfilter, ?_⟩
    intro key t entity ps h
    obtain ⟨p, hp, rfl⟩ := map_eq_ok_iff.mp h
    exact .cons (hfilter hp) .nil
  | arr elems =>
    rw [KeysDistinct] at hkeys
    rw [operand]
    exact ⟨rfl, fun h => (by cases h), allSay_elemPredicates lawful elems hkeys⟩
  | _ =>
    rw [operand]
    · exact .other _
    all_goals intros; contradiction

/-- The conditions of the entries of a filter say what the entries mean. -/
theorem allSay_entryPredicates (lawful : db.Lawful) (entries : List (String × Json))
    (hkeys : MembersKeysDistinct entries) {t : EntityType} {entity : String}
    {ps : List Predicate} (h : entryPredicates catalog entries t entity = .ok ps) :
    Predicate.AllSay db ps entity (entriesHold db catalog entries t) := by
  match entries with
  | [] =>
    rw [entryPredicates] at h
    cases h
    exact .nil
  | (key, value) :: rest =>
    rw [entryPredicates] at h
    obtain ⟨first, hfirst, h⟩ := bind_eq_ok_iff.mp h
    obtain ⟨more, hmore, h⟩ := bind_eq_ok_iff.mp h
    cases h
    have hvalue : (operand catalog value).Means db catalog value :=
      means_operand lawful value hkeys.1
    exact .cons (hvalue.entry lawful hkeys.1 hfirst)
      (allSay_entryPredicates lawful rest hkeys.2 hmore)

/-- The conditions of the filters in a list say what these mean. -/
theorem allSay_elemPredicates (lawful : db.Lawful) (elems : List Json)
    (hkeys : ElemsKeysDistinct elems) {t : EntityType} {entity : String}
    {ps : List Predicate} (h : elemPredicates catalog elems t entity = .ok ps) :
    Predicate.AllSay db ps entity (elemsHold db catalog elems t) := by
  match elems with
  | [] =>
    rw [elemPredicates] at h
    cases h
    exact .nil
  | value :: rest =>
    rw [elemPredicates] at h
    obtain ⟨first, hfirst, h⟩ := bind_eq_ok_iff.mp h
    obtain ⟨more, hmore, h⟩ := bind_eq_ok_iff.mp h
    cases h
    have hvalue : (operand catalog value).Means db catalog value :=
      means_operand lawful value hkeys.1
    exact .cons (hvalue.filter hfirst) (allSay_elemPredicates lawful rest hkeys.2 hmore)

end

/-- The condition of a filter has the truth that the filter itself has at the
node, in every environment in which the names that it may bind are free. -/
theorem eval_filterPredicate (lawful : db.Lawful) {filter : Json} {t : EntityType}
    {entity : String} {p : Predicate} (hkeys : filter.KeysDistinct)
    (h : filter.filterPredicate catalog t entity = .ok p) {env : Environment} {n : Nat}
    (hn : env entity = some (.node n)) (hfresh : env.FreshBelow entity) :
    p.eval db env = filter.holds db catalog t n :=
  ((means_operand lawful filter hkeys).filter h).2 env n hn hfresh

/-- A movie from 1999 on, in which exactly one actor is born before 1965. -/
def movieFilter : Json :=
  .obj [("released_gte", .int 1999), ("actors_single", .obj [("born_lt", .int 1965)])]

/-- The condition of that filter holds of the movie in the graph. -/
theorem eval_movieFilter :
    Graph.movies.integerDatabase.Lawful ∧ movieFilter.KeysDistinct
      ∧ ∃ p, movieFilter.filterPredicate .movies .movie "movie" = .ok p
        ∧ p.eval Graph.movies.integerDatabase (Environment.unbound.bind "movie" (.node 0))
          = .yes := by
  have hlawful := Graph.lawful_integerDatabase Graph.movies
  have hkeys : movieFilter.KeysDistinct :=
    ⟨by decide, trivial, ⟨by decide, trivial, trivial⟩, trivial⟩
  obtain ⟨p, hp⟩ : ∃ p, movieFilter.filterPredicate .movies .movie "movie" = .ok p :=
    ⟨_, rfl⟩
  refine ⟨hlawful, hkeys, p, hp, ?_⟩
  rw [eval_filterPredicate hlawful hkeys hp (Environment.bind_self _ _ _)
    (Environment.freshBelow_bind_unbound _ _)]
  rfl

end Json

end PropertyGraphQL
