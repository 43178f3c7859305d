/-
The form of the conditions on an entity.

A condition on an entity compares its properties, or quantifies over what
a relationship of it leads to: there it binds a variable made from that of
the entity, and goes on with a condition on that variable (`Filtering`).
Whatever a filter is, and on whatever type it is read, its condition has
this form, and compares with constants (`filtering_filterPredicate`).
-/
import PropertyGraphQL.Compile.Filter
import PropertyGraphQL.Proofs.Compile.Success

namespace PropertyGraphQL

open Cypher

variable {catalog : Catalog}

-- ================================================================ form

/-- The list of the entities with a label that relationships of a shape lead
to from another. -/
def RelationshipShape.related (shape : RelationshipShape) (entity item label : String) :
    Expression :=
  .patternComprehension (shape.pattern entity item label) .always (.var item)

/-- The conditions on the entity of a variable that compare its properties
with expressions of which `R` holds. -/
inductive Cypher.Predicate.Filtering (R : Expression → Prop) :
    (entity : String) → Predicate → Prop where
  | always {entity : String} : Filtering R entity .always
  | never {entity : String} : Filtering R entity .never
  | compare {entity key : String} {c : Comparison} {rhs : Expression} (compared : R rhs) :
      Filtering R entity (.compare c (.property entity key) rhs)
  | isNull {entity key : String} : Filtering R entity (.isNull (.property entity key))
  | isNotNull {entity key : String} : Filtering R entity (.isNotNull (.property entity key))
  | quantified {entity name label : String} {q : Quantifier} {shape : RelationshipShape}
      {p : Predicate} (inner : Filtering R (entity ++ "_" ++ name) p) :
      Filtering R entity (.quantified q (entity ++ "_" ++ name)
        (shape.related entity (entity ++ "_" ++ name) label) p)
  | conj {entity : String} {p q : Predicate} (lhs : Filtering R entity p)
      (rhs : Filtering R entity q) : Filtering R entity (.conj p q)
  | disj {entity : String} {p q : Predicate} (lhs : Filtering R entity p)
      (rhs : Filtering R entity q) : Filtering R entity (.disj p q)
  | neg {entity : String} {p : Predicate} (inner : Filtering R entity p) :
      Filtering R entity (.neg p)

namespace Cypher.Predicate.Filtering

variable {R : Expression → Prop} {entity : String} {p q : Predicate} {ps : List Predicate}

/-- Conditions on an entity are closed under conjunction. -/
theorem and (hp : p.Filtering R entity) (hq : q.Filtering R entity) :
    (p.and q).Filtering R entity := by
  unfold Predicate.and
  split
  · exact .never
  · exact .never
  · exact hq
  · exact hp
  · split
    · exact hp
    · exact .conj hp hq

/-- Conditions on an entity are closed under disjunction. -/
theorem or (hp : p.Filtering R entity) (hq : q.Filtering R entity) :
    (p.or q).Filtering R entity := by
  unfold Predicate.or
  split
  · exact .always
  · exact .always
  · exact hq
  · exact hp
  · split
    · exact hp
    · exact .disj hp hq

/-- Conditions on an entity are closed under negation. -/
theorem not (hp : p.Filtering R entity) : p.not.Filtering R entity := by
  cases hp with
  | always => exact .never
  | never => exact .always
  | @compare _ _ c _ compared =>
    cases c with
    | eq | neq => exact .compare compared
    | _ => exact .neg (.compare compared)
  | isNull => exact .isNotNull
  | isNotNull => exact .isNull
  | @quantified _ _ _ q _ _ inner =>
    cases q with
    | any | none => exact .quantified inner
    | _ => exact .neg (.quantified inner)
  | conj lhs rhs => exact .neg (.conj lhs rhs)
  | disj lhs rhs => exact .neg (.disj lhs rhs)
  | neg inner => exact inner

/-- Conditions that are joined one by one are a condition on the entity. -/
theorem foldl_and {acc : Predicate} (hacc : acc.Filtering R entity)
    (hps : ∀ p ∈ ps, p.Filtering R entity) :
    (ps.foldl Predicate.and acc).Filtering R entity := by
  induction ps generalizing acc with
  | nil => exact hacc
  | cons p rest ih =>
    have hp := hps p List.mem_cons_self
    exact ih (hacc.and hp) fun q hq => hps q (List.mem_cons_of_mem p hq)

/-- Alternatives that are joined one by one are a condition on the entity. -/
theorem foldl_or {acc : Predicate} (hacc : acc.Filtering R entity)
    (hps : ∀ p ∈ ps, p.Filtering R entity) :
    (ps.foldl Predicate.or acc).Filtering R entity := by
  induction ps generalizing acc with
  | nil => exact hacc
  | cons p rest ih =>
    have hp := hps p List.mem_cons_self
    exact ih (hacc.or hp) fun q hq => hps q (List.mem_cons_of_mem p hq)

theorem all (hps : ∀ p ∈ ps, p.Filtering R entity) : (Predicate.all ps).Filtering R entity :=
  foldl_and .always hps

theorem any (hps : ∀ p ∈ ps, p.Filtering R entity) : (Predicate.any ps).Filtering R entity :=
  foldl_or .never hps

end Cypher.Predicate.Filtering

-- ============================================================ inversion

/-- The constant that a property is compared with, if it is not null. -/
def Json.constant? (value : Json) : Option Expression :=
  if value.isNull then none else some (.literal value.literal)

/-- A value is written as its literal, null included. -/
theorem Json.constant?_getD (value : Json) :
    value.constant?.getD (.literal .null) = .literal value.literal := by
  cases value with
  | null => rfl
  | _ => rfl

namespace Operator

/-- The condition of an operator is that of its positive one, or the
negation of that. -/
theorem predicate_eq_ok {op : Operator} {property : PropertyField} {lhs : Expression}
    {rhs : Option Expression} {p : Predicate} (h : op.predicate property lhs rhs = .ok p) :
    ∃ base, op.positive.condition? lhs rhs = Option.some base
      ∧ p = if op.isNegated then base.not else base := by
  unfold Operator.predicate at h
  split at h
  · cases h
  · split at h
    · cases h
    · next base hbase =>
      cases h
      exact ⟨base, hbase, rfl⟩

/-- A positive operator asks whether there is a value, or makes its
comparison. -/
theorem condition_cases {op : Operator} {lhs : Expression} {rhs : Option Expression}
    {base : Predicate} (h : op.condition? lhs rhs = Option.some base) :
    (op = .eq ∧ rhs = Option.none ∧ base = .isNull lhs)
      ∨ ∃ c, op.comparison? = Option.some c ∧ (op = .eq → rhs ≠ Option.none)
        ∧ base = .compare c lhs (rhs.getD (.literal .null)) := by
  unfold condition? at h
  split at h
  · left
    cases h
    exact ⟨rfl, rfl, rfl⟩
  · next hne =>
    right
    obtain ⟨c, hc, rfl⟩ := Option.map_eq_some_iff.mp h
    exact ⟨c, hc, hne, rfl⟩

end Operator

namespace Operand

variable {operand : Operand} {entity : String} {p : Predicate}

/-- What an operator asks of each entity that a relationship leads to, and of
how many of them: what its operand stands for, except that equality with
null asks nothing. -/
inductive Asks (operand : Operand) (op : Operator) (r : RelationshipField)
    (target : EntityType) (item : String) : Quantifier → Predicate → Prop where
  | absent (hop : op = .eq) (hnull : operand.isNull = true) :
      Asks operand op r target item .none .always
  | present (hop : op = .neq) (hnull : operand.isNull = true) :
      Asks operand op r target item .any .always
  | oneOf {alternatives : List Predicate} (hop : op = .oneOf ∨ op = .notOneOf)
      (h : operand.filters (op.argumentName r.name) target item = .ok alternatives) :
      Asks operand op r target item op.quantifier (.any alternatives)
  | each {inner : Predicate} (hop : ¬(op = .oneOf ∨ op = .notOneOf))
      (hnull : operand.isNull = true → op ≠ .eq ∧ op ≠ .neq)
      (h : operand.filter target item = .ok inner) :
      Asks operand op r target item op.quantifier inner

/-- The condition on what a relationship leads to is a quantifier over all of
it. -/
theorem related_eq_ok {op : Operator} {r : RelationshipField}
    (h : operand.related catalog op r entity = .ok p) :
    ∃ target q inner, catalog.type? r.shape.targetType = some target
      ∧ operand.Asks op r target (entity ++ "_" ++ r.name) q inner
      ∧ p = .quantified q (entity ++ "_" ++ r.name)
          (r.shape.related entity (entity ++ "_" ++ r.name) target.name) inner := by
  unfold Operand.related at h
  cases htarget : catalog.type? r.shape.targetType with
  | none =>
    rw [htarget] at h
    cases h
  | some target =>
    rw [htarget] at h
    dsimp only at h
    split at h
    · cases h
    · refine ⟨target, ?_⟩
      cases hnull : operand.isNull with
      | true =>
        rw [hnull] at h
        cases op with
        | eq =>
          cases h
          exact ⟨_, _, rfl, .absent rfl hnull, rfl⟩
        | neq =>
          cases h
          exact ⟨_, _, rfl, .present rfl hnull, rfl⟩
        | oneOf | notOneOf =>
          obtain ⟨alternatives, halternatives, h⟩ := bind_eq_ok_iff.mp h
          cases h
          exact ⟨_, _, rfl, .oneOf (by decide) halternatives, rfl⟩
        | _ =>
          obtain ⟨inner, hinner, h⟩ := bind_eq_ok_iff.mp h
          cases h
          exact ⟨_, _, rfl, .each (by decide) (fun _ => by decide) hinner, rfl⟩
      | false =>
        have hnever {P : Prop} : operand.isNull = true → P := by
          intro h
          rw [hnull] at h
          cases h
        rw [hnull] at h
        cases op with
        | oneOf | notOneOf =>
          obtain ⟨alternatives, halternatives, h⟩ := bind_eq_ok_iff.mp h
          cases h
          exact ⟨_, _, rfl, .oneOf (by decide) halternatives, rfl⟩
        | _ =>
          obtain ⟨inner, hinner, h⟩ := bind_eq_ok_iff.mp h
          cases h
          exact ⟨_, _, rfl, .each (by decide) hnever hinner, rfl⟩

/-- An entry combines filters, or is named after a property or a
relationship. -/
theorem entry_eq_ok {key : String} {value : Json} {t : EntityType}
    (h : operand.entry catalog key value t entity = .ok p) :
    (key = "AND" ∧ ∃ ps, operand.filters key t entity = .ok ps ∧ p = .all ps)
      ∨ (key ≠ "AND" ∧ key = "OR" ∧ ∃ ps, operand.filters key t entity = .ok ps ∧ p = .any ps)
      ∨ (key ≠ "AND" ∧ key ≠ "OR"
        ∧ ∃ field op, Operator.resolve t.hasField key = (field, op)
          ∧ ((∃ property, t.property? field = some property
              ∧ op.predicate property (.property entity field) value.constant? = .ok p)
            ∨ (t.property? field = none ∧ ∃ r, t.relationship? field = some r
              ∧ operand.related catalog op r entity = .ok p))) := by
  unfold Operand.entry at h
  split at h
  · next hand =>
    obtain ⟨ps, hps, rfl⟩ := map_eq_ok_iff.mp h
    exact .inl ⟨hand, ps, hps, rfl⟩
  · next hand =>
    split at h
    · next hor =>
      obtain ⟨ps, hps, rfl⟩ := map_eq_ok_iff.mp h
      exact .inr (.inl ⟨hand, hor, ps, hps, rfl⟩)
    · next hor =>
      refine .inr (.inr ⟨hand, hor, _, _, rfl, ?_⟩)
      dsimp only at h
      -- a property of the name hides a relationship
      split at h
      · next property hproperty => exact .inl ⟨property, hproperty, h⟩
      · next hproperty =>
        split at h
        · next r hr => exact .inr ⟨hproperty, r, hr, h⟩
        · cases h

end Operand

-- ================================================== the form of conditions

/-- What an operator makes of a property is a condition on the entity. -/
theorem Operator.filtering_predicate {R : Expression → Prop} {op : Operator}
    {property : PropertyField} {entity field : String} {rhs : Option Expression}
    {p : Predicate} (compared : R (rhs.getD (.literal .null)))
    (h : op.predicate property (.property entity field) rhs = .ok p) :
    p.Filtering R entity := by
  obtain ⟨base, hbase, rfl⟩ := predicate_eq_ok h
  have hform : base.Filtering R entity := by
    rcases condition_cases hbase with ⟨-, -, rfl⟩ | ⟨c, -, -, rfl⟩
    · exact .isNull
    · exact .compare compared
  split
  · exact hform.not
  · exact hform

/-- What a value inside a filter stands for has the form of conditions, on
any type and for any variable. -/
structure Operand.Filtering (R : Expression → Prop) (operand : Operand) : Prop where
  filter : ∀ {t entity p}, operand.filter t entity = .ok p → p.Filtering R entity
  filters : ∀ {key t entity ps}, operand.filters key t entity = .ok ps →
    ∀ p ∈ ps, p.Filtering R entity

namespace Operand.Filtering

variable {R : Expression → Prop} {operand : Operand} {entity : String} {p : Predicate}

/-- A condition on related entities is one on the entity, if its operand is one on them. -/
theorem related (ho : operand.Filtering R) {op : Operator} {r : RelationshipField}
    (h : operand.related catalog op r entity = .ok p) : p.Filtering R entity := by
  obtain ⟨target, q, inner, -, asks, rfl⟩ := related_eq_ok h
  clear h
  refine .quantified ?_
  cases asks with
  | absent | present => exact .always
  | oneOf _ hps => exact .any (ho.filters hps)
  | each _ _ hp => exact ho.filter hp

/-- Every entry of a filter gives a condition on the entity. -/
theorem entry (ho : operand.Filtering R) {key : String} {value : Json} {t : EntityType}
    (constant : R (.literal value.literal))
    (h : operand.entry catalog key value t entity = .ok p) : p.Filtering R entity := by
  rcases entry_eq_ok h with ⟨-, ps, hps, rfl⟩ | ⟨-, -, ps, hps, rfl⟩ |
    ⟨-, -, field, op, -, ⟨property, -, h⟩ | ⟨-, r, -, h⟩⟩
  · exact .all (ho.filters hps)
  · exact .any (ho.filters hps)
  · refine Operator.filtering_predicate ?_ h
    rw [Json.constant?_getD]
    exact constant
  · exact ho.related h

/-- A value that is no filter and no list of filters stands for nothing. -/
theorem other (value : Json) : (Operand.other value).Filtering R where
  filter h := by cases h
  filters h := by cases h

end Operand.Filtering

namespace Json

variable {R : Expression → Prop}

mutual

/-- Every operand gives conditions on the entity, by induction on the value. -/
theorem filtering_operand (constant : ∀ j : Json, R (.literal j.literal)) (value : Json) :
    (operand catalog value).Filtering R := by
  cases value with
  | null =>
    rw [operand]
    refine ⟨?_, fun h => (by cases h)⟩
    intro t entity p h
    cases h
    exact .always
  | obj entries =>
    rw [operand]
    -- an object is a filter by itself, and the only element where several are asked for
    have hfilter : ∀ {t entity p}, Predicate.all <$> entryPredicates catalog entries t entity
        = .ok p → p.Filtering R entity := by
      intro t entity p h
      obtain ⟨ps, hps, rfl⟩ := map_eq_ok_iff.mp h
      exact .all (filtering_entryPredicates constant entries hps)
    refine ⟨hfilter, ?_⟩
    intro key t entity ps h
    obtain ⟨p, hp, rfl⟩ := map_eq_ok_iff.mp h
    intro q hq
    rw [List.mem_singleton.mp hq]
    exact hfilter hp
  | arr elems =>
    rw [operand]
    exact ⟨fun h => (by cases h), filtering_elemPredicates constant elems⟩
  | _ =>
    rw [operand]
    · exact .other _
    all_goals intros; contradiction

/-- The entries of a filter give conditions on the entity. -/
theorem filtering_entryPredicates (constant : ∀ j : Json, R (.literal j.literal))
    (entries : List (String × Json)) {t : EntityType} {entity : String}
    {ps : List Predicate} (h : entryPredicates catalog entries t entity = .ok ps) :
    ∀ p ∈ ps, p.Filtering R entity := by
  match entries with
  | [] =>
    rw [entryPredicates] at h
    cases h
    exact List.forall_mem_nil _
  | (key, value) :: rest =>
    rw [entryPredicates] at h
    obtain ⟨first, hfirst, h⟩ := bind_eq_ok_iff.mp h
    obtain ⟨more, hmore, h⟩ := bind_eq_ok_iff.mp h
    cases h
    intro p hp
    rcases List.mem_cons.mp hp with rfl | hp
    · exact (filtering_operand constant value).entry (constant value) hfirst
    · exact filtering_entryPredicates constant rest hmore p hp

/-- The filters in a list give conditions on the entity. -/
theorem filtering_elemPredicates (constant : ∀ j : Json, R (.literal j.literal))
    (elems : List Json) {t : EntityType} {entity : String} {ps : List Predicate}
    (h : elemPredicates catalog elems t entity = .ok ps) :
    ∀ p ∈ ps, p.Filtering R entity := by
  match elems with
  | [] =>
    rw [elemPredicates] at h
    cases h
    exact List.forall_mem_nil _
  | value :: rest =>
    rw [elemPredicates] at h
    obtain ⟨first, hfirst, h⟩ := bind_eq_ok_iff.mp h
    obtain ⟨more, hmore, h⟩ := bind_eq_ok_iff.mp h
    cases h
    intro p hp
    rcases List.mem_cons.mp hp with rfl | hp
    · exact (filtering_operand constant value).filter hfirst
    · exact filtering_elemPredicates constant rest hmore p hp

end

/-- The condition of a filter is a condition on its entity and on entities
reached from that. -/
theorem filtering_filterPredicate (constant : ∀ j : Json, R (.literal j.literal))
    {filter : Json} {t : EntityType} {entity : String} {p : Predicate}
    (h : filter.filterPredicate catalog t entity = .ok p) : p.Filtering R entity :=
  (filtering_operand constant filter).filter h

end Json

end PropertyGraphQL
