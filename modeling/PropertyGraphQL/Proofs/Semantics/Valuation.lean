/-
The simplifying connectives under three-valued truth.

A valuation gives every predicate a truth and respects its outermost
constructor. Dropping units, absorbing and turning a comparison into its
opposite keep the truth under every valuation. Dropping a repeated
operand keeps it where predicates that are the same have the same truth,
so the laws ask for that of the operands, and those about lists of a
family of predicates that holds all operands and is closed under the
connective. Where it is so of all predicates, the laws hold without
exception (`truth_simplified`).
-/
import PropertyGraphQL.Proofs.Semantics.Truth
import PropertyGraphQL.Cypher.Predicate

namespace PropertyGraphQL.Cypher

/-- A truth for every predicate that agrees with the connectives and with
the pairs of opposites. -/
structure Valuation (v : Predicate → Truth) : Prop where
  always : v .always = .yes
  never : v .never = .no
  conj : ∀ p q, v (.conj p q) = (v p).and (v q)
  disj : ∀ p q, v (.disj p q) = (v p).or (v q)
  neg : ∀ p, v (.neg p) = (v p).not
  neq : ∀ a b, v (.compare .neq a b) = (v (.compare .eq a b)).not
  isNotNull : ∀ e, v (.isNotNull e) = (v (.isNull e)).not
  none : ∀ x e p, v (.quantified .none x e p) = (v (.quantified .any x e p)).not

namespace Valuation

variable {v : Predicate → Truth}

-- ====================================================== two operands

/-- The simplified conjunction is as true as the conjunction. -/
theorem truth_and (hv : Valuation v) {p q : Predicate}
    (hpq : p.same q = true → v p = v q) :
    v (p.and q) = (v p).and (v q) := by
  unfold Predicate.and
  split
  · rw [hv.never, Truth.no_and]
  · rw [hv.never, Truth.and_no]
  · rw [hv.always, Truth.yes_and]
  · rw [hv.always, Truth.and_yes]
  · split
    · next hs => rw [← hpq hs, Truth.and_self]
    · exact hv.conj p q

/-- The simplified disjunction is as true as the disjunction. -/
theorem truth_or (hv : Valuation v) {p q : Predicate}
    (hpq : p.same q = true → v p = v q) :
    v (p.or q) = (v p).or (v q) := by
  unfold Predicate.or
  split
  · rw [hv.always, Truth.yes_or]
  · rw [hv.always, Truth.or_yes]
  · rw [hv.never, Truth.no_or]
  · rw [hv.never, Truth.or_no]
  · split
    · next hs => rw [← hpq hs, Truth.or_self]
    · exact hv.disj p q

/-- The simplified negation is as true as the negation. -/
theorem truth_not (hv : Valuation v) (p : Predicate) : v p.not = (v p).not := by
  unfold Predicate.not
  split
  · rw [hv.never, hv.always]; rfl
  · rw [hv.never, hv.always]; rfl
  · exact hv.neq _ _
  · rw [hv.neq, Truth.not_not]
  · exact hv.isNotNull _
  · rw [hv.isNotNull, Truth.not_not]
  · exact hv.none _ _ _
  · rw [hv.none, Truth.not_not]
  · rw [hv.neg, Truth.not_not]
  · exact hv.neg _

-- ============================================================== lists

/-- Predicates that stay in a family `S` when they are combined, and in
which those that are the same have the same truth. -/
structure Family (v : Predicate → Truth) (S : Predicate → Prop) : Prop where
  always : S .always
  never : S .never
  and : ∀ {p q}, S p → S q → S (p.and q)
  or : ∀ {p q}, S p → S q → S (p.or q)
  same : ∀ {p q}, S p → S q → p.same q = true → v p = v q

variable {S : Predicate → Prop} {ps : List Predicate}

/-- Combining from the left gives the truth of the list behind that of the
predicate it starts with. -/
theorem truth_foldl_and (hv : Valuation v) (hS : Family v S) {acc : Predicate}
    (hacc : S acc) (hps : ∀ p ∈ ps, S p) :
    v (ps.foldl Predicate.and acc) = (v acc).and (Truth.all (ps.map v)) := by
  induction ps generalizing acc with
  | nil => exact (Truth.and_yes _).symm
  | cons p rest ih =>
    have hp := hps p List.mem_cons_self
    have hrest : ∀ q ∈ rest, S q := fun q hq => hps q (List.mem_cons_of_mem p hq)
    rw [List.foldl_cons, ih (hS.and hacc hp) hrest, hv.truth_and (hS.same hacc hp),
      Truth.and_assoc]
    rfl

/-- A disjunction of many, added one by one, is as true as any of them. -/
theorem truth_foldl_or (hv : Valuation v) (hS : Family v S) {acc : Predicate}
    (hacc : S acc) (hps : ∀ p ∈ ps, S p) :
    v (ps.foldl Predicate.or acc) = (v acc).or (Truth.any (ps.map v)) := by
  induction ps generalizing acc with
  | nil => exact (Truth.or_no _).symm
  | cons p rest ih =>
    have hp := hps p List.mem_cons_self
    have hrest : ∀ q ∈ rest, S q := fun q hq => hps q (List.mem_cons_of_mem p hq)
    rw [List.foldl_cons, ih (hS.or hacc hp) hrest, hv.truth_or (hS.same hacc hp),
      Truth.or_assoc]
    rfl

/-- The simplified conjunction of many is as true as all of them. -/
theorem truth_all (hv : Valuation v) (hS : Family v S) (hps : ∀ p ∈ ps, S p) :
    v (.all ps) = Truth.all (ps.map v) := by
  have h := hv.truth_foldl_and hS hS.always hps
  rw [hv.always, Truth.yes_and] at h
  exact h

/-- The simplified disjunction of many is as true as any of them. -/
theorem truth_any (hv : Valuation v) (hS : Family v S) (hps : ∀ p ∈ ps, S p) :
    v (.any ps) = Truth.any (ps.map v) := by
  have h := hv.truth_foldl_or hS hS.never hps
  rw [hv.never, Truth.no_or] at h
  exact h

/-- Where predicates that are the same have the same truth, all of them are a family. -/
theorem family_of_same (hsame : ∀ p q : Predicate, p.same q = true → v p = v q) :
    Family v fun _ => True :=
  ⟨trivial, trivial, fun _ _ => trivial, fun _ _ => trivial, fun _ _ => hsame _ _⟩

/-- **Simplifying keeps the truth.** Let a valuation give predicates that are the same the same
truth. Then the simplifying connectives have the truth that their operands have in Kleene's
logic: of two predicates, of one negated, and of a list. -/
theorem truth_simplified (hv : Valuation v)
    (hsame : ∀ p q : Predicate, p.same q = true → v p = v q) (p q : Predicate)
    (ps : List Predicate) :
    v (p.and q) = (v p).and (v q) ∧ v (p.or q) = (v p).or (v q) ∧ v p.not = (v p).not
      ∧ v (.all ps) = Truth.all (ps.map v) ∧ v (.any ps) = Truth.any (ps.map v) := by
  have hfamily := family_of_same hsame
  have hall : ∀ p ∈ ps, True := fun _ _ => trivial
  exact ⟨hv.truth_and (hsame p q), hv.truth_or (hsame p q), hv.truth_not p,
    hv.truth_all hfamily hall, hv.truth_any hfamily hall⟩

end Valuation

-- ============================================================= an instance

/-- The truth of a predicate where every value is missing: no comparison is decided, and
neither is a quantifier, whose list is missing. -/
def Predicate.truthOfMissing : Predicate → Truth
  | .always => .yes
  | .never => .no
  | .compare .. => .unknown
  | .isNull _ => .yes
  | .isNotNull _ => .no
  | .quantified .. => .unknown
  | .conj p q => p.truthOfMissing.and q.truthOfMissing
  | .disj p q => p.truthOfMissing.or q.truthOfMissing
  | .neg p => p.truthOfMissing.not

/-- Where every comparison is unknown, predicates still have a truth. -/
theorem Predicate.valuation_truthOfMissing : Valuation Predicate.truthOfMissing where
  always := rfl
  never := rfl
  conj _ _ := rfl
  disj _ _ := rfl
  neg _ := rfl
  neq _ _ := rfl
  isNotNull _ := rfl
  none _ _ _ := rfl

/-- It looks at no value, so it does not tell constants apart. -/
theorem Predicate.truthOfMissing_eq_of_same {p q : Predicate} (h : p.same q = true) :
    p.truthOfMissing = q.truthOfMissing := by
  fun_induction Predicate.truthOfMissing p generalizing q with
  | case7 p p' ih ih' =>
    cases q with
    | conj q q' =>
      rw [Predicate.same, Bool.and_eq_true] at h
      rw [ih h.1, ih' h.2, Predicate.truthOfMissing]
    | _ => simp only [Predicate.same, Bool.false_eq_true] at h
  | case8 p p' ih ih' =>
    cases q with
    | disj q q' =>
      rw [Predicate.same, Bool.and_eq_true] at h
      rw [ih h.1, ih' h.2, Predicate.truthOfMissing]
    | _ => simp only [Predicate.same, Bool.false_eq_true] at h
  | case9 p ih =>
    cases q with
    | neg q =>
      rw [Predicate.same] at h
      rw [ih h, Predicate.truthOfMissing]
    | _ => simp only [Predicate.same, Bool.false_eq_true] at h
  | _ =>
    -- nothing inside: the other predicate has the same constructor
    cases q with
    | conj | disj | neg => simp only [Predicate.same, Bool.false_eq_true] at h
    | _ => first | rfl | simp only [Predicate.same, Bool.false_eq_true] at h

/-- Born before a year or not: of someone whose year of birth is missing, this is unknown, and
so it is behind simplification. A repeated condition is dropped, and an undecided one is
absorbed. -/
theorem Valuation.truth_simplified_missing :
    let v := Predicate.truthOfMissing
    let before : Predicate := .compare .lt (.property "person" "born") (.literal (.int 1964))
    let others : List Predicate := [before, before, .not (.isNull (.property "person" "born"))]
    Valuation v ∧ (∀ p q : Predicate, p.same q = true → v p = v q)
      ∧ v (before.or before.not) = .unknown ∧ v (before.and before.not) = .unknown
      ∧ v before.not = .unknown ∧ v (.all others) = .no ∧ v (.any others) = .unknown := by
  intro v before others
  have hv : Valuation v := Predicate.valuation_truthOfMissing
  have hsame (p q : Predicate) (h : p.same q = true) : v p = v q :=
    Predicate.truthOfMissing_eq_of_same h
  obtain ⟨hand, hor, hnot, hall, hany⟩ := hv.truth_simplified hsame before before.not others
  exact ⟨hv, hsame, hor, hand, hnot, hall, hany⟩

end PropertyGraphQL.Cypher
