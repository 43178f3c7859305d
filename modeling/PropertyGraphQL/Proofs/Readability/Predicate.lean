/-
Reading the text of a predicate.

Three readers take a predicate: one for a single operand, one for operands
joined by `AND`, and one for those joined by `OR`. What is put into
parentheses is a single operand again. So a predicate is read in each of the
places where it may stand (`ReadsPredicate`), with the parentheses that it
has there; and further operands behind it are joined to it (`Joins`), with
the grouping to the right that the loop gives.
-/
import PropertyGraphQL.Proofs.Readability.Pattern

namespace PropertyGraphQL.Cypher

-- ================================================================== chains

/-- What the reader reads behind the word is glued to what the lexemes are
read as. -/
def Joins (read : Readers → Reader Predicate) (word : String)
    (glue : Predicate → Predicate → Predicate) (lexemes : List Lexeme) (p : Predicate) : Prop :=
  ∀ n rest q after, (tokensOf lexemes ++ (plainTokens word ++ rest)).length ≤ n →
    read (readersBelow n) rest = some (q, after) →
    read (readersBelow n) (tokensOf lexemes ++ (plainTokens word ++ rest))
      = some (glue p q, after)

section

variable {one read : Readers → Reader Predicate} {texts : List String} {word : String}
  {join glue : Predicate → Predicate → Predicate} {a b : List Lexeme} {p q : Predicate}

/-- One operand by itself is all that is joined. -/
theorem ReadsWithin.last (h : ReadsWithin one texts a p) :
    ReadsWithin (fun r => chain (one r) word join) (word :: texts) a p := by
  intro n rest hrest hn
  exact chain_last (h n rest (hrest.mono (List.subset_cons_self _ _)) hn)
    (hrest.skip _ List.mem_cons_self)

/-- What is joined to one operand is glued to it. -/
theorem ReadsWithin.joins (h : ReadsWithin one texts a p) (hword : closes texts word = true)
    (hne : word ≠ "") (hglue : ∀ q, glue p q = join p q) :
    Joins (fun r => chain (one r) word join) word glue a p := by
  intro n rest q after hn hbehind
  have hone := h n _ (Ends.plain hword rest) hn
  have hlt : rest.length < (tokensOf a ++ (plainTokens word ++ rest)).length := by
    have hshort : rest.length < (plainTokens word ++ rest).length :=
      length_behind_plain (Nat.le_refl _) hne
    rw [List.length_append]
    omega
  rw [hglue]
  exact chain_cons hone (skip?_plain word rest) hlt hbehind

/-- Conditions that are joined on the left are read back with one more on the right. -/
theorem Joins.reads (ha : Joins read word glue a p) (hb : ReadsWithin read texts b q) :
    ReadsWithin read texts (a ++ .plain word :: b) (glue p q) := by
  intro n rest hrest hn
  rw [tokensOf_append, tokensOf_plain, List.append_assoc, List.append_assoc] at hn ⊢
  have hlength := length_behind (length_behind (Nat.lt_succ_of_le hn))
  exact ha n _ q rest hn (hb n rest hrest (Nat.le_of_lt_succ hlength))

/-- What is joined on both sides of a word is joined to the left. -/
theorem Joins.append (hassoc : ∀ p q r, glue (glue p q) r = glue p (glue q r))
    (ha : Joins read word glue a p) (hb : Joins read word glue b q) :
    Joins read word glue (a ++ .plain word :: b) (glue p q) := by
  intro n rest r after hn hbehind
  rw [tokensOf_append, tokensOf_plain, List.append_assoc, List.append_assoc] at hn ⊢
  have hlength := length_behind (length_behind (Nat.lt_succ_of_le hn))
  rw [hassoc]
  exact ha n _ _ after hn (hb n rest r after (Nat.le_of_lt_succ hlength) hbehind)

end

-- =============================================================== predicates

/-- What is no conjunction is joined as it stands. -/
theorem Predicate.conjoin_eq {p : Predicate} (h : p.looseInOr = false) (q : Predicate) :
    p.conjoin q = .conj p q := by
  cases p with
  | conj _ _ => cases h
  | _ => rfl

/-- What is no alternative is joined as it stands. -/
theorem Predicate.disjoin_eq {p : Predicate} (h : p.looseInAnd = false) (q : Predicate) :
    p.disjoin q = .disj p q := by
  cases p with
  | disj _ _ => cases h
  | _ => rfl

/-- Predicates for which a reader gives `q` and which are written like `p`, in
each of the places where they may stand. -/
structure ReadsPredicate (p q : Predicate) : Prop where
  conjunction : ReadsWithin Readers.conjunction afterConjunction
    (parenthesized p.looseInAnd p.lexemes) q
  joinsAnd : Joins Readers.conjunction " AND " .conjoin (parenthesized p.looseInAnd p.lexemes) q
  disjunction : ReadsWithin Readers.disjunction afterPredicate
    (parenthesized p.looseInOr p.lexemes) q
  joinsOr : Joins Readers.disjunction " OR " .disjoin (parenthesized p.looseInOr p.lexemes) q
  whole : ReadsWithin Readers.disjunction afterPredicate p.lexemes q

namespace ReadsPredicate

variable {a b p q : Predicate}

/-- Every condition is read back as a whole. -/
theorem reads (h : ReadsPredicate p q) :
    Reads Readers.predicate afterPredicate p.lexemes q := by
  intro n rest hrest hn
  cases n with
  | zero => exact absurd hn (Nat.not_lt_zero _)
  | succ n => exact h.whole n rest hrest (Nat.le_of_lt_succ hn)

/-- What is no conjunction and no disjunction needs no parentheses. -/
theorem of_operand (h : ReadsWithin Readers.operand afterOperand p.lexemes q)
    (hp : p.looseInAnd = false) (hp' : p.looseInOr = false)
    (hq : q.looseInAnd = false) (hq' : q.looseInOr = false) : ReadsPredicate p q := by
  have hconjunction : ReadsWithin Readers.conjunction afterConjunction p.lexemes q := h.last
  have hdisjunction : ReadsWithin Readers.disjunction afterPredicate p.lexemes q :=
    hconjunction.last
  have hand : Joins Readers.conjunction " AND " .conjoin p.lexemes q :=
    h.joins (by decide) (by decide) (Predicate.conjoin_eq hq')
  have hor : Joins Readers.disjunction " OR " .disjoin p.lexemes q :=
    hconjunction.joins (by decide) (by decide) (Predicate.disjoin_eq hq)
  constructor
  · rw [hp]
    exact hconjunction
  · rw [hp]
    exact hand
  · rw [hp']
    exact hdisjunction
  · rw [hp']
    exact hor
  · exact hdisjunction

/-- A predicate in parentheses is a single operand. -/
theorem group {lexemes : List Lexeme}
    (h : ReadsWithin Readers.disjunction afterPredicate lexemes q) :
    ReadsWithin Readers.operand afterOperand (.plain "(" :: lexemes ++ [.plain ")"]) q := by
  intro n rest _ hn
  rw [List.cons_append, tokensOf_plain, List.append_assoc, tokensOf_closed] at hn ⊢
  have hopening : Readers.opening? (plainTokens "(" ++ (tokensOf lexemes
      ++ (plainTokens ")" ++ rest)))
        = some (.group, tokensOf lexemes ++ (plainTokens ")" ++ rest)) := by
    have hnone : EndsName (plainTokens "(" ++ (tokensOf lexemes ++ (plainTokens ")" ++ rest))) :=
      Ends.endsName_plain (by decide) _
    unfold Readers.opening?
    rw [takeName_eq_nil hnone]
    show (skip? "(" (plainTokens "(" ++ _)).map _ = _
    rw [skip?_plain]
    rfl
  have hlength := length_behind_plain hn
  have hinner : (readersBelow n).predicate (tokensOf lexemes ++ (plainTokens ")" ++ rest))
      = some (q, plainTokens ")" ++ rest) := by
    cases n with
    | zero => exact absurd hlength (Nat.not_lt_zero _)
    | succ n => exact h n _ (Ends.plain (by decide) _) (Nat.le_of_lt_succ hlength)
  simp only [Readers.operand, hopening, hinner, skip?_plain, Option.bind_eq_bind,
    Option.bind_some]

/-- Operands of a conjunction stand side by side, and the whole of it in
parentheses in a disjunction. -/
theorem conj {a' b' : Predicate} (ha : ReadsPredicate a a') (hb : ReadsPredicate b b') :
    ReadsPredicate (.conj a b) (a'.conjoin b') := by
  have hconjunction : ReadsWithin Readers.conjunction afterConjunction
      (Predicate.lexemes (.conj a b)) (a'.conjoin b') := ha.joinsAnd.reads hb.conjunction
  have hjoins : Joins Readers.conjunction " AND " .conjoin (Predicate.lexemes (.conj a b))
      (a'.conjoin b') := ha.joinsAnd.append Predicate.conjoin_assoc hb.joinsAnd
  have hwhole : ReadsWithin Readers.disjunction afterPredicate (Predicate.lexemes (.conj a b))
      (a'.conjoin b') := hconjunction.last
  have hgroup : ReadsWithin Readers.conjunction afterConjunction
      (.plain "(" :: Predicate.lexemes (.conj a b) ++ [.plain ")"]) (a'.conjoin b') :=
    (group hwhole).last
  exact ⟨hconjunction, hjoins, hgroup.last,
    hgroup.joins (by decide) (by decide) (Predicate.disjoin_eq (Predicate.looseInAnd_conjoin _ _)),
    hwhole⟩

/-- Operands of a disjunction stand side by side, and the whole of it in
parentheses in a conjunction. -/
theorem disj {a' b' : Predicate} (ha : ReadsPredicate a a') (hb : ReadsPredicate b b') :
    ReadsPredicate (.disj a b) (a'.disjoin b') := by
  have hwhole : ReadsWithin Readers.disjunction afterPredicate (Predicate.lexemes (.disj a b))
      (a'.disjoin b') := ha.joinsOr.reads hb.disjunction
  have hjoins : Joins Readers.disjunction " OR " .disjoin (Predicate.lexemes (.disj a b))
      (a'.disjoin b') := ha.joinsOr.append Predicate.disjoin_assoc hb.joinsOr
  have hgroup := group hwhole
  exact ⟨hgroup.last,
    hgroup.joins (by decide) (by decide) (Predicate.conjoin_eq (Predicate.looseInOr_disjoin _ _)),
    hwhole, hjoins, hwhole⟩

end ReadsPredicate

-- ================================================================ relations

/-- Predicates that say something of an expression begin with it. -/
theorem operand_of_relation {lexemes : List Lexeme} {e : Expression} {p : Predicate}
    (he : ReadsUnsliced lexemes e)
    (hopening : ∀ rest, EndsName rest → Readers.opening? (tokensOf lexemes ++ rest) = none)
    {n : Nat} {rest after : List Token} (hrest : Ends afterExpression rest)
    (hn : (tokensOf lexemes ++ rest).length ≤ n)
    (hrelation : (readersBelow n).relation e rest = some (p, after)) :
    (readersBelow n).operand (tokensOf lexemes ++ rest) = some (p, after) := by
  have hsliced := he.sliced n rest hrest hn
  simp only [Readers.operand, hopening rest hrest.name, hsliced, Option.bind_some, hrelation]

/-- The operator of a comparison stands between spaces. -/
theorem plainTokens_operatorText (c : Comparison) (ts : List Token) :
    plainTokens " " ++ (plainTokens c.text ++ (plainTokens " " ++ ts))
      = plainTokens (Readers.operatorText c) ++ ts := by
  cases c <;> rfl

/-- The operator of a comparison is read back. -/
theorem comparison?_operatorText (c : Comparison) (ts : List Token) :
    Readers.comparison? (plainTokens (Readers.operatorText c) ++ ts) = some (c, ts) := by
  have hother : ∀ d, d ≠ c → skip? (Readers.operatorText d)
      (plainTokens (Readers.operatorText c) ++ ts) = none := by
    intro d hd
    refine skip?_eq_none ?_ ts
    cases c <;> cases d <;> first | rfl | exact absurd rfl hd
  have hself := skip?_plain (Readers.operatorText c) ts
  have hall : ∀ cs : List Comparison, c ∈ cs →
      cs.findSome? (fun d => (skip? (Readers.operatorText d)
        (plainTokens (Readers.operatorText c) ++ ts)).map fun rest => (d, rest))
          = some (c, ts) := by
    intro cs hc
    induction cs with
    | nil => cases hc
    | cons d cs ih =>
      rw [List.findSome?_cons]
      by_cases hd : d = c
      · rw [hd, hself]
        rfl
      · rw [hother d hd]
        exact ih ((List.mem_cons.mp hc).resolve_left (Ne.symm hd))
  exact hall Readers.comparisons (by cases c <;> decide)

section

variable {lhs rhs : List Lexeme} {a b : Expression}

/-- A comparison is read back if its sides are. -/
theorem reads_compare (c : Comparison) (ha : ReadsUnsliced lhs a)
    (hopening : ∀ rest, EndsName rest → Readers.opening? (tokensOf lhs ++ rest) = none)
    (hb : ReadsUnsliced rhs b) :
    ReadsWithin Readers.operand afterOperand
      (lhs ++ .plain " " :: .plain c.text :: .plain " " :: rhs) (.compare c a b) := by
  intro n rest hrest hn
  rw [tokensOf_append, tokensOf_plain, tokensOf_plain, tokensOf_plain, List.append_assoc,
    List.append_assoc, List.append_assoc, List.append_assoc, plainTokens_operatorText] at hn ⊢
  have hlength := length_behind (length_behind (Nat.lt_succ_of_le hn))
  have hends : Ends afterExpression (plainTokens (Readers.operatorText c)
      ++ (tokensOf rhs ++ rest)) := by
    cases c <;> exact Ends.plain (by decide) _
  have hnull : skip? " IS NULL" (plainTokens (Readers.operatorText c)
      ++ (tokensOf rhs ++ rest)) = none := by
    cases c <;> exact skip?_eq_none (by decide) _
  have hnotNull : skip? " IS NOT NULL" (plainTokens (Readers.operatorText c)
      ++ (tokensOf rhs ++ rest)) = none := by
    cases c <;> exact skip?_eq_none (by decide) _
  have hoperator : Readers.operatorText c ≠ "" := by cases c <;> decide
  have hshort := length_behind_plain (Nat.le_of_lt_succ (length_behind (Nat.lt_succ_of_le hn)))
    hoperator
  have hother := hb.reads n rest (hrest.mono (by decide)) hshort
  refine operand_of_relation ha hopening hends hn ?_
  simp only [Readers.relation, hnull, hnotNull, comparison?_operatorText, hother,
    Option.map_some]

/-- A test for null is read back if its subject is. -/
theorem reads_isNull (ha : ReadsUnsliced lhs a)
    (hopening : ∀ rest, EndsName rest → Readers.opening? (tokensOf lhs ++ rest) = none) :
    ReadsWithin Readers.operand afterOperand (lhs ++ [.plain " IS NULL"]) (.isNull a) := by
  intro n rest _ hn
  rw [tokensOf_closed] at hn ⊢
  refine operand_of_relation ha hopening (Ends.plain (by decide) _) hn ?_
  simp only [Readers.relation, skip?_plain]

/-- A test for a value is read back if its subject is. -/
theorem reads_isNotNull (ha : ReadsUnsliced lhs a)
    (hopening : ∀ rest, EndsName rest → Readers.opening? (tokensOf lhs ++ rest) = none) :
    ReadsWithin Readers.operand afterOperand (lhs ++ [.plain " IS NOT NULL"])
      (.isNotNull a) := by
  intro n rest _ hn
  rw [tokensOf_closed] at hn ⊢
  have hnull := skip?_eq_none (t := " IS NULL") (s := " IS NOT NULL") (by decide) rest
  refine operand_of_relation ha hopening (Ends.plain (by decide) _) hn ?_
  simp only [Readers.relation, hnull, skip?_plain]

/-- An expression of which nothing is said is a truth value. -/
theorem reads_truth {p : Predicate} (ha : ReadsUnsliced lhs a)
    (hopening : ∀ rest, EndsName rest → Readers.opening? (tokensOf lhs ++ rest) = none)
    (hp : Readers.truth? a = some p) :
    ReadsWithin Readers.operand afterOperand lhs p := by
  intro n rest hrest hn
  have hnull : skip? " IS NULL" rest = none := hrest.skip _ (by decide)
  have hnotNull : skip? " IS NOT NULL" rest = none := hrest.skip _ (by decide)
  have hcomparison : Readers.comparison? rest = none := by
    unfold Readers.comparison?
    rw [List.findSome?_eq_none_iff]
    intro c hc
    have hmem : Readers.operatorText c ∈ afterOperand := by cases c <;> decide
    rw [hrest.skip _ hmem]
    rfl
  refine operand_of_relation ha hopening (hrest.mono (by decide)) hn ?_
  simp only [Readers.relation, hnull, hnotNull, hcomparison, hp, Option.map_some]

end

/-- A negation is read back if what is negated is. -/
theorem reads_negation {lexemes : List Lexeme} {p : Predicate}
    (h : Reads Readers.predicate afterPredicate lexemes p) :
    ReadsWithin Readers.operand afterOperand (.plain "NOT (" :: lexemes ++ [.plain ")"])
      (.neg p) := by
  intro n rest _ hn
  have hnot : plainTokens "NOT (" = plainTokens "NOT" ++ plainTokens " (" := rfl
  rw [List.cons_append, tokensOf_plain, List.append_assoc, tokensOf_closed, hnot,
    List.append_assoc] at hn ⊢
  have hopening : Readers.opening? (plainTokens "NOT" ++ (plainTokens " (" ++ (tokensOf lexemes
      ++ (plainTokens ")" ++ rest))))
        = some (.negation, tokensOf lexemes ++ (plainTokens ")" ++ rest)) := by
    have hname : PlainName "NOT" := by decide
    have htake := takeName_plain hname
      (Ends.endsName_plain (t := " (") (by decide) (tokensOf lexemes ++ (plainTokens ")" ++ rest)))
    unfold Readers.opening?
    rw [htake]
    show (skip? " (" (plainTokens " (" ++ _)).map _ = _
    rw [skip?_plain]
    rfl
  have hinner := h n _ (Ends.plain (by decide) _) (length_behind (length_behind_plain hn))
  simp only [Readers.operand, hopening, hinner, skip?_plain, Option.bind_eq_bind,
    Option.bind_some]

/-- A quantifier is read back with its variable. -/
theorem opening?_quantifier (q : Quantifier) (binder : String) (ts : List Token) :
    Readers.opening? (plainTokens q.text ++ (plainTokens "(" ++ .identifier binder
        :: (plainTokens " IN " ++ ts)))
      = some (.quantifier q binder, ts) := by
  have hbinding : binding? (.identifier binder :: (plainTokens " IN " ++ ts))
      = some (binder, ts) := by
    simp only [binding?, identifier?, skip?_plain, Option.bind_eq_bind, Option.bind_some]
  have hplain : PlainName q.text := by cases q <;> decide
  have hnil : q.text.toList ≠ [] := by cases q <;> decide
  have hnot : q.text.toList ≠ "NOT".toList := by cases q <;> decide
  have hq : Readers.quantifier? q.text.toList = some q := by cases q <;> decide
  have htake := takeName_plain hplain (Ends.endsName_plain (t := "(") (by decide)
    (.identifier binder :: (plainTokens " IN " ++ ts)))
  unfold Readers.opening?
  rw [htake]
  show (if q.text.toList = [] then _ else if q.text.toList = "NOT".toList then _ else _) = _
  rw [if_neg hnil, if_neg hnot, hq]
  simp only [skip?_plain, hbinding, Option.bind_eq_bind, Option.bind_some]

/-- A quantified condition is read back if its source and its condition are. -/
theorem reads_quantified (q : Quantifier) (binder : String) {source condition : List Lexeme}
    {e : Expression} {p : Predicate}
    (hsource : Reads Readers.expression afterExpression source e)
    (hcondition : Reads Readers.predicate afterPredicate condition p) :
    ReadsWithin Readers.operand afterOperand
      (.plain q.text :: .plain "(" :: .identifier binder :: .plain " IN " :: source
        ++ .plain " WHERE " :: condition ++ [.plain ")"]) (.quantified q binder e p) := by
  intro n rest _ hn
  simp only [tokensOf_append, tokensOf_plain, tokensOf_identifier, tokensOf_nil,
    List.append_assoc, List.nil_append, List.cons_append] at hn ⊢
  have hopening := opening?_quantifier q binder (tokensOf source ++ (plainTokens " WHERE "
    ++ (tokensOf condition ++ (plainTokens ")" ++ rest))))
  have hn₁ := length_behind (Nat.lt_of_succ_lt (length_behind_plain
    (Nat.le_of_lt_succ (length_behind (Nat.lt_succ_of_le hn)))))
  have hn₂ := length_behind (length_behind hn₁)
  have he := hsource n _ (Ends.plain (by decide) _) hn₁
  have hp := hcondition n _ (Ends.plain (by decide) _) hn₂
  simp only [Readers.operand, hopening, he, hp, skip?_plain, Option.bind_eq_bind,
    Option.bind_some]

end PropertyGraphQL.Cypher
