/-
What the text of an expression begins with.

From its front an expression is told from all that may stand in its place: it
closes no list, binds no name (`binding?_lexemes`), and opens neither a group
nor a negation nor a quantifier (`opening?_lexemes`). A function may well be
named like a keyword; then the parenthesis behind the name tells.
-/
import PropertyGraphQL.Proofs.Readability.Pieces

namespace PropertyGraphQL.Cypher

-- =============================================================== readable

/-- The atom can be told from what stands around it: it is in quotes, or a
plain name that is not missing. Floats are left out. -/
def Atom.IsReadable : Atom → Prop
  | .function name => PlainName name ∧ name ≠ ""
  | .parameter name => PlainName name
  | .float _ => False
  | _ => True

instance : (a : Atom) → Decidable a.IsReadable
  | .function name => inferInstanceAs (Decidable (PlainName name ∧ name ≠ ""))
  | .parameter name => inferInstanceAs (Decidable (PlainName name))
  | .identifier _ => isTrue trivial
  | .string _ => isTrue trivial
  | .float _ => isFalse fun h => h

/-- All of the atoms are readable. -/
def AllReadable (atoms : List Atom) : Prop := ∀ a ∈ atoms, a.IsReadable

instance (atoms : List Atom) : Decidable (AllReadable atoms) :=
  inferInstanceAs (Decidable (∀ a ∈ atoms, a.IsReadable))

/-- Atoms that can be read are plain. -/
theorem Atom.IsReadable.isPlain {a : Atom} (h : a.IsReadable) : a.IsPlain := by
  cases a with
  | function name => exact h.1
  | parameter name => exact h
  | float x => cases h
  | identifier _ | string _ => exact trivial

theorem AllReadable.append {x y : List Atom} (h : AllReadable (x ++ y)) :
    AllReadable x ∧ AllReadable y :=
  List.forall_mem_append.mp h

-- ================================================================ numbers

/-- The tokens of a number's digits. -/
def digitTokens (n : Nat) : List Token := (Nat.toDigits 10 n).map .outside

theorem isDigit_of_mem_toDigits {n : Nat} {c : Char} (h : c ∈ Nat.toDigits 10 n) :
    c.isDigit = true :=
  Nat.isDigit_of_mem_toDigits (by decide) (by decide) h

/-- The digits of a number are characters of names. -/
theorem isNameChar_of_mem_toDigits {n : Nat} : ∀ c ∈ Nat.toDigits 10 n, IsNameChar c := by
  intro c hc
  have hdigit := isDigit_of_mem_toDigits hc
  exact .inl (by simp [Char.isAlphanum, hdigit])

theorem toDigits_ne_nil (n : Nat) : Nat.toDigits 10 n ≠ [] := Nat.toDigits_ne_nil

/-- The tokens of a number: its digits, behind a sign if it is negative. -/
theorem plainTokens_integerText (n : Int) :
    plainTokens (Json.integerText n)
      = if n < 0 then .outside '-' :: digitTokens n.natAbs else digitTokens n.natAbs := by
  unfold plainTokens Json.integerText digitTokens
  split
  · rw [String.toList_append, Nat.toList_repr]
    rfl
  · rw [Nat.toList_repr]

/-- The digits of a number are read as the number. -/
theorem natural?_toDigits (n : Nat) : natural? (Nat.toDigits 10 n) = some n := by
  have hdigits : (Nat.toDigits 10 n).all Char.isDigit = true :=
    List.all_eq_true.mpr fun c hc => isDigit_of_mem_toDigits hc
  unfold natural?
  rw [if_pos ⟨toDigits_ne_nil n, hdigits⟩, Nat.ofDigitChars_ten_toDigits]

/-- A number is no word that has a character other than a digit. -/
theorem toDigits_ne {n : Nat} {word : String} (h : word.toList.all Char.isDigit = false) :
    Nat.toDigits 10 n ≠ word.toList := by
  intro heq
  have hall : word.toList.all Char.isDigit = true := by
    rw [← heq]
    exact List.all_eq_true.mpr fun c hc => isDigit_of_mem_toDigits hc
  rw [h] at hall
  cases hall

/-- A word of digits stands for the number. -/
theorem constant?_toDigits (n : Nat) : constant? (Nat.toDigits 10 n) = some (.int n) := by
  unfold constant?
  rw [if_neg (toDigits_ne (by decide)), if_neg (toDigits_ne (by decide)),
    if_neg (toDigits_ne (by decide)), natural?_toDigits]
  rfl

-- ============================================================ first tokens

/-- What an expression may begin with. -/
def Token.OpensExpression : Token → Prop
  | .outside c => IsNameChar c ∨ c = '$' ∨ c = '\x7b' ∨ c = '[' ∨ c = '-'
  | _ => True

instance : (t : Token) → Decidable t.OpensExpression
  | .outside c => inferInstanceAs (Decidable (IsNameChar c ∨ _ ∨ _ ∨ _ ∨ _))
  | .identifier _ => isTrue trivial
  | .string _ => isTrue trivial

/-- The lexemes begin like an expression. -/
def OpensExpression (lexemes : List Lexeme) : Prop :=
  ∃ t ts, tokensOf lexemes = t :: ts ∧ t.OpensExpression

namespace OpensExpression

variable {a : List Lexeme}

theorem append (h : OpensExpression a) (b : List Lexeme) : OpensExpression (a ++ b) := by
  obtain ⟨t, ts, htokens, ht⟩ := h
  exact ⟨t, ts ++ tokensOf b, by rw [tokensOf_append, htokens, List.cons_append], ht⟩

theorem identifier (name : String) (a : List Lexeme) : OpensExpression (.identifier name :: a) :=
  ⟨_, _, tokensOf_identifier name a, trivial⟩

/-- Plain text that begins with a name. -/
theorem name {text : String} (hne : text ≠ "") (h : PlainName text) (a : List Lexeme) :
    OpensExpression (.plain text :: a) := by
  cases hcs : text.toList with
  | nil => exact absurd (String.toList_eq_nil_iff.mp hcs) hne
  | cons c cs =>
    refine ⟨.outside c, cs.map .outside ++ tokensOf a, ?_, .inl (h c (hcs ▸ List.mem_cons_self))⟩
    rw [tokensOf_plain, plainTokens, hcs]
    rfl

/-- An expression does not begin with a text that opens none. -/
theorem skip?_eq_none (h : OpensExpression a) {text : String} {c : Char}
    (hc : firstChar text = some c) (hopens : ¬Token.OpensExpression (.outside c))
    (rest : List Token) : skip? text (tokensOf a ++ rest) = none := by
  obtain ⟨t, ts, htokens, ht⟩ := h
  refine skip?_eq_none_of_head hc ?_
  rw [htokens]
  intro heq
  exact hopens (Option.some.inj heq ▸ ht)

/-- An integer may open an expression. -/
theorem integer (n : Int) : OpensExpression [.plain (Json.integerText n)] := by
  have htokens : tokensOf [.plain (Json.integerText n)] = plainTokens (Json.integerText n) := by
    rw [tokensOf_plain]
    exact List.append_nil _
  unfold Cypher.OpensExpression
  rw [htokens, plainTokens_integerText]
  split
  · exact ⟨_, _, rfl, .inr (.inr (.inr (.inr rfl)))⟩
  · unfold digitTokens
    cases hcs : Nat.toDigits 10 n.natAbs with
    | nil => exact absurd hcs (toDigits_ne_nil _)
    | cons c cs =>
      exact ⟨_, _, rfl, .inl (isNameChar_of_mem_toDigits c (hcs ▸ List.mem_cons_self))⟩

end OpensExpression

/-- Every literal opens an expression. -/
theorem Literal.opensExpression {l : Literal} (h : AllReadable l.atoms) :
    OpensExpression l.lexemes := by
  cases l with
  | null => exact OpensExpression.name (by decide) (by decide) []
  | boolean b =>
    cases b with
    | true => exact OpensExpression.name (by decide) (by decide) []
    | false => exact OpensExpression.name (by decide) (by decide) []
  | int n => exact OpensExpression.integer n
  | float x => exact absurd (h _ List.mem_cons_self) fun hfalse => hfalse
  | string s => exact ⟨_, _, rfl, trivial⟩
  | list elems => exact ⟨_, _, rfl, .inr (.inr (.inr (.inl rfl)))⟩
  | map entries => exact ⟨_, _, rfl, .inr (.inr (.inl rfl))⟩

/-- The text of an expression begins like one. -/
theorem Expression.opensExpression (e : Expression) (h : AllReadable e.atoms) :
    OpensExpression e.lexemes := by
  match e with
  | .literal l => exact Literal.opensExpression h
  | .parameter name => exact ⟨_, _, rfl, .inr (.inl rfl)⟩
  | .var name | .property name _ | .projection name _ =>
    exact OpensExpression.identifier name _
  | .call function args =>
    have hfunction : PlainName function ∧ function ≠ "" := h _ List.mem_cons_self
    exact OpensExpression.name hfunction.2 hfunction.1 _
  | .map entries => exact ⟨_, _, rfl, .inr (.inr (.inl rfl))⟩
  | .list _ | .patternComprehension _ _ _ | .listComprehension _ _ _ _ =>
    exact ⟨_, _, rfl, .inr (.inr (.inr (.inl rfl)))⟩
  | .slice source lower upper =>
    have hsource := Expression.opensExpression source h
    rw [Expression.lexemes, List.append_assoc, List.append_assoc]
    exact hsource.append _
  | .conditional condition yes no => exact ⟨_, _, rfl, .inl (by decide)⟩
  | .countAll => exact ⟨_, _, rfl, .inl (by decide)⟩

-- =============================================================== bindings

/-- What begins outside quotes binds no variable. -/
theorem binding?_of_outside {ts : List Token} {c : Char} (h : ts.head? = some (.outside c)) :
    binding? ts = none := by
  cases ts with
  | nil => cases h
  | cons t ts =>
    cases h
    rfl

/-- A name that is not followed by `IN` binds no variable. -/
theorem binding?_identifier (name : String) {rest : List Token} (h : skip? " IN " rest = none) :
    binding? (.identifier name :: rest) = none := by
  show (skip? " IN " rest).bind _ = none
  rw [h]
  rfl

/-- An integer binds no variable. -/
theorem binding?_integer (n : Int) (rest : List Token) :
    binding? (tokensOf [.plain (Json.integerText n)] ++ rest) = none := by
  have htokens : tokensOf [.plain (Json.integerText n)] = plainTokens (Json.integerText n) := by
    rw [tokensOf_plain]
    exact List.append_nil _
  rw [htokens, plainTokens_integerText]
  split
  · exact binding?_of_outside rfl
  · unfold digitTokens
    cases hcs : Nat.toDigits 10 n.natAbs with
    | nil => exact absurd hcs (toDigits_ne_nil _)
    | cons c cs => exact binding?_of_outside rfl

/-- An expression binds no name, unless a membership of it follows. -/
theorem Expression.binding?_lexemes (e : Expression) (h : AllReadable e.atoms)
    {rest : List Token} (hrest : skip? " IN " rest = none) :
    binding? (tokensOf e.lexemes ++ rest) = none := by
  match e with
  | .literal l =>
    have hl : AllReadable l.atoms := h
    show binding? (tokensOf l.lexemes ++ rest) = none
    cases l with
    | null => exact binding?_of_outside rfl
    | boolean b => cases b <;> exact binding?_of_outside rfl
    | int n => exact binding?_integer n rest
    | float x => exact absurd (hl _ List.mem_cons_self) fun hfalse => hfalse
    | string s => rfl
    | list elems => exact binding?_of_outside rfl
    | map entries => exact binding?_of_outside rfl
  | .parameter name => exact binding?_of_outside rfl
  | .var name => exact binding?_identifier name hrest
  | .property owner key =>
    exact binding?_identifier owner (skip?_eq_none (s := ".") (by decide) _)
  | .projection owner items =>
    rw [Expression.lexemes, List.cons_append, tokensOf_identifier, List.cons_append,
      List.cons_append, tokensOf_plain, List.append_assoc]
    exact binding?_identifier owner (skip?_eq_none (by decide) _)
  | .call function args =>
    have hfunction : PlainName function ∧ function ≠ "" := h _ List.mem_cons_self
    -- the name of a function is not quoted, so it does not bind
    cases hcs : function.toList with
    | nil => exact absurd (String.toList_eq_nil_iff.mp hcs) hfunction.2
    | cons c cs =>
      refine binding?_of_outside (c := c) ?_
      rw [Expression.lexemes, List.cons_append, tokensOf_plain, plainTokens, hcs]
      rfl
  | .map entries => exact binding?_of_outside rfl
  | .list _ | .patternComprehension _ _ _ | .listComprehension _ _ _ _ =>
    exact binding?_of_outside rfl
  | .slice source lower upper =>
    rw [Expression.lexemes, List.append_assoc, List.append_assoc, tokensOf_append,
      List.append_assoc, List.cons_append, tokensOf_plain, List.append_assoc]
    exact Expression.binding?_lexemes source h (skip?_eq_none (by decide) _)
  | .conditional condition yes no => exact binding?_of_outside rfl
  | .countAll => exact binding?_of_outside rfl

/-- The lexemes begin like an expression and bind no name. -/
structure Fronts (lexemes : List Lexeme) : Prop where
  opens : OpensExpression lexemes
  binding : ∀ rest, skip? " IN " rest = none → binding? (tokensOf lexemes ++ rest) = none

theorem Expression.fronts {e : Expression} (h : AllReadable e.atoms) : Fronts e.lexemes :=
  ⟨e.opensExpression h, fun _ hrest => e.binding?_lexemes h hrest⟩

/-- Each expression of a list has a front of this kind. -/
theorem Expression.fronts_listLexemes {es : List Expression}
    (h : AllReadable (Expression.listAtoms es)) :
    ∀ group ∈ Expression.listLexemes es, Fronts group := by
  induction es with
  | nil => exact List.forall_mem_nil _
  | cons e rest ih =>
    obtain ⟨he, hrest⟩ := AllReadable.append h
    rw [Expression.listLexemes]
    exact List.forall_mem_cons.mpr ⟨Expression.fronts he, ih hrest⟩

/-- What is in brackets, up to a closing text that begins no expression. -/
theorem Fronts.binding?_separated {groups : List (List Lexeme)} (h : ∀ group ∈ groups, Fronts group)
    {close : String} (hclose : apart " IN ".toList close.toList = true)
    (hnil : ∀ rest, binding? (plainTokens close ++ rest) = none) (rest : List Token) :
    binding? (tokensOf (separated ", " groups) ++ (plainTokens close ++ rest)) = none := by
  match groups with
  | [] => exact hnil rest
  | [group] => exact (h group List.mem_cons_self).binding _ (skip?_eq_none hclose _)
  | group :: next :: others =>
    rw [tokensOf_separated_cons, List.append_assoc, List.append_assoc]
    exact (h group List.mem_cons_self).binding _ (skip?_eq_none (by decide) _)

/-- A text that neither closes the brackets nor begins an expression is not
the first in them. -/
theorem Fronts.skip?_separated {groups : List (List Lexeme)} (h : ∀ group ∈ groups, Fronts group)
    {t close : String} {c : Char} (hc : firstChar t = some c)
    (hopens : ¬Token.OpensExpression (.outside c))
    (hclose : apart t.toList close.toList = true) (rest : List Token) :
    skip? t (tokensOf (separated ", " groups) ++ (plainTokens close ++ rest)) = none := by
  match groups with
  | [] => exact skip?_eq_none hclose rest
  | [group] => exact (h group List.mem_cons_self).opens.skip?_eq_none hc hopens _
  | group :: next :: others =>
    rw [tokensOf_separated_cons, List.append_assoc, List.append_assoc]
    exact (h group List.mem_cons_self).opens.skip?_eq_none hc hopens _

-- =============================================================== openings

open Readers

/-- What begins with no name and no parenthesis opens nothing. -/
theorem opening?_of_endsName {ts : List Token} (hname : EndsName ts)
    (hgroup : skip? "(" ts = none) : opening? ts = none := by
  unfold opening?
  rw [takeName_eq_nil hname]
  show (skip? "(" ts).map _ = none
  rw [hgroup]
  rfl

/-- Words other than keywords open nothing. -/
theorem opening?_of_word {w : List Char} (hne : w ≠ [])
    (hword : ∀ c ∈ w, IsNameChar c) (hnot : w ≠ "NOT".toList)
    (hquantifier : quantifier? w = none) {rest : List Token} (hrest : EndsName rest) :
    opening? (w.map .outside ++ rest) = none := by
  have htake : takeName (w.map .outside ++ rest) = (w, rest) :=
    takeChars_append (fun c hc => decide_eq_true (hword c hc)) hrest
  unfold opening?
  rw [htake]
  show (if w = [] then _ else if w = "NOT".toList then _ else _) = _
  rw [if_neg hne, if_neg hnot, hquantifier]
  rfl

/-- A function opens nothing, whatever its name is. -/
theorem opening?_of_call {function : String} (hne : function ≠ "") (hfunction : PlainName function)
    {args : List Token} (hargs : binding? args = none) :
    opening? (plainTokens function ++ (plainTokens "(" ++ args)) = none := by
  have htake := takeName_plain hfunction (Ends.endsName_plain (t := "(") (by decide) args)
  have hnil : function.toList ≠ [] := fun h => hne (String.toList_eq_nil_iff.mp h)
  unfold opening?
  rw [htake]
  show (if function.toList = [] then _ else if function.toList = "NOT".toList then _ else _) = _
  rw [if_neg hnil]
  split
  · rw [skip?_eq_none (by decide)]
    rfl
  · cases quantifier? function.toList with
    | none => rfl
    | some q =>
      simp only [skip?_plain, hargs, Option.bind_eq_bind, Option.bind_some, Option.bind_none]

/-- A number is no quantifier. -/
theorem quantifier?_toDigits (n : Nat) : quantifier? (Nat.toDigits 10 n) = none := by
  unfold quantifier?
  rw [List.find?_eq_none]
  intro q _ hq
  have hword : q.text.toList.all Char.isDigit = false := by cases q <;> decide
  exact toDigits_ne hword (of_decide_eq_true hq).symm

/-- A number opens no condition. -/
theorem opening?_integer (n : Int) {rest : List Token} (hrest : EndsName rest) :
    opening? (tokensOf [.plain (Json.integerText n)] ++ rest) = none := by
  have htokens : tokensOf [.plain (Json.integerText n)] = plainTokens (Json.integerText n) := by
    rw [tokensOf_plain]
    exact List.append_nil _
  rw [htokens, plainTokens_integerText]
  split
  · refine opening?_of_endsName ?_ (skip?_eq_none_of_head rfl ?_)
    · intro c hc
      cases hc
      decide
    · intro h
      cases h
  · exact opening?_of_word (toDigits_ne_nil _) isNameChar_of_mem_toDigits (toDigits_ne (by decide))
      (quantifier?_toDigits _) hrest

/-- What begins with a token in quotes opens nothing. -/
theorem opening?_of_quoted {t : Token} (ht : t.isQuoted = true) (ts : List Token) :
    opening? (t :: ts) = none := by
  cases t with
  | outside c => cases ht
  | identifier name | string value => rfl

/-- Other characters than those of names and a parenthesis open no condition. -/
theorem opening?_of_outside {c : Char} (hname : ¬IsNameChar c) (hc : c ≠ '(') (ts : List Token) :
    opening? (.outside c :: ts) = none := by
  refine opening?_of_endsName ?_ (skip?_eq_none_of_head rfl ?_)
  · intro d hd
    cases hd
    exact decide_eq_false hname
  · intro h
    cases h
    exact hc rfl

/-- An expression opens neither a group nor a negation nor a quantifier. -/
theorem Expression.opening?_lexemes (e : Expression) (h : AllReadable e.atoms)
    {rest : List Token} (hrest : EndsName rest) :
    opening? (tokensOf e.lexemes ++ rest) = none := by
  -- a text of one lexeme has nothing behind it but `rest`
  have hnil : ∀ text : String, tokensOf [.plain text] ++ rest = plainTokens text ++ rest := by
    intro text
    rw [tokensOf_plain]
    exact congrArg (· ++ rest) (List.append_nil _)
  match e with
  | .literal l =>
    have hl : AllReadable l.atoms := h
    show opening? (tokensOf l.lexemes ++ rest) = none
    cases l with
    | null =>
      rw [Literal.lexemes, hnil]
      exact opening?_of_word (w := "null".toList) (by decide) (by decide) (by decide)
        (by decide) hrest
    | boolean b =>
      cases b with
      | true =>
        rw [Literal.lexemes, if_pos rfl, hnil]
        exact opening?_of_word (w := "true".toList) (by decide) (by decide) (by decide)
          (by decide) hrest
      | false =>
        rw [Literal.lexemes, if_neg (by decide), hnil]
        exact opening?_of_word (w := "false".toList) (by decide) (by decide) (by decide)
          (by decide) hrest
    | int n => exact opening?_integer n hrest
    -- floats have no text that can be read back, and `h` keeps them out
    | float x => exact absurd (hl _ List.mem_cons_self) fun hfalse => hfalse
    | string s => exact opening?_of_quoted rfl _
    | list elems => exact opening?_of_outside (by decide) (by decide) _
    | map entries => exact opening?_of_outside (by decide) (by decide) _
  | .parameter name => exact opening?_of_outside (by decide) (by decide) _
  | .var name | .property name _ | .projection name _ => exact opening?_of_quoted rfl _
  | .call function args =>
    have hfunction : PlainName function ∧ function ≠ "" := h _ List.mem_cons_self
    have hargs : AllReadable (Expression.listAtoms args) :=
      fun a ha => h a (List.mem_cons_of_mem _ ha)
    rw [Expression.lexemes, List.cons_append, tokensOf_plain, List.append_assoc, List.cons_append,
      tokensOf_plain, List.append_assoc]
    -- a call begins as a quantifier does, and is told from one by what follows the
    -- parenthesis
    refine opening?_of_call hfunction.2 hfunction.1 ?_
    rw [tokensOf_append, tokensOf_plain, List.append_assoc, List.append_assoc]
    exact Fronts.binding?_separated (Expression.fronts_listLexemes hargs) (by decide)
      (fun _ => binding?_of_outside rfl) _
  | .map entries => exact opening?_of_outside (by decide) (by decide) _
  | .list _ | .patternComprehension _ _ _ | .listComprehension _ _ _ _ =>
    exact opening?_of_outside (by decide) (by decide) _
  | .slice source lower upper =>
    rw [Expression.lexemes, List.append_assoc, List.append_assoc, tokensOf_append,
      List.append_assoc, List.cons_append, tokensOf_plain, List.append_assoc]
    exact Expression.opening?_lexemes source h (Ends.endsName_plain (by decide) _)
  | .conditional condition yes no =>
    rw [Expression.lexemes, List.append_assoc, List.append_assoc, List.cons_append,
      tokensOf_plain, List.append_assoc]
    exact opening?_of_word (w := "CASE".toList) (by decide) (by decide) (by decide)
      (by decide) (Ends.endsName_plain (t := " WHEN ") (by decide) _)
  | .countAll =>
    exact opening?_of_word (w := "count".toList) (by decide) (by decide) (by decide)
      (by decide) (Ends.endsName_plain (t := "(*)") (by decide) rest)

end PropertyGraphQL.Cypher
