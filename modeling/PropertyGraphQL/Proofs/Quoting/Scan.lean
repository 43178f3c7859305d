/-
Scanning the text of a statement for what stands in quotes.

The scanner knows only the rules for quotes: a back quote opens a name that
ends at the first back quote that is not doubled, a double quote opens a
string constant in which a backslash escapes the next character. It finds
the quoted tokens and, in between, single characters.

Lexemes that stand side by side are scanned one by one (`Scanned`), provided
that plain text has no quotes in it and that no back quote follows a name:
there the name would go on. So whatever is put together from lexemes is
scanned by the lemmas here, one for every way of putting them together.
-/
import PropertyGraphQL.Cypher.Writer

namespace PropertyGraphQL.Cypher

-- ============================================================ the scanner

/-- A token of a text: a name or a string constant with its quotes taken
off, or a character outside of quotes. -/
inductive Token where
  | identifier (name : String)
  | string (value : String)
  | outside (c : Char)
deriving DecidableEq, Repr

/-- A closing back quote is behind all that was read. -/
theorem length_of_nameRest? {cs name rest : List Char}
    (h : nameRest? cs = some (name, rest)) : rest.length < cs.length := by
  fun_induction nameRest? cs generalizing name with
  | case1 => cases h
  | case2 cs ih =>
    obtain ⟨⟨more, after⟩, hmore, heq⟩ := Option.map_eq_some_iff.mp h
    cases heq
    have hlt := ih hmore
    simp only [List.length_cons]
    omega
  | case3 cs =>
    cases h
    exact Nat.lt_succ_self _
  | case4 c cs _ _ ih =>
    obtain ⟨⟨more, after⟩, hmore, heq⟩ := Option.map_eq_some_iff.mp h
    cases heq
    have hlt := ih hmore
    simp only [List.length_cons]
    omega

/-- A closing double quote is behind all that was read. -/
theorem length_of_stringRest? {cs value rest : List Char}
    (h : stringRest? cs = some (value, rest)) : rest.length < cs.length := by
  fun_induction stringRest? cs generalizing value with
  | case1 => cases h
  | case2 cs =>
    cases h
    exact Nat.lt_succ_self _
  | case3 => cases h
  | case4 c cs ih =>
    obtain ⟨⟨more, after⟩, hmore, heq⟩ := Option.map_eq_some_iff.mp h
    cases heq
    have hlt := ih hmore
    simp only [List.length_cons]
    omega
  | case5 c cs _ _ _ ih =>
    obtain ⟨⟨more, after⟩, hmore, heq⟩ := Option.map_eq_some_iff.mp h
    cases heq
    have hlt := ih hmore
    simp only [List.length_cons]
    omega

/-- The tokens of a text, if every quote in it is closed. -/
def scan (cs : List Char) : Option (List Token) :=
  match cs with
  | [] => some []
  | c :: rest =>
      if c = '\x60' then
        match _hread : nameRest? rest with
        | some (name, after) => (scan after).map (.identifier (String.ofList name) :: ·)
        | none => none
      else if c = '"' then
        match _hread : stringRest? rest with
        | some (value, after) => (scan after).map (.string (String.ofList value) :: ·)
        | none => none
      else (scan rest).map (.outside c :: ·)
termination_by cs.length
decreasing_by
  · have hlt := length_of_nameRest? _hread
    simp only [List.length_cons]
    omega
  · have hlt := length_of_stringRest? _hread
    simp only [List.length_cons]
    omega
  · exact Nat.lt_succ_self _

theorem scan_nil : scan [] = some [] := by
  rw [scan]

/-- A quoted name is read as one token, up to the quote that closes it. -/
theorem scan_name {rest name after : List Char} (h : nameRest? rest = some (name, after)) :
    scan ('\x60' :: rest) = (scan after).map (.identifier (String.ofList name) :: ·) := by
  rw [scan, if_pos rfl]
  split
  · next heq =>
    rw [h] at heq
    cases heq
    rfl
  · next heq =>
    rw [h] at heq
    cases heq

/-- A string is read as one token, up to the quote that closes it. -/
theorem scan_string {rest value after : List Char}
    (h : stringRest? rest = some (value, after)) :
    scan ('"' :: rest) = (scan after).map (.string (String.ofList value) :: ·) := by
  have hne : '"' ≠ '\x60' := by decide
  rw [scan, if_neg hne, if_pos rfl]
  split
  · next heq =>
    rw [h] at heq
    cases heq
    rfl
  · next heq =>
    rw [h] at heq
    cases heq

/-- A character that is no quote. -/
def IsUnquoted (c : Char) : Prop := c ≠ '\x60' ∧ c ≠ '"'

instance (c : Char) : Decidable (IsUnquoted c) := inferInstanceAs (Decidable (_ ∧ _))

/-- Only the characters of the list are looked at, not all there are. -/
instance (chars : List Char) : Decidable (∀ c ∈ chars, IsUnquoted c) :=
  List.decidableBAll IsUnquoted chars

theorem scan_outside {c : Char} (hc : IsUnquoted c) (rest : List Char) :
    scan (c :: rest) = (scan rest).map (.outside c :: ·) := by
  rw [scan, if_neg hc.1, if_neg hc.2]

/-- A text without quotes. -/
def Unquoted (text : String) : Prop := ∀ c ∈ text.toList, IsUnquoted c

instance (text : String) : Decidable (Unquoted text) :=
  List.decidableBAll IsUnquoted text.toList

-- ================================================================ lexemes

/-- The tokens of text without quotes. -/
def plainTokens (text : String) : List Token := text.toList.map .outside

namespace Lexeme

/-- The tokens that a lexeme is scanned to. -/
def tokens : Lexeme → List Token
  | plain text => plainTokens text
  | identifier name => [.identifier name]
  | string value => [.string value]
  | parameter name => .outside '$' :: plainTokens name

end Lexeme

/-- The tokens that lexemes are scanned to. -/
def tokensOf (lexemes : List Lexeme) : List Token := lexemes.flatMap Lexeme.tokens

theorem tokensOf_append (a b : List Lexeme) : tokensOf (a ++ b) = tokensOf a ++ tokensOf b :=
  List.flatMap_append

theorem tokensOf_cons (l : Lexeme) (a : List Lexeme) : tokensOf (l :: a) = l.tokens ++ tokensOf a :=
  List.flatMap_cons

/-- The characters of lexemes. -/
def charsOf (lexemes : List Lexeme) : List Char := lexemes.flatMap fun l => l.text.toList

theorem toList_textOf (lexemes : List Lexeme) : (textOf lexemes).toList = charsOf lexemes := by
  unfold textOf charsOf
  rw [String.toList_join, List.flatMap_map]

/-- The text of lexemes is scanned to their tokens, whatever stands behind
them, unless it is a back quote. -/
def Scanned (lexemes : List Lexeme) : Prop :=
  ∀ rest tokens, rest.head? ≠ some '\x60' → scan rest = some tokens →
    scan (charsOf lexemes ++ rest) = some (tokensOf lexemes ++ tokens)

/-- A list of lexemes is empty, or begins with plain text that is not empty
and has no quotes: it may stand behind a name. -/
def Opens (lexemes : List Lexeme) : Prop :=
  ∀ l ∈ lexemes.head?, ∃ text, l = .plain text ∧ text ≠ "" ∧ Unquoted text

/-- Plain text without quotes is read character by character. -/
theorem scan_plain {text : String} (h : Unquoted text) {rest : List Char} {tokens : List Token}
    (hrest : scan rest = some tokens) :
    scan (text.toList ++ rest) = some (plainTokens text ++ tokens) := by
  unfold plainTokens
  unfold Unquoted at h
  generalize text.toList = cs at h
  induction cs with
  | nil => exact hrest
  | cons c cs ih =>
    have hcs := ih fun d hd => h d (List.mem_cons_of_mem c hd)
    rw [List.cons_append, scan_outside (h c List.mem_cons_self), hcs]
    rfl

/-- What may stand behind a name does not begin with a back quote. -/
theorem Opens.head?_ne {a : List Lexeme} (h : Opens a) {rest : List Char}
    (hrest : rest.head? ≠ some '\x60') : (charsOf a ++ rest).head? ≠ some '\x60' := by
  cases a with
  | nil => exact hrest
  | cons l a =>
    obtain ⟨text, rfl, hne, hplain⟩ := h l rfl
    unfold charsOf
    rw [List.flatMap_cons]
    show (text.toList ++ _ ++ rest).head? ≠ _
    cases hcs : text.toList with
    | nil => exact absurd (String.toList_eq_nil_iff.mp hcs) hne
    | cons c cs =>
      have hc := hplain c (hcs ▸ List.mem_cons_self)
      intro heq
      exact hc.1 (Option.some.inj heq)

namespace Opens

theorem nil : Opens [] := by
  intro l hl
  cases hl

theorem plain {text : String} (hne : text ≠ "") (h : Unquoted text) (a : List Lexeme) :
    Opens (.plain text :: a) := by
  intro l hl
  cases hl
  exact ⟨text, rfl, hne, h⟩

/-- A text opens with no quote if its parts do. -/
theorem append {a b : List Lexeme} (ha : Opens a) (hb : Opens b) : Opens (a ++ b) := by
  cases a with
  | nil => exact hb
  | cons l a => exact fun first hfirst => ha first hfirst

end Opens

namespace Scanned

variable {a b : List Lexeme}

theorem nil : Scanned [] := by
  intro rest tokens _ htokens
  exact htokens

/-- A text is scanned part by part, if the second part does not open with the quote that closes
the first. -/
theorem append (ha : Scanned a) (hb : Scanned b) (hopens : Opens b) : Scanned (a ++ b) := by
  intro rest tokens hrest htokens
  have hbehind := hb rest tokens hrest htokens
  have hall := ha (charsOf b ++ rest) _ (hopens.head?_ne hrest) hbehind
  unfold charsOf at hall ⊢
  rw [List.flatMap_append, List.append_assoc, hall, tokensOf_append, List.append_assoc]

/-- Plain text without quotes may stand in front of what is scanned. -/
theorem plain {text : String} (h : Unquoted text) (ha : Scanned a) :
    Scanned (.plain text :: a) := by
  intro rest tokens hrest htokens
  have hbehind := ha rest tokens hrest htokens
  unfold charsOf at hbehind ⊢
  rw [List.flatMap_cons, List.append_assoc, tokensOf_cons, List.append_assoc]
  exact scan_plain h hbehind

/-- A quoted name is scanned as one token. -/
theorem identifier (name : String) : Scanned [.identifier name] := by
  intro rest tokens hrest htokens
  have hread := nameRest?_nameBody name.toList rest hrest
  have hscan := scan_name hread
  rw [htokens, String.ofList_toList] at hscan
  unfold charsOf
  simpa [Lexeme.text, quoteName, tokensOf, Lexeme.tokens] using hscan

/-- A string is scanned as one token. -/
theorem string (value : String) : Scanned [.string value] := by
  intro rest tokens _ htokens
  have hscan := scan_string (stringRest?_flatMap value.toList rest)
  rw [htokens, String.ofList_toList] at hscan
  unfold charsOf
  simpa [Lexeme.text, quoteString, tokensOf, Lexeme.tokens] using hscan

/-- A parameter with a name without quotes is scanned character by character. -/
theorem parameter {name : String} (h : Unquoted name) : Scanned [.parameter name] := by
  intro rest tokens _ htokens
  have hdollar : IsUnquoted '$' := by decide
  have hscan := scan_outside hdollar (name.toList ++ rest)
  rw [scan_plain h htokens] at hscan
  unfold charsOf
  simpa [Lexeme.text, tokensOf, Lexeme.tokens] using hscan

/-- The text of lexemes is scanned to their tokens. -/
theorem scan_textOf (ha : Scanned a) : scan (textOf a).toList = some (tokensOf a) := by
  have hscan := ha [] [] (by decide) scan_nil
  rw [List.append_nil, List.append_nil] at hscan
  rw [toList_textOf, hscan]

end Scanned

end PropertyGraphQL.Cypher
