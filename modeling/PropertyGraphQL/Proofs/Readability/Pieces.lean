/-
What the small readers take.

A fixed text is found where it stands, and not where another text stands that
differs from it in a character (`apart`). What may follow a part of a text is
said by the texts that do not stand there (`Ends`): then the part is not read
on. The loops read what is put together from parts with separators, if each
part is read by itself.
-/
import Mathlib.Data.List.Basic
import PropertyGraphQL.Proofs.Readability.Reader

namespace PropertyGraphQL.Cypher

-- ============================================================ fixed texts

theorem skip?_eq_some_iff {text : String} {ts rest : List Token} :
    skip? text ts = some rest ↔ plainTokens text ++ rest = ts :=
  List.isPrefixOf?_eq_some_iff_append_eq

theorem skip?_plain (text : String) (rest : List Token) :
    skip? text (plainTokens text ++ rest) = some rest :=
  skip?_eq_some_iff.mpr rfl

/-- Two texts of which the one does not begin like the other. -/
def apart : List Char → List Char → Bool
  | c :: cs, d :: ds => c ≠ d || apart cs ds
  | _, _ => false

/-- A text is not skipped where another one stands that differs from it. -/
theorem skip?_eq_none {t s : String} (h : apart t.toList s.toList = true) (rest : List Token) :
    skip? t (plainTokens s ++ rest) = none := by
  refine Option.eq_none_iff_forall_ne_some.mpr fun behind hsome => ?_
  have heq := skip?_eq_some_iff.mp hsome
  unfold plainTokens at heq
  generalize t.toList = cs at h heq
  generalize s.toList = ds at h heq
  fun_induction apart cs ds with
  | case1 c cs d ds ih =>
    obtain ⟨hcd, hrest⟩ := List.cons.inj heq
    have hcd : c = d := Token.outside.inj hcd
    simp only [hcd, ne_eq, not_true_eq_false, decide_false, Bool.false_or] at h
    exact ih h hrest
  | case2 => cases h

/-- The first character of a text. -/
def firstChar (text : String) : Option Char := text.toList.head?

/-- A text is not skipped where another character stands. -/
theorem skip?_eq_none_of_head {text : String} {c : Char} (h : firstChar text = some c)
    {ts : List Token} (hts : ts.head? ≠ some (.outside c)) : skip? text ts = none := by
  refine Option.eq_none_iff_forall_ne_some.mpr fun behind hsome => hts ?_
  rw [← skip?_eq_some_iff.mp hsome]
  unfold firstChar at h
  unfold plainTokens
  cases hcs : text.toList with
  | nil =>
    rw [hcs] at h
    cases h
  | cons d ds =>
    rw [hcs] at h
    cases h
    rfl

/-- The next token is no character with the property. -/
def Stops (p : Char → Bool) (ts : List Token) : Prop :=
  ∀ c, ts.head? = some (.outside c) → p c = false

/-- Characters of a class are taken up to one that is not of it. -/
theorem takeChars_append {p : Char → Bool} {cs : List Char} (hcs : ∀ c ∈ cs, p c = true)
    {rest : List Token} (hrest : Stops p rest) :
    takeChars p (cs.map .outside ++ rest) = (cs, rest) := by
  induction cs with
  | nil =>
    cases rest with
    | nil => rfl
    | cons t rest =>
      cases t with
      | outside c =>
        show takeChars p (.outside c :: rest) = _
        rw [takeChars, if_neg (by rw [hrest c rfl]; decide)]
      | identifier name => rfl
      | string value => rfl
  | cons c cs ih =>
    obtain ⟨hc, hcs⟩ := List.forall_mem_cons.mp hcs
    rw [List.map_cons, List.cons_append, takeChars, if_pos hc, ih hcs]

/-- The next token is no character of a name. -/
def EndsName (ts : List Token) : Prop := Stops (IsNameChar ·) ts

theorem takeName_plain {name : String} (h : PlainName name) {rest : List Token}
    (hrest : EndsName rest) : takeName (plainTokens name ++ rest) = (name.toList, rest) :=
  takeChars_append (fun c hc => decide_eq_true (h c hc)) hrest

theorem takeName_eq_nil {ts : List Token} (h : EndsName ts) : takeName ts = ([], ts) := by
  have hnil : ∀ c ∈ ([] : List Char), decide (IsNameChar c) = true := List.forall_mem_nil _
  exact takeChars_append hnil h

-- ================================================================== ends

/-- No name goes on here, and none of the texts stands here. -/
structure Ends (texts : List String) (rest : List Token) : Prop where
  name : EndsName rest
  skip : ∀ t ∈ texts, skip? t rest = none

/-- The text is no part of a name and begins with none of the texts. -/
def closes (texts : List String) (text : String) : Bool :=
  ((firstChar text).map fun c => !decide (IsNameChar c)).getD false
    && texts.all fun t => apart t.toList text.toList

namespace Ends

variable {texts others : List String} {rest : List Token}

theorem mono (h : Ends texts rest) (hsub : others ⊆ texts) : Ends others rest :=
  ⟨h.name, fun t ht => h.skip t (hsub ht)⟩

/-- A text ends a name if its first character is not one of names. -/
theorem endsName_plain {t : String}
    (h : ((firstChar t).map fun c => !decide (IsNameChar c)).getD false = true)
    (rest : List Token) : EndsName (plainTokens t ++ rest) := by
  unfold firstChar at h
  unfold plainTokens
  intro c hc
  cases hcs : t.toList with
  | nil =>
    rw [hcs] at h
    cases h
  | cons d ds =>
    rw [hcs] at h hc
    cases hc
    have hd : (!decide (IsNameChar c)) = true := h
    rwa [Bool.not_eq_true'] at hd

/-- A text ends what is read if it is one of those that close it. -/
theorem plain {text : String} (h : closes texts text = true) (rest : List Token) :
    Ends texts (plainTokens text ++ rest) := by
  unfold closes at h
  rw [Bool.and_eq_true] at h
  refine ⟨endsName_plain h.1 rest, fun t ht => skip?_eq_none ?_ rest⟩
  exact List.all_eq_true.mp h.2 t ht

theorem nil (h : ∀ t ∈ texts, skip? t [] = none) : Ends texts [] := by
  refine ⟨fun c hc => ?_, h⟩
  cases hc

end Ends

-- ================================================================= loops

section

variable {α : Type} {one : Reader α} {word close : String} {join : α → α → α} {x y : α}
  {ts rest behind after : List Token}

/-- The last of several parts is the one that no joining word follows. -/
theorem chain_last (h : one ts = some (x, rest)) (hrest : skip? word rest = none) :
    chain one word join ts = some (x, rest) := by
  rw [chain, h]
  dsimp only
  rw [hrest]

/-- A part in front is joined to those behind the word. -/
theorem chain_cons (h : one ts = some (x, rest)) (hword : skip? word rest = some behind)
    (hlt : behind.length < ts.length) (hbehind : chain one word join behind = some (y, after)) :
    chain one word join ts = some (join x y, after) := by
  rw [chain, h]
  dsimp only
  rw [hword]
  show (if behind.length < ts.length then _ else _) = _
  rw [if_pos hlt, hbehind]
  rfl

theorem many_nil (h : one ts = none) : many one ts = ([], ts) := by
  rw [many, h]

/-- One that is read stands before the others. -/
theorem many_cons (h : one ts = some (x, rest)) (hlt : rest.length < ts.length) :
    many one ts = (x :: (many one rest).1, (many one rest).2) := by
  rw [many, h]
  exact if_pos hlt

end

-- ================================================================ reading

/-- The reader takes the tokens of the lexemes for a value, if none of the
texts follows, in texts shorter than the bound of its readers. -/
def Reads {α : Type} (read : Readers → Reader α) (texts : List String) (lexemes : List Lexeme)
    (x : α) : Prop :=
  ∀ n rest, Ends texts rest → (tokensOf lexemes ++ rest).length < n →
    read (readersBelow n) (tokensOf lexemes ++ rest) = some (x, rest)

/-- The same for texts that may be as long as the bound: for a reader whose
nested parts are shorter. -/
def ReadsWithin {α : Type} (read : Readers → Reader α) (texts : List String)
    (lexemes : List Lexeme) (x : α) : Prop :=
  ∀ n rest, Ends texts rest → (tokensOf lexemes ++ rest).length ≤ n →
    read (readersBelow n) (tokensOf lexemes ++ rest) = some (x, rest)

/-- Groups of lexemes are read one by one. -/
inductive ReadEach {α : Type} (read : Readers → Reader α) (texts : List String) :
    List (List Lexeme) → List α → Prop where
  | nil : ReadEach read texts [] []
  | cons {group : List Lexeme} {groups : List (List Lexeme)} {x : α} {xs : List α} :
      Reads read texts group x → ReadEach read texts groups xs →
      ReadEach read texts (group :: groups) (x :: xs)

theorem tokensOf_nil : tokensOf [] = [] := rfl

theorem tokensOf_plain (text : String) (a : List Lexeme) :
    tokensOf (.plain text :: a) = plainTokens text ++ tokensOf a :=
  tokensOf_cons _ _

theorem tokensOf_identifier (name : String) (a : List Lexeme) :
    tokensOf (.identifier name :: a) = .identifier name :: tokensOf a :=
  tokensOf_cons _ _

/-- The first of several texts is followed by the separator and the others. -/
theorem tokensOf_separated_cons (separator : String) (group next : List Lexeme)
    (groups : List (List Lexeme)) :
    tokensOf (separated separator (group :: next :: groups))
      = tokensOf group ++ (plainTokens separator
          ++ tokensOf (separated separator (next :: groups))) := by
  rw [separated.eq_3 _ _ _ (by simp), tokensOf_append, tokensOf_plain]

section

variable {α : Type} {read : Readers → Reader α} {texts : List String} {close : String}

/-- Groups with commas between them are read one after the other. -/
theorem chain_reads {groups : List (List Lexeme)} {xs : List α} {group : List Lexeme} {x : α}
    (hgroup : Reads read texts group x) (h : ReadEach read texts groups xs)
    (hcomma : closes texts ", " = true) (hclose : closes (", " :: texts) close = true)
    {n : Nat} {rest : List Token}
    (hn : (tokensOf (separated ", " (group :: groups)) ++ (plainTokens close ++ rest)).length
      < n) :
    chain (fun ts => (read (readersBelow n) ts).map fun (x, rest) => ([x], rest)) ", " (· ++ ·)
        (tokensOf (separated ", " (group :: groups)) ++ (plainTokens close ++ rest))
      = some (x :: xs, plainTokens close ++ rest) := by
  have hends := Ends.plain hclose rest
  induction h generalizing group x with
  | nil =>
    have hone := hgroup n _ (hends.mono (List.subset_cons_self _ _)) hn
    refine chain_last ?_ (hends.skip _ List.mem_cons_self)
    show (read (readersBelow n) (tokensOf group ++ _)).map _ = _
    rw [hone]
    rfl
  | @cons next groups y ys hnext _ ih =>
    rw [tokensOf_separated_cons, List.append_assoc, List.append_assoc] at hn ⊢
    have hone := hgroup n _ (Ends.plain hcomma _) hn
    have hlen : (plainTokens ", ").length = 2 := rfl
    simp only [List.length_append] at hn
    -- the comma is two characters, so enough fuel is left for the rest
    have hbehind := ih hnext (by simp only [List.length_append]; omega)
    refine chain_cons (x := [x]) (y := y :: ys) ?_ (skip?_plain ", " _) ?_ hbehind
    · rw [hone]
      rfl
    · simp only [List.length_append]
      omega

/-- A list is read up to its closing text, if none of its members begins like
that. -/
theorem listUntil_reads {groups : List (List Lexeme)} {xs : List α}
    (h : ReadEach read texts groups xs)
    (hstart : ∀ group ∈ groups, ∀ rest, skip? close (tokensOf group ++ rest) = none)
    (hcomma : closes texts ", " = true) (hclose : closes (", " :: texts) close = true)
    {n : Nat} {rest : List Token}
    (hn : (tokensOf (separated ", " groups) ++ (plainTokens close ++ rest)).length < n) :
    listUntil (read (readersBelow n)) close
        (tokensOf (separated ", " groups) ++ (plainTokens close ++ rest))
      = some (xs, rest) := by
  unfold listUntil
  cases h with
  | nil =>
    have hnone : tokensOf (separated ", " []) ++ (plainTokens close ++ rest)
        = plainTokens close ++ rest := rfl
    rw [hnone, skip?_plain]
  | @cons group groups x xs hgroup hgroups =>
    -- the list is not empty, and no element begins as the list ends
    have hnone : skip? close
        (tokensOf (separated ", " (group :: groups)) ++ (plainTokens close ++ rest)) = none := by
      have hfirst := hstart group List.mem_cons_self
      cases groups with
      | nil => exact hfirst _
      | cons next groups =>
        rw [tokensOf_separated_cons, List.append_assoc]
        exact hfirst _
    rw [hnone]
    show (chain _ ", " (· ++ ·) _).bind _ = _
    rw [chain_reads hgroup hgroups hcomma hclose hn]
    show (skip? close (plainTokens close ++ rest)).bind _ = _
    rw [skip?_plain]
    rfl

end

end PropertyGraphQL.Cypher
