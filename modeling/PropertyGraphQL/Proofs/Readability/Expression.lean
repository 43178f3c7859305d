/-
Reading the text of an expression.

There is one lemma for every form of an expression: if its parts are read by
themselves, it is read whole. Slices may be taken of every expression, and of
slices again, so a form is read up to where slices may begin
(`ReadsUnsliced`), and the slices are collected behind it. Comprehensions come
behind the patterns that they match.
-/
import PropertyGraphQL.Proofs.Readability.Canonical
import PropertyGraphQL.Proofs.Readability.Fronts

namespace PropertyGraphQL.Cypher

-- ============================================================ what follows

/-- What would go on with an expression that is no slice: the arguments of a
function, or the items of a projection. -/
def afterPrimary : List String := ["(", " \x7b"]

/-- What would go on with an expression. -/
def afterExpression : List String := "[" :: afterPrimary

/-- What would go on with an operand of a connective. -/
def afterOperand : List String :=
  " IS NULL" :: " IS NOT NULL" :: Readers.comparisons.map Readers.operatorText ++ afterExpression

/-- What would go on with the operands of a conjunction. -/
def afterConjunction : List String := " AND " :: afterOperand

/-- What would go on with a predicate. -/
def afterPredicate : List String := " OR " :: afterConjunction

-- ================================================================= slices

/-- One slice taken of an expression. -/
def sliceBy (e : Expression) (bounds : Option Int × Option Int) : Expression :=
  .slice e bounds.1 bounds.2

/-- The lexemes are read as an expression with slices taken of it, whatever
slices follow. -/
def ReadsUnsliced (lexemes : List Lexeme) (e : Expression) : Prop :=
  ∀ n rest, Ends afterPrimary rest → (tokensOf lexemes ++ rest).length ≤ n →
    ∃ first slices behind,
      (readersBelow n).primary (tokensOf lexemes ++ rest) = some (first, behind)
      ∧ slices.foldl sliceBy first = e
      ∧ many bounds? behind = (slices ++ (many bounds? rest).1, (many bounds? rest).2)

/-- What is read as it stands has no slices taken of it. -/
theorem ReadsUnsliced.of_primary {lexemes : List Lexeme} {e : Expression}
    (h : ∀ n rest, Ends afterPrimary rest → (tokensOf lexemes ++ rest).length ≤ n →
      (readersBelow n).primary (tokensOf lexemes ++ rest) = some (e, rest)) :
    ReadsUnsliced lexemes e := by
  intro n rest hrest hn
  exact ⟨e, [], rest, h n rest hrest hn, rfl, rfl⟩

/-- Without a bracket there are no bounds. -/
theorem bounds?_eq_none {rest : List Token} (h : skip? "[" rest = none) : bounds? rest = none := by
  unfold bounds?
  rw [h]
  rfl

/-- What is read before bounds is read as a whole, if no bounds follow. -/
theorem ReadsUnsliced.sliced {lexemes : List Lexeme} {e : Expression}
    (h : ReadsUnsliced lexemes e) : ReadsWithin Readers.sliced afterExpression lexemes e := by
  intro n rest hrest hn
  obtain ⟨first, slices, behind, hfirst, hslices, hbehind⟩ :=
    h n rest (hrest.mono (List.subset_cons_self _ _)) hn
  have hnone := many_nil (bounds?_eq_none (hrest.skip _ List.mem_cons_self))
  rw [hnone, List.append_nil] at hbehind
  unfold Readers.sliced
  rw [hfirst]
  show some ((many bounds? behind).1.foldl sliceBy first, (many bounds? behind).2) = _
  rw [hbehind, hslices]

/-- An expression is read by the readers for its length. -/
theorem ReadsUnsliced.reads {lexemes : List Lexeme} {e : Expression}
    (h : ReadsUnsliced lexemes e) : Reads Readers.expression afterExpression lexemes e := by
  intro n rest hrest hn
  cases n with
  | zero => exact absurd hn (Nat.not_lt_zero _)
  | succ n => exact h.sliced n rest hrest (Nat.le_of_lt_succ hn)

-- ================================================================= bounds

/-- An integer is written in plain text. -/
theorem tokensOf_integer (n : Int) :
    tokensOf [.plain (Json.integerText n)] = plainTokens (Json.integerText n) := by
  rw [tokensOf_plain]
  exact List.append_nil _

theorem takeChars_digits (n : Nat) {rest : List Token} (hrest : Stops Char.isDigit rest) :
    takeChars Char.isDigit (digitTokens n ++ rest) = (Nat.toDigits 10 n, rest) :=
  takeChars_append (fun _ hc => isDigit_of_mem_toDigits hc) hrest

/-- A bound is read back, sign included. -/
theorem bound_boundLexemes (b : Option Int) {rest : List Token}
    (hdigit : Stops Char.isDigit rest) (hminus : skip? "-" rest = none) :
    bound (tokensOf (boundLexemes b) ++ rest) = (b, rest) := by
  cases b with
  | none =>
    have hnil : ∀ c ∈ ([] : List Char), c.isDigit = true := List.forall_mem_nil _
    have htake : takeChars Char.isDigit rest = ([], rest) := takeChars_append hnil hdigit
    show bound rest = _
    unfold bound
    rw [hminus]
    show ((natural? (takeChars Char.isDigit rest).1).map Int.ofNat, _) = _
    rw [htake]
    rfl
  | some n =>
    show bound (tokensOf [.plain (Json.integerText n)] ++ rest) = _
    rw [tokensOf_integer, plainTokens_integerText]
    unfold bound
    -- a sign is read first, and the digits behind it are those of the absolute value
    by_cases hn : n < 0
    · have habs : -(n.natAbs : Int) = n := by omega
      have hsign : skip? "-" (.outside '-' :: digitTokens n.natAbs ++ rest)
          = some (digitTokens n.natAbs ++ rest) := skip?_plain "-" _
      rw [if_pos hn, hsign]
      show ((natural? (takeChars Char.isDigit (digitTokens n.natAbs ++ rest)).1).map _, _) = _
      rw [takeChars_digits _ hdigit, natural?_toDigits]
      show (some (-(n.natAbs : Int)), rest) = _
      rw [habs]
    · have habs : Int.ofNat n.natAbs = n := by
        show (n.natAbs : Int) = n
        omega
      -- a digit is no sign
      have hfirst : skip? "-" (digitTokens n.natAbs ++ rest) = none := by
        refine skip?_eq_none_of_head rfl ?_
        unfold digitTokens
        cases hcs : Nat.toDigits 10 n.natAbs with
        | nil => exact absurd hcs (toDigits_ne_nil _)
        | cons c cs =>
          intro heq
          have hc : c.isDigit = true := isDigit_of_mem_toDigits (hcs ▸ List.mem_cons_self)
          cases heq
          exact absurd hc (by decide)
      rw [if_neg hn, hfirst]
      show ((natural? (takeChars Char.isDigit (digitTokens n.natAbs ++ rest)).1).map Int.ofNat, _)
        = _
      rw [takeChars_digits _ hdigit, natural?_toDigits]
      show (some (Int.ofNat n.natAbs), rest) = _
      rw [habs]

/-- The lexemes of a slice, behind the list it is taken of. -/
def sliceLexemes (lower upper : Option Int) : List Lexeme :=
  .plain "[" :: boundLexemes lower ++ .plain ".." :: boundLexemes upper ++ [.plain "]"]

/-- Both bounds of a slice are read back. -/
theorem bounds?_sliceLexemes (lower upper : Option Int) (rest : List Token) :
    bounds? (tokensOf (sliceLexemes lower upper) ++ rest) = some ((lower, upper), rest) := by
  have hdots : ∀ ts, Stops Char.isDigit (plainTokens ".." ++ ts) := by
    intro ts c hc
    cases hc
    rfl
  have hclose : ∀ ts, Stops Char.isDigit (plainTokens "]" ++ ts) := by
    intro ts c hc
    cases hc
    rfl
  have hlower := bound_boundLexemes lower (hdots (tokensOf (boundLexemes upper)
    ++ (plainTokens "]" ++ rest))) (skip?_eq_none (by decide) _)
  have hupper := bound_boundLexemes upper (hclose rest) (skip?_eq_none (by decide) _)
  have htokens : tokensOf (sliceLexemes lower upper) ++ rest
      = plainTokens "[" ++ (tokensOf (boundLexemes lower) ++ (plainTokens ".."
          ++ (tokensOf (boundLexemes upper) ++ (plainTokens "]" ++ rest)))) := by
    unfold sliceLexemes
    rw [tokensOf_append, tokensOf_append, tokensOf_plain, tokensOf_plain, tokensOf_plain]
    simp only [List.append_assoc]
    rfl
  rw [htokens]
  simp only [bounds?, skip?_plain, hlower, hupper, Option.bind_eq_bind, Option.bind_some]

/-- A slice of what is read is read. -/
theorem ReadsUnsliced.slice {lexemes : List Lexeme} {e : Expression}
    (h : ReadsUnsliced lexemes e) (lower upper : Option Int) :
    ReadsUnsliced (lexemes ++ sliceLexemes lower upper) (.slice e lower upper) := by
  intro n rest hrest hn
  have hends : Ends afterPrimary (tokensOf (sliceLexemes lower upper) ++ rest) := by
    unfold sliceLexemes
    rw [List.cons_append, List.cons_append, tokensOf_plain, List.append_assoc]
    exact Ends.plain (by decide) _
  rw [tokensOf_append, List.append_assoc] at hn ⊢
  obtain ⟨first, slices, behind, hfirst, hslices, hbehind⟩ := h n _ hends hn
  have hlt : rest.length < (tokensOf (sliceLexemes lower upper) ++ rest).length := by
    unfold sliceLexemes
    rw [List.cons_append, List.cons_append, tokensOf_plain, List.append_assoc]
    have hopen : (plainTokens "[").length = 1 := rfl
    simp only [List.length_append]
    omega
  refine ⟨first, slices ++ [(lower, upper)], behind, hfirst, ?_, ?_⟩
  · rw [List.foldl_append, hslices]
    rfl
  · rw [hbehind, many_cons (bounds?_sliceLexemes lower upper rest) hlt, List.append_assoc]
    rfl

-- ================================================================== words

section

variable {r : Readers} {rest : List Token}

/-- An expression that begins with a word is read by that word. -/
theorem primary_word {w : List Char} (hne : w ≠ []) (hw : ∀ c ∈ w, IsNameChar c)
    (hrest : EndsName rest) : r.primary (w.map .outside ++ rest) = r.word w rest := by
  have htake : takeName (w.map .outside ++ rest) = (w, rest) :=
    takeChars_append (fun c hc => decide_eq_true (hw c hc)) hrest
  cases w with
  | nil => exact absurd rfl hne
  | cons c cs =>
    have hc := hw c List.mem_cons_self
    have hdollar : c ≠ '$' := fun h => absurd (h ▸ hc) (by decide)
    have hbrace : c ≠ '\x7b' := fun h => absurd (h ▸ hc) (by decide)
    have hbracket : c ≠ '[' := fun h => absurd (h ▸ hc) (by decide)
    have hminus : c ≠ '-' := fun h => absurd (h ▸ hc) (by decide)
    show (if c = '$' then _ else if c = '\x7b' then _ else if c = '[' then _
      else if c = '-' then _ else r.word (takeName _).1 (takeName _).2) = _
    rw [if_neg hdollar, if_neg hbrace, if_neg hbracket, if_neg hminus]
    exact congrArg (fun taken => r.word taken.1 taken.2) htake

theorem primary_minus (ts : List Token) :
    r.primary (.outside '-' :: ts)
      = (natural? (takeName ts).1).map fun (n : Nat) =>
          (.literal (.int (-(n : Int))), (takeName ts).2) := by
  simp only [Readers.primary, Char.reduceEq, if_true, if_false]

theorem primary_dollar (ts : List Token) :
    r.primary (.outside '$' :: ts)
      = some (.parameter (String.ofList (takeName ts).1), (takeName ts).2) := by
  simp only [Readers.primary, if_true]

/-- Behind a brace the entries of a map are read. -/
theorem primary_brace (ts : List Token) :
    r.primary (.outside '\x7b' :: ts)
      = (listUntil r.entry "\x7d" ts).map fun (entries, rest) => (.map entries, rest) := by
  simp only [Readers.primary, Char.reduceEq, if_true, if_false]

theorem primary_bracket (ts : List Token) : r.primary (.outside '[' :: ts) = r.bracketed ts := by
  simp only [Readers.primary, Char.reduceEq, if_true, if_false]

/-- A word for a constant is read as the constant. -/
theorem word_constant {w : List Char} {l : Literal} (hw : constant? w = some l)
    (hcase : w ≠ "CASE".toList) (hrest : skip? "(" rest = none) :
    r.word w rest = some (.literal l, rest) := by
  unfold Readers.word
  rw [hrest]
  show (if w = "CASE".toList then _ else _) = _
  rw [if_neg hcase, hw]
  rfl

end

/-- A word that is a constant is read as one. -/
theorem reads_constant {w : List Char} {l : Literal} {lexemes : List Lexeme}
    (htokens : tokensOf lexemes = w.map .outside) (hne : w ≠ []) (hw : ∀ c ∈ w, IsNameChar c)
    (hcase : w ≠ "CASE".toList) (hl : constant? w = some l) :
    ReadsUnsliced lexemes (.literal l) := by
  refine .of_primary fun n rest hrest _ => ?_
  rw [htokens, primary_word hne hw hrest.name]
  exact word_constant hl hcase (hrest.skip _ List.mem_cons_self)

/-- An integer is read back. -/
theorem reads_integer (n : Int) :
    ReadsUnsliced [.plain (Json.integerText n)] (.literal (.int n)) := by
  by_cases hn : n < 0
  · refine .of_primary fun m rest hrest _ => ?_
    have habs : -(n.natAbs : Int) = n := by omega
    have htake : takeName (digitTokens n.natAbs ++ rest) = (Nat.toDigits 10 n.natAbs, rest) :=
      takeChars_append (fun c hc => decide_eq_true (isNameChar_of_mem_toDigits c hc)) hrest.name
    rw [tokensOf_integer, plainTokens_integerText, if_pos hn]
    rw [List.cons_append, primary_minus, htake, natural?_toDigits]
    show some (Expression.literal (.int (-(n.natAbs : Int))), rest) = _
    rw [habs]
  · have habs : (n.natAbs : Int) = n := by omega
    have hl := constant?_toDigits n.natAbs
    rw [habs] at hl
    refine reads_constant ?_ (toDigits_ne_nil n.natAbs) isNameChar_of_mem_toDigits
      (toDigits_ne (by decide)) hl
    rw [tokensOf_integer, plainTokens_integerText, if_neg hn]
    rfl

-- ================================================================= lengths

/-- The token that closes a text may be taken to what follows. -/
theorem tokensOf_closed (a : List Lexeme) (text : String) (rest : List Token) :
    tokensOf (a ++ [.plain text]) ++ rest = tokensOf a ++ (plainTokens text ++ rest) := by
  rw [tokensOf_append, tokensOf_plain, List.append_assoc, List.append_assoc]
  rfl

/-- What is behind a part of a text is no longer than the text. -/
theorem length_behind {a b : List Token} {n : Nat} (h : (a ++ b).length < n) : b.length < n := by
  rw [List.length_append] at h
  omega

/-- What is behind a fixed text is shorter. -/
theorem length_behind_plain {t : String} {b : List Token} {n : Nat}
    (h : (plainTokens t ++ b).length ≤ n) (ht : t ≠ "" := by decide) : b.length < n := by
  unfold plainTokens at h
  cases hcs : t.toList with
  | nil => exact absurd (String.toList_eq_nil_iff.mp hcs) ht
  | cons c cs =>
    rw [hcs, List.length_append, List.map_cons, List.length_cons] at h
    omega

-- =================================================================== names

/-- A parameter with a plain name is read back. -/
theorem reads_parameter {name : String} (h : PlainName name) :
    ReadsUnsliced [.parameter name] (.parameter name) := by
  refine .of_primary fun n rest hrest _ => ?_
  have htake := takeName_plain h hrest.name
  have htokens : tokensOf [.parameter name] ++ rest
      = .outside '$' :: (plainTokens name ++ rest) := by
    show (.outside '$' :: plainTokens name ++ []) ++ rest = _
    rw [List.append_nil]
    rfl
  rw [htokens, primary_dollar, htake, String.ofList_toList]

theorem reads_string (value : String) :
    ReadsUnsliced [.string value] (.literal (.string value)) :=
  .of_primary fun _ _ _ _ => rfl

/-- No property is asked for here: a dot would go on with a name. -/
theorem EndsName.skip?_dot {rest : List Token} (h : EndsName rest) : skip? "." rest = none := by
  refine skip?_eq_none_of_head rfl fun hdot => ?_
  have hno := h '.' hdot
  exact absurd hno (by decide)

/-- A variable is read back. -/
theorem reads_var (name : String) : ReadsUnsliced [.identifier name] (.var name) := by
  refine .of_primary fun n rest hrest _ => ?_
  have hmap : skip? " \x7b" rest = none := hrest.skip _ (by decide)
  show (readersBelow n).named name rest = _
  unfold Readers.named
  rw [hrest.name.skip?_dot, hmap]

/-- A property is read back. -/
theorem reads_property (owner key : String) :
    ReadsUnsliced (propertyAccess owner key) (.property owner key) := by
  refine .of_primary fun n rest _ _ => ?_
  have hdot : skip? "." (plainTokens "." ++ .identifier key :: rest)
      = some (.identifier key :: rest) := skip?_plain "." _
  show (readersBelow n).named owner (plainTokens "." ++ .identifier key :: rest) = _
  unfold Readers.named
  rw [hdot]
  rfl

-- ========================================================== maps and lists

section

variable {groups : List (List Lexeme)}

/-- An entry of a map is read back if its value is. -/
theorem reads_entry (key : String) {lexemes : List Lexeme} {e : Expression}
    (h : Reads Readers.expression afterExpression lexemes e) :
    Reads Readers.entry afterExpression (entryLexemes key lexemes) (key, e) := by
  intro n rest hrest hn
  have htokens : tokensOf (entryLexemes key lexemes) ++ rest
      = .identifier key :: (plainTokens ": " ++ (tokensOf lexemes ++ rest)) := by
    unfold entryLexemes
    rw [tokensOf_identifier, tokensOf_plain, List.cons_append, List.append_assoc]
  rw [htokens] at hn ⊢
  have he := h n rest hrest (length_behind (Nat.lt_of_succ_lt hn))
  simp only [Readers.entry, identifier?, skip?_plain, he, Option.bind_eq_bind, Option.bind_some]

/-- Entries begin with their keys, so none of them closes the map. -/
theorem skip?_entryLexemes (key : String) (lexemes : List Lexeme) (rest : List Token) :
    skip? "\x7d" (tokensOf (entryLexemes key lexemes) ++ rest) = none :=
  skip?_eq_none_of_head rfl nofun

/-- A map is read back if its entries are. -/
theorem reads_map {entries : List (String × Expression)}
    (h : ReadEach Readers.entry afterExpression groups entries)
    (hstart : ∀ group ∈ groups, ∀ rest, skip? "\x7d" (tokensOf group ++ rest) = none) :
    ReadsUnsliced (.plain "\x7b" :: separated ", " groups ++ [.plain "\x7d"]) (.map entries) := by
  refine .of_primary fun n rest _ hn => ?_
  rw [List.cons_append, tokensOf_plain, List.append_assoc, tokensOf_closed] at hn ⊢
  have hentries := listUntil_reads h hstart (by decide) (by decide) (length_behind_plain hn)
  show (readersBelow n).primary
    (.outside '\x7b' :: (tokensOf (separated ", " groups) ++ (plainTokens "\x7d" ++ rest))) = _
  rw [primary_brace, hentries]
  rfl

/-- An item of a projection with a value is read back if the value is. -/
theorem reads_item_entry (key : String) {lexemes : List Lexeme} {e : Expression}
    (h : Reads Readers.expression afterExpression lexemes e) :
    Reads Readers.item afterExpression (entryLexemes key lexemes) (.entry key e) := by
  intro n rest hrest hn
  have hentry := reads_entry key h n rest hrest hn
  have hdot : skip? "." (tokensOf (entryLexemes key lexemes) ++ rest) = none :=
    skip?_eq_none_of_head rfl nofun
  unfold Readers.item
  rw [hdot, hentry]
  rfl

/-- An item of a projection that stands for a property is read back. -/
theorem reads_item_property (key : String) :
    Reads Readers.item afterExpression [.plain ".", .identifier key] (.property key) := by
  intro n rest _ _
  have hdot : skip? "." (plainTokens "." ++ .identifier key :: rest)
      = some (.identifier key :: rest) := skip?_plain "." _
  show Readers.item _ (plainTokens "." ++ .identifier key :: rest) = _
  unfold Readers.item
  rw [hdot]
  rfl

/-- A projection is read back if its items are. -/
theorem reads_projection {owner : String} {items : List MapItem}
    (h : ReadEach Readers.item afterExpression groups items)
    (hstart : ∀ group ∈ groups, ∀ rest, skip? "\x7d" (tokensOf group ++ rest) = none) :
    ReadsUnsliced (.identifier owner :: .plain " \x7b" :: separated ", " groups ++ [.plain "\x7d"])
      (.projection owner items) := by
  refine .of_primary fun n rest _ hn => ?_
  rw [List.cons_append, List.cons_append, tokensOf_identifier, tokensOf_plain, List.cons_append,
    List.append_assoc, tokensOf_closed] at hn ⊢
  have hitems := listUntil_reads h hstart (by decide) (by decide)
    (length_behind_plain (Nat.le_of_succ_le hn))
  have hdot := skip?_eq_none (t := ".") (s := " \x7b") (by decide)
  show (readersBelow n).named owner (plainTokens " \x7b" ++ _) = _
  simp only [Readers.named, hdot, skip?_plain, hitems, Option.map_some]

/-- A list is read back if its elements are. -/
theorem reads_list {es : List Expression}
    (h : ReadEach Readers.expression afterExpression groups es)
    (hfronts : ∀ group ∈ groups, Fronts group) :
    ReadsUnsliced (.plain "[" :: separated ", " groups ++ [.plain "]"]) (.list es) := by
  refine .of_primary fun n rest _ hn => ?_
  rw [List.cons_append, tokensOf_plain, List.append_assoc, tokensOf_closed] at hn ⊢
  have hstart : ∀ group ∈ groups, ∀ rest, skip? "]" (tokensOf group ++ rest) = none :=
    fun group hgroup => (hfronts group hgroup).opens.skip?_eq_none (c := ']') rfl (by decide)
  have hes := listUntil_reads h hstart (by decide) (by decide) (length_behind_plain hn)
  have hpattern : skip? "("
      (tokensOf (separated ", " groups) ++ (plainTokens "]" ++ rest)) = none :=
    Fronts.skip?_separated hfronts (c := '(') rfl (by decide) (by decide) rest
  have hbinding : binding?
      (tokensOf (separated ", " groups) ++ (plainTokens "]" ++ rest)) = none :=
    Fronts.binding?_separated hfronts (by decide) (fun _ => binding?_of_outside rfl) rest
  show (readersBelow n).primary
    (.outside '[' :: (tokensOf (separated ", " groups) ++ (plainTokens "]" ++ rest))) = _
  rw [primary_bracket]
  unfold Readers.bracketed
  rw [hpattern, hbinding, hes]
  rfl

/-- A call is read back if its arguments are, and its name is plain. -/
theorem reads_call {function : String} {args : List Expression} (hne : function ≠ "")
    (hfunction : PlainName function) (h : ReadEach Readers.expression afterExpression groups args)
    (hfronts : ∀ group ∈ groups, Fronts group) :
    ReadsUnsliced (.plain function :: .plain "(" :: separated ", " groups ++ [.plain ")"])
      (.call function args) := by
  refine .of_primary fun n rest _ hn => ?_
  have hnil : function.toList ≠ [] := fun h => hne (String.toList_eq_nil_iff.mp h)
  rw [List.cons_append, List.cons_append, tokensOf_plain, tokensOf_plain, List.append_assoc,
    List.append_assoc, tokensOf_closed] at hn ⊢
  -- what counts all rows is no call, and is tried first
  have hstart : ∀ group ∈ groups, ∀ rest, skip? ")" (tokensOf group ++ rest) = none :=
    fun group hgroup => (hfronts group hgroup).opens.skip?_eq_none (c := ')') rfl (by decide)
  have hargs := listUntil_reads h hstart (by decide) (by decide)
    (length_behind_plain (Nat.le_of_lt_succ (length_behind (Nat.lt_succ_of_le hn))))
  have hstar : skip? "*)"
      (tokensOf (separated ", " groups) ++ (plainTokens ")" ++ rest)) = none :=
    Fronts.skip?_separated hfronts (c := '*') rfl (by decide) (by decide) rest
  have hname : EndsName (plainTokens "(" ++ (tokensOf (separated ", " groups)
      ++ (plainTokens ")" ++ rest))) := Ends.endsName_plain (by decide) _
  have hword := primary_word (r := readersBelow n) hnil hfunction hname
  show (readersBelow n).primary (function.toList.map .outside ++ _) = _
  rw [hword]
  unfold Readers.word
  rw [skip?_plain]
  show (readersBelow n).call function.toList _ = _
  unfold Readers.call
  rw [hstar, hargs, String.ofList_toList]
  rfl

end

/-- The number of rows is read back. -/
theorem reads_countAll : ReadsUnsliced [.plain "count(*)"] .countAll := by
  refine .of_primary fun n rest _ _ => ?_
  have hname : EndsName (plainTokens "(" ++ (plainTokens "*)" ++ rest)) :=
    Ends.endsName_plain (by decide) _
  have hword := primary_word (r := readersBelow n) (w := "count".toList) (by decide) (by decide)
    hname
  show (readersBelow n).primary ("count".toList.map .outside
    ++ (plainTokens "(" ++ (plainTokens "*)" ++ rest))) = _
  rw [hword]
  unfold Readers.word
  rw [skip?_plain]
  show (readersBelow n).call "count".toList (plainTokens "*)" ++ rest) = _
  unfold Readers.call
  rw [skip?_plain]
  exact if_pos rfl

-- ============================================================== conditions

/-- A condition that may be left out. -/
theorem reads_condition {condition p : Predicate}
    (halways : condition.isAlways = true → p = Predicate.always)
    (h : Reads Readers.predicate afterPredicate condition.lexemes p) :
    Reads Readers.condition (" WHERE " :: afterPredicate)
      (whereLexemes " WHERE " condition condition.lexemes) p := by
  intro n rest hrest hn
  unfold whereLexemes at hn ⊢
  unfold Readers.condition
  by_cases hc : condition.isAlways = true
  · have hnone : tokensOf [] ++ rest = rest := rfl
    rw [if_pos hc, hnone, hrest.skip _ List.mem_cons_self, halways hc]
  · rw [if_neg hc, tokensOf_plain, List.append_assoc] at hn ⊢
    rw [skip?_plain]
    exact h n rest (hrest.mono (List.subset_cons_self _ _)) (length_behind hn)

/-- The element that a list comprehension makes, if it says so. -/
theorem reads_result {result result' : Option Expression}
    (hnone : result = none → result' = none)
    (h : ∀ e ∈ result, ∃ e' ∈ result', Reads Readers.expression afterExpression e.lexemes e') :
    Reads Readers.result (" | " :: afterExpression) (Expression.resultLexemes result) result' := by
  intro n rest hrest hn
  unfold Readers.result
  cases result with
  | none =>
    have hempty : tokensOf (Expression.resultLexemes none) ++ rest = rest := rfl
    rw [hempty, hrest.skip _ List.mem_cons_self, hnone rfl]
  | some e =>
    obtain ⟨e', rfl, he⟩ := h e rfl
    rw [Expression.resultLexemes, tokensOf_plain, List.append_assoc] at hn ⊢
    rw [skip?_plain]
    show (Readers.expression (readersBelow n) (tokensOf e.lexemes ++ rest)).map _ = _
    rw [he n rest (hrest.mono (List.subset_cons_self _ _)) (length_behind hn)]
    rfl

/-- A case distinction is read back if its parts are. -/
theorem reads_conditional {condition yes no : List Lexeme} {p : Predicate} {a b : Expression}
    (hcondition : Reads Readers.predicate afterPredicate condition p)
    (hyes : Reads Readers.expression afterExpression yes a)
    (hno : Reads Readers.expression afterExpression no b) :
    ReadsUnsliced (.plain "CASE WHEN " :: condition ++ .plain " THEN " :: yes
      ++ .plain " ELSE " :: no ++ [.plain " END"]) (.conditional p a b) := by
  refine .of_primary fun n rest _ hn => ?_
  have hcase : plainTokens "CASE WHEN " = plainTokens "CASE" ++ plainTokens " WHEN " := rfl
  simp only [tokensOf_append, tokensOf_plain, tokensOf_nil, hcase, List.append_assoc,
    List.nil_append, List.cons_append] at hn ⊢
  have hn₁ := length_behind (length_behind_plain hn)
  have hn₂ := length_behind (length_behind hn₁)
  have hn₃ := length_behind (length_behind hn₂)
  have hp := hcondition n _ (Ends.plain (by decide) _) hn₁
  have ha := hyes n _ (Ends.plain (by decide) _) hn₂
  have hb := hno n _ (Ends.plain (by decide) _) hn₃
  have hword := primary_word (r := readersBelow n) (w := "CASE".toList) (by decide) (by decide)
    (Ends.endsName_plain (t := " WHEN ") (by decide) (tokensOf condition ++ (plainTokens " THEN "
      ++ (tokensOf yes ++ (plainTokens " ELSE " ++ (tokensOf no
        ++ (plainTokens " END" ++ rest)))))))
  show (readersBelow n).primary ("CASE".toList.map .outside ++ _) = _
  rw [hword]
  simp only [Readers.word, Readers.conditional,
    skip?_eq_none (t := "(") (s := " WHEN ") (by decide), if_true, skip?_plain, hp, ha, hb,
    Option.bind_eq_bind, Option.bind_some]

end PropertyGraphQL.Cypher
