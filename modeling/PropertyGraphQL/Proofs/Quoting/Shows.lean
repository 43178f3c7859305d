/-
What is quoted in the text of an expression.

Every form of an expression is put together from lexemes in such a way that
the text is scanned to the tokens of its lexemes, and that the quoted tokens
are the atoms of the expression in their order (`Shows`). There is one lemma
for every way of putting lexemes together, and one theorem for expressions,
patterns and predicates, mutual like the data.

The names of functions and parameters are written as they are, so they have
to be plain for this.
-/
import PropertyGraphQL.Proofs.Quoting.Atoms
import PropertyGraphQL.Proofs.Quoting.Scan

namespace PropertyGraphQL.Cypher

-- =========================================================== plain names

/-- A letter, a digit, an underscore or a dot. Whatever is not ASCII counts as
a letter. -/
def IsNameChar (c : Char) : Prop := c.isAlphanum ∨ c = '_' ∨ c = '.' ∨ 128 ≤ c.toNat

instance (c : Char) : Decidable (IsNameChar c) :=
  inferInstanceAs (Decidable (_ ∨ _ ∨ _ ∨ _))

instance (chars : List Char) : Decidable (∀ c ∈ chars, IsNameChar c) :=
  List.decidableBAll IsNameChar chars

/-- A name that needs no quotes. -/
def PlainName (name : String) : Prop := ∀ c ∈ name.toList, IsNameChar c

instance (name : String) : Decidable (PlainName name) :=
  List.decidableBAll IsNameChar name.toList

/-- The atom is written in quotes, or is a plain name. -/
def Atom.IsPlain : Atom → Prop
  | .function name => PlainName name
  | .parameter name => PlainName name
  | _ => True

instance : (a : Atom) → Decidable a.IsPlain
  | .function name => inferInstanceAs (Decidable (PlainName name))
  | .parameter name => inferInstanceAs (Decidable (PlainName name))
  | .identifier _ => isTrue trivial
  | .string _ => isTrue trivial
  | .float _ => isTrue trivial

/-- Characters of names quote nothing. -/
theorem IsNameChar.isUnquoted {c : Char} (h : IsNameChar c) : IsUnquoted c := by
  constructor
  · rintro rfl
    exact absurd h (by decide)
  · rintro rfl
    exact absurd h (by decide)

theorem PlainName.unquoted {name : String} (h : PlainName name) : Unquoted name :=
  fun c hc => (h c hc).isUnquoted

-- =============================================================== numbers

theorem isUnquoted_of_isDigit {c : Char} (h : c.isDigit) : IsUnquoted c :=
  IsNameChar.isUnquoted (.inl (by simp [Char.isAlphanum, h]))

theorem isUnquoted_of_mem_toDigits {n : Nat} : ∀ c ∈ Nat.toDigits 10 n, IsUnquoted c :=
  fun _ hc => isUnquoted_of_isDigit (Nat.isDigit_of_mem_toDigits (by decide) (by decide) hc)

/-- The text of an integer has no quotes. -/
theorem unquoted_integerText (n : Int) : Unquoted (Json.integerText n) := by
  have hrepr : ∀ c ∈ n.natAbs.repr.toList, IsUnquoted c := by
    rw [Nat.toList_repr]
    exact isUnquoted_of_mem_toDigits
  have hminus : ∀ c ∈ "-".toList, IsUnquoted c := by decide
  unfold Json.integerText
  split
  · unfold Unquoted
    rw [String.toList_append]
    exact List.forall_mem_append.mpr ⟨hminus, hrepr⟩
  · exact hrepr

/-- Digits with a decimal point and zeros around them have no quotes. -/
theorem isUnquoted_of_mem_positional {digits : List Char} (h : ∀ c ∈ digits, IsUnquoted c)
    (point : Int) : ∀ c ∈ Binary64.positional digits point, IsUnquoted c := by
  have hzeros : ∀ n, ∀ c ∈ List.replicate n '0', IsUnquoted c := by
    intro n c hc
    rw [List.eq_of_mem_replicate hc]
    decide
  unfold Binary64.positional
  split
  · have hlead : ∀ c ∈ ['0', '.'], IsUnquoted c := by decide
    exact List.forall_mem_append.mpr
      ⟨List.forall_mem_append.mpr ⟨hlead, hzeros _⟩, h⟩
  · split
    · have htail : ∀ c ∈ ['.', '0'], IsUnquoted c := by decide
      exact List.forall_mem_append.mpr
        ⟨List.forall_mem_append.mpr ⟨h, hzeros _⟩, htail⟩
    · have hpoint : ∀ c ∈ ['.'], IsUnquoted c := by decide
      refine List.forall_mem_append.mpr ⟨List.forall_mem_append.mpr ⟨?_, hpoint⟩, ?_⟩
      · exact fun c hc => h c (List.mem_of_mem_take hc)
      · exact fun c hc => h c (List.mem_of_mem_drop hc)

/-- Digits with a decimal point and an exponent have no quotes. -/
theorem isUnquoted_of_mem_scientific {digits : List Char} (h : ∀ c ∈ digits, IsUnquoted c)
    (plus : Bool) (exponent : Int) :
    ∀ c ∈ Binary64.scientific plus digits exponent, IsUnquoted c := by
  cases digits with
  | nil => exact List.forall_mem_nil _
  | cons first rest =>
    obtain ⟨hfirst, hrest⟩ := List.forall_mem_cons.mp h
    have hfraction : ∀ c ∈ if rest.isEmpty then [] else '.' :: rest, IsUnquoted c := by
      split
      · exact List.forall_mem_nil _
      · exact List.forall_mem_cons.mpr ⟨by decide, hrest⟩
    have hmark : ∀ c ∈ if exponent < 0 then ['e', '-'] else if plus then ['e', '+'] else ['e'],
        IsUnquoted c := by
      split
      · decide
      · split <;> decide
    exact List.forall_mem_append.mpr
      ⟨List.forall_mem_append.mpr ⟨List.forall_mem_cons.mpr ⟨hfirst, hfraction⟩, hmark⟩,
        isUnquoted_of_mem_toDigits⟩

/-- The text of a number has no quotes, in any format. -/
theorem unquoted_floatText (format : FloatFormat) (x : Binary64) : Unquoted (x.text format) := by
  have hsign : ∀ c ∈ if x.isNegative then ['-'] else [], IsUnquoted c := by
    split <;> decide
  unfold Binary64.text Unquoted
  rw [String.toList_ofList]
  split
  · decide
  · split
    · exact List.forall_mem_append.mpr ⟨hsign, by decide⟩
    · split
      · exact List.forall_mem_append.mpr ⟨hsign, by decide⟩
      · refine List.forall_mem_append.mpr ⟨hsign, ?_⟩
        split
        · exact isUnquoted_of_mem_positional isUnquoted_of_mem_toDigits _
        · exact isUnquoted_of_mem_scientific isUnquoted_of_mem_toDigits _ _

-- ========================================================= quoted tokens

namespace Token

/-- A name or a string constant. -/
def isQuoted : Token → Bool
  | outside _ => false
  | _ => true

end Token

/-- The quoted token that is written for an atom. -/
def Atom.token? : Atom → Option Token
  | .identifier name => some (.identifier name)
  | .string value => some (.string value)
  | _ => none

/-- The quoted tokens for atoms, in their order. -/
def quotedTokens (atoms : List Atom) : List Token := atoms.filterMap Atom.token?

theorem quotedTokens_append (x y : List Atom) :
    quotedTokens (x ++ y) = quotedTokens x ++ quotedTokens y :=
  List.filterMap_append

/-- Plain text has no quoted tokens. -/
theorem filter_isQuoted_plainTokens (text : String) :
    (plainTokens text).filter Token.isQuoted = [] := by
  unfold plainTokens
  rw [List.filter_map]
  exact List.map_eq_nil_iff.mpr (List.filter_eq_nil_iff.mpr fun _ _ h => Bool.noConfusion h)

/-- If the atoms are plain, the lexemes are scanned to their tokens, and the
quoted ones among these are those for the atoms. -/
structure Shows (lexemes : List Lexeme) (atoms : List Atom) : Prop where
  scanned : (∀ a ∈ atoms, a.IsPlain) → Scanned lexemes
  quoted : (tokensOf lexemes).filter Token.isQuoted = quotedTokens atoms

/-- Groups of lexemes show atoms one group after the other. -/
inductive ShowEach : List (List Lexeme) → List Atom → Prop where
  | nil : ShowEach [] []
  | cons {group : List Lexeme} {groups : List (List Lexeme)} {x y : List Atom} :
      Shows group x → ShowEach groups y → ShowEach (group :: groups) (x ++ y)

namespace Shows

variable {a b : List Lexeme} {x y : List Atom}

theorem nil : Shows [] [] :=
  ⟨fun _ => Scanned.nil, rfl⟩

/-- A text shows the atoms of its parts, if the second does not open with a quote. -/
theorem append (ha : Shows a x) (hb : Shows b y) (hopens : Opens b) : Shows (a ++ b) (x ++ y) := by
  refine ⟨fun hplain => ?_, ?_⟩
  · obtain ⟨hx, hy⟩ := List.forall_mem_append.mp hplain
    exact (ha.scanned hx).append (hb.scanned hy) hopens
  · rw [tokensOf_append, List.filter_append, ha.quoted, hb.quoted, quotedTokens_append]

/-- Plain text without quotes shows nothing. -/
theorem plain {t : String} (ha : Shows a x) (h : Unquoted t := by decide) :
    Shows (.plain t :: a) x := by
  refine ⟨fun hplain => (ha.scanned hplain).plain h, ?_⟩
  rw [tokensOf_cons, List.filter_append, ha.quoted]
  show (plainTokens t).filter Token.isQuoted ++ quotedTokens x = quotedTokens x
  rw [filter_isQuoted_plainTokens, List.nil_append]

theorem identifier (name : String) : Shows [.identifier name] [.identifier name] :=
  ⟨fun _ => Scanned.identifier name, rfl⟩

theorem string (value : String) : Shows [.string value] [.string value] :=
  ⟨fun _ => Scanned.string value, rfl⟩

theorem parameter (name : String) : Shows [.parameter name] [.parameter name] := by
  refine ⟨fun hplain => ?_, ?_⟩
  · have hname : PlainName name := hplain _ List.mem_cons_self
    exact Scanned.parameter hname.unquoted
  · show (plainTokens name ++ []).filter Token.isQuoted = []
    rw [List.append_nil, filter_isQuoted_plainTokens]

/-- The name of a function in front of what shows its arguments. -/
theorem function (name : String) (ha : Shows a x) :
    Shows (.plain name :: a) (.function name :: x) := by
  refine ⟨fun hplain => ?_, ?_⟩
  · obtain ⟨hname, hx⟩ := List.forall_mem_cons.mp hplain
    have hname : PlainName name := hname
    exact (ha.scanned hx).plain hname.unquoted
  · rw [tokensOf_cons, List.filter_append, ha.quoted]
    show (plainTokens name).filter Token.isQuoted ++ quotedTokens x = quotedTokens x
    rw [filter_isQuoted_plainTokens, List.nil_append]

theorem float (value : Binary64) :
    Shows [.plain (value.text Literal.floatFormat)] [.float value] := by
  have htext := nil.plain (unquoted_floatText Literal.floatFormat value)
  exact ⟨fun _ => htext.scanned fun _ h => absurd h List.not_mem_nil, htext.quoted⟩

/-- Lexemes closed off by a piece of plain text. -/
theorem closed {t : String} (ha : Shows a x) (h : Unquoted t := by decide)
    (hne : t ≠ "" := by decide) : Shows (a ++ [.plain t]) x := by
  have hall := ha.append (nil.plain h) (Opens.plain hne h [])
  rwa [List.append_nil] at hall

/-- A name in front of what may stand behind one. -/
theorem named (name : String) (ha : Shows a x) (hopens : Opens a) :
    Shows (.identifier name :: a) (.identifier name :: x) :=
  (identifier name).append ha hopens

/-- Texts with separators show the atoms of each. -/
theorem separated {groups : List (List Lexeme)} {s : String} (h : ShowEach groups x)
    (hplain : Unquoted s := by decide) (hne : s ≠ "" := by decide) :
    Shows (separated s groups) x := by
  induction h with
  | nil => exact nil
  | @cons group groups x y hgroup hgroups ih =>
    cases groups with
    | nil =>
      cases hgroups
      rw [List.append_nil]
      exact hgroup
    | cons next rest => exact hgroup.append (ih.plain hplain) (Opens.plain hne hplain _)

/-- Parentheses show nothing. -/
theorem parenthesized (needed : Bool) (ha : Shows a x) : Shows (parenthesized needed a) x := by
  unfold Cypher.parenthesized
  split
  · exact ha.closed.plain
  · exact ha

/-- A condition shows its atoms, whether there is a keyword for it or not. -/
theorem whereLexemes {k : String} {condition : Predicate} (ha : Shows a condition.atoms)
    (h : Unquoted k := by decide) : Shows (whereLexemes k condition a) condition.atoms := by
  unfold Cypher.whereLexemes
  cases condition with
  | always => exact nil
  | _ => exact ha.plain h

theorem entryLexemes (key : String) (ha : Shows a x) :
    Shows (entryLexemes key a) (.identifier key :: x) :=
  ha.plain.named key (Opens.plain (by decide) (by decide) _)

/-- A variable shows its name, if it has one. -/
theorem binderLexemes (name? : Option String) :
    Shows (binderLexemes name?) (binderAtoms name?) := by
  cases name? with
  | none => exact nil
  | some name => exact identifier name

/-- Bounds show nothing. -/
theorem boundLexemes (bound : Option Int) : Shows (boundLexemes bound) [] := by
  cases bound with
  | none => exact nil
  | some n => exact nil.plain (unquoted_integerText n)

/-- A line of its own shows what is on it, if anything is. -/
theorem onOwnLine {lexemes? : Option (List Lexeme)} {atoms? : Option (List Atom)}
    (h : ∀ a ∈ lexemes?, ∃ x ∈ atoms?, Shows a x) (hnone : lexemes? = none → atoms? = none) :
    Shows (onOwnLine lexemes?) (atoms?.getD []) := by
  cases lexemes? with
  | none =>
    rw [hnone rfl]
    exact nil
  | some a =>
    obtain ⟨x, rfl, hx⟩ := h a rfl
    exact hx.plain

end Shows

namespace Opens

/-- Labels open with a colon. -/
theorem labelLexemes (labels : List String) : Opens (labelLexemes labels) := by
  cases labels with
  | nil => exact nil
  | cons label rest => exact plain (by decide) (by decide) _

theorem whereLexemes {k : String} (condition : Predicate) (a : List Lexeme)
    (hne : k ≠ "" := by decide) (h : Unquoted k := by decide) :
    Opens (whereLexemes k condition a) := by
  unfold Cypher.whereLexemes
  split
  · exact nil
  · exact plain hne h a

theorem resultLexemes (result : Option Expression) :
    Opens (Expression.resultLexemes result) := by
  cases result with
  | none => exact nil
  | some e => exact plain (by decide) (by decide) _

theorem onOwnLine (lexemes? : Option (List Lexeme)) : Opens (onOwnLine lexemes?) := by
  cases lexemes? with
  | none => exact nil
  | some a => exact plain (by decide) (by decide) a

theorem relationship (r : RelationshipPattern) : Opens r.lexemes := by
  obtain ⟨binder, relType, direction⟩ := r
  cases direction with
  | outgoing => exact plain (by decide) (by decide) _
  | incoming => exact plain (by decide) (by decide) _

/-- A node opens with a parenthesis. -/
theorem node (n : NodePattern) : Opens n.lexemes := by
  obtain ⟨binder, labels, properties⟩ := n
  rw [NodePattern.lexemes]
  exact plain (by decide) (by decide) _

/-- Hops open with an arrow or a dash. -/
theorem hopsLexemes (hops : List (RelationshipPattern × NodePattern)) :
    Opens (NodePattern.hopsLexemes hops) := by
  induction hops with
  | nil => exact nil
  | cons hop rest ih =>
    obtain ⟨r, n⟩ := hop
    rw [NodePattern.hopsLexemes]
    exact ((relationship r).append (node n)).append ih

end Opens

/-- Labels show their names. -/
theorem shows_labelLexemes (labels : List String) :
    Shows (labelLexemes labels) (labels.map .identifier) := by
  induction labels with
  | nil => exact Shows.nil
  | cons label rest ih =>
    have hlabel := (Shows.identifier label).plain (t := ":")
    exact hlabel.append ih (Opens.labelLexemes rest)

/-- A relationship shows its atoms. -/
theorem RelationshipPattern.shows_lexemes (r : RelationshipPattern) :
    Shows r.lexemes r.atoms := by
  obtain ⟨binder, relType, direction⟩ := r
  have hopens : ∀ a, Opens (.plain ":" :: a) := Opens.plain (by decide) (by decide)
  cases direction with
  | outgoing =>
    have htype : Shows [.plain ":", .identifier relType, .plain "]->"] [.identifier relType] :=
      ((Shows.identifier relType).closed).plain
    exact ((Shows.binderLexemes binder).append htype (hopens _)).plain
  | incoming =>
    have htype : Shows [.plain ":", .identifier relType, .plain "]-"] [.identifier relType] :=
      ((Shows.identifier relType).closed).plain
    exact ((Shows.binderLexemes binder).append htype (hopens _)).plain

-- ============================================================== constants

namespace Literal

mutual

/-- A literal shows its atoms. -/
theorem shows_lexemes (l : Literal) : Shows l.lexemes l.atoms := by
  cases l with
  | null =>
    rw [lexemes]
    exact Shows.nil.plain
  | boolean b =>
    rw [lexemes]
    cases b with
    | true => exact Shows.nil.plain
    | false => exact Shows.nil.plain
  | int n =>
    rw [lexemes]
    exact Shows.nil.plain (unquoted_integerText n)
  | float x =>
    rw [lexemes]
    exact Shows.float x
  | string s =>
    rw [lexemes]
    exact Shows.string s
  | list elems =>
    rw [lexemes]
    exact (Shows.separated (showEach_elemLexemes elems)).closed.plain
  | map entries =>
    rw [lexemes]
    exact (Shows.separated (showEach_entryListLexemes entries)).closed.plain

/-- Literal elements show their atoms, one after the other. -/
theorem showEach_elemLexemes (elems : List Literal) :
    ShowEach (elemLexemes elems) (elemAtoms elems) := by
  match elems with
  | [] => exact .nil
  | l :: rest => exact .cons (shows_lexemes l) (showEach_elemLexemes rest)

/-- Literal entries show their atoms, one after the other. -/
theorem showEach_entryListLexemes (entries : List (String × Literal)) :
    ShowEach (entryListLexemes entries) (entryAtoms entries) := by
  match entries with
  | [] => exact .nil
  | (key, l) :: rest =>
    exact .cons ((shows_lexemes l).entryLexemes key) (showEach_entryListLexemes rest)

end

end Literal

-- ============================================================ expressions

mutual

/-- An expression shows its atoms. -/
theorem Expression.shows_lexemes (e : Expression) : Shows e.lexemes e.atoms := by
  -- plain texts show nothing, so each case puts together what its parts show, from the end
  cases e with
  | literal l => exact l.shows_lexemes
  | parameter name => exact Shows.parameter name
  | var name => exact Shows.identifier name
  | property owner key =>
    have hkey : Shows [.plain ".", .identifier key] [.identifier key] :=
      (Shows.identifier key).plain
    exact hkey.named owner (Opens.plain (by decide) (by decide) _)
  | call function args =>
    exact (Shows.separated (Expression.showEach_listLexemes args)).closed.plain.function function
  | map entries =>
    exact (Shows.separated (Expression.showEach_entriesLexemes entries)).closed.plain
  | projection owner items =>
    have hitems := (Shows.separated (s := ", ") (MapItem.showEach_listLexemes items)).closed
      (t := "\x7d")
    exact (hitems.plain (t := " \x7b")).named owner (Opens.plain (by decide) (by decide) _)
  | list elems =>
    exact (Shows.separated (Expression.showEach_listLexemes elems)).closed.plain
  | patternComprehension pattern condition result =>
    have hpattern := Pattern.shows_lexemes pattern
    have hcondition := Predicate.shows_lexemes condition
    have hresult := (Expression.shows_lexemes result).plain (t := " | ")
    exact (((hpattern.append hcondition.whereLexemes (Opens.whereLexemes _ _)).append hresult
      (Opens.plain (by decide) (by decide) _)).closed).plain
  | listComprehension binder source condition result =>
    have hsource := (Expression.shows_lexemes source).plain (t := " IN ")
    have hcondition := (Predicate.shows_lexemes condition).whereLexemes (k := " WHERE ")
    have hresult := Expression.shows_resultLexemes result
    have hbinder := hsource.named binder (Opens.plain (by decide) (by decide) _)
    exact (((hbinder.append hcondition (Opens.whereLexemes _ _)).append hresult
      (Opens.resultLexemes result)).closed).plain
  | slice source lower upper =>
    have hsource := Expression.shows_lexemes source
    have hlower := (Shows.boundLexemes lower).plain (t := "[")
    have hupper := (Shows.boundLexemes upper).plain (t := "..")
    have hall := ((hsource.append hlower (Opens.plain (by decide) (by decide) _)).append hupper
      (Opens.plain (by decide) (by decide) _)).closed (t := "]")
    rw [List.append_nil, List.append_nil] at hall
    exact hall
  | conditional condition yes no =>
    have hcondition := Predicate.shows_lexemes condition
    have hyes := (Expression.shows_lexemes yes).plain (t := " THEN ")
    have hno := (Expression.shows_lexemes no).plain (t := " ELSE ")
    exact (((hcondition.append hyes (Opens.plain (by decide) (by decide) _)).append hno
      (Opens.plain (by decide) (by decide) _)).closed).plain
  | countAll => exact Shows.nil.plain

/-- The result of a comprehension shows its atoms, if there is one. -/
theorem Expression.shows_resultLexemes (result : Option Expression) :
    Shows (Expression.resultLexemes result) (Expression.resultAtoms result) := by
  cases result with
  | none => exact Shows.nil
  | some e => exact (Expression.shows_lexemes e).plain

/-- Expressions show their atoms, one after the other. -/
theorem Expression.showEach_listLexemes (es : List Expression) :
    ShowEach (Expression.listLexemes es) (Expression.listAtoms es) := by
  match es with
  | [] => exact .nil
  | e :: rest => exact .cons (Expression.shows_lexemes e) (Expression.showEach_listLexemes rest)

/-- Entries show their atoms, one after the other. -/
theorem Expression.showEach_entriesLexemes (entries : List (String × Expression)) :
    ShowEach (Expression.entriesLexemes entries) (Expression.entriesAtoms entries) := by
  match entries with
  | [] => exact .nil
  | (key, e) :: rest =>
    exact .cons ((Expression.shows_lexemes e).entryLexemes key)
      (Expression.showEach_entriesLexemes rest)

/-- An item shows its atoms. -/
theorem MapItem.shows_lexemes (item : MapItem) : Shows item.lexemes item.atoms := by
  cases item with
  | property key => exact (Shows.identifier key).plain
  | entry key value => exact (Expression.shows_lexemes value).entryLexemes key

/-- Items show their atoms, one after the other. -/
theorem MapItem.showEach_listLexemes (items : List MapItem) :
    ShowEach (MapItem.listLexemes items) (MapItem.listAtoms items) := by
  match items with
  | [] => exact .nil
  | item :: rest =>
    exact .cons (MapItem.shows_lexemes item) (MapItem.showEach_listLexemes rest)

/-- A node shows its atoms. -/
theorem NodePattern.shows_lexemes (node : NodePattern) : Shows node.lexemes node.atoms := by
  obtain ⟨binder, labels, properties⟩ := node
  have hproperties := Expression.showEach_entriesLexemes properties
  have hbinder := (Shows.binderLexemes binder).append (shows_labelLexemes labels)
    (Opens.labelLexemes labels)
  rw [NodePattern.lexemes, NodePattern.atoms]
  cases properties with
  | nil => exact ((hbinder.append Shows.nil Opens.nil).closed).plain
  | cons entry rest =>
    have hmap := ((Shows.separated (s := ", ") hproperties).closed (t := "\x7d")).plain
      (t := " \x7b")
    exact ((hbinder.append hmap (Opens.plain (by decide) (by decide) _)).closed).plain

/-- Hops show their atoms. -/
theorem NodePattern.shows_hopsLexemes (hops : List (RelationshipPattern × NodePattern)) :
    Shows (NodePattern.hopsLexemes hops) (NodePattern.hopsAtoms hops) := by
  match hops with
  | [] => exact Shows.nil
  | (r, node) :: rest =>
    have hhop := r.shows_lexemes.append (NodePattern.shows_lexemes node) (Opens.node node)
    rw [NodePattern.hopsLexemes, NodePattern.hopsAtoms]
    exact hhop.append (NodePattern.shows_hopsLexemes rest) (Opens.hopsLexemes rest)

/-- A pattern shows its atoms. -/
theorem Pattern.shows_lexemes (pattern : Pattern) : Shows pattern.lexemes pattern.atoms := by
  obtain ⟨start, hops⟩ := pattern
  rw [Pattern.lexemes, Pattern.atoms]
  exact (NodePattern.shows_lexemes start).append (NodePattern.shows_hopsLexemes hops)
    (Opens.hopsLexemes hops)

/-- A predicate shows its atoms. -/
theorem Predicate.shows_lexemes (p : Predicate) : Shows p.lexemes p.atoms := by
  cases p with
  | always => exact Shows.nil.plain
  | never => exact Shows.nil.plain
  | compare comparison lhs rhs =>
    have hrhs := (Expression.shows_lexemes rhs).plain (t := " ")
    have hcomparison : Unquoted comparison.text := by cases comparison <;> decide
    exact (Expression.shows_lexemes lhs).append ((hrhs.plain hcomparison).plain)
      (Opens.plain (by decide) (by decide) _)
  | isNull subject => exact (Expression.shows_lexemes subject).closed
  | isNotNull subject => exact (Expression.shows_lexemes subject).closed
  | quantified quantifier binder source condition =>
    have hsource := (Expression.shows_lexemes source).plain (t := " IN ")
    have hcondition := (Predicate.shows_lexemes condition).plain (t := " WHERE ")
    have hbinder := hsource.named binder (Opens.plain (by decide) (by decide) _)
    have hquantifier : Unquoted quantifier.text := by cases quantifier <;> decide
    exact (((hbinder.append hcondition (Opens.plain (by decide) (by decide) _)).closed).plain).plain
      hquantifier
  -- parentheses are plain text, and show nothing more
  | conj lhs rhs =>
    have hrhs := ((Predicate.shows_lexemes rhs).parenthesized rhs.looseInAnd).plain (t := " AND ")
    exact ((Predicate.shows_lexemes lhs).parenthesized _).append hrhs
      (Opens.plain (by decide) (by decide) _)
  | disj lhs rhs =>
    have hrhs := ((Predicate.shows_lexemes rhs).parenthesized rhs.looseInOr).plain (t := " OR ")
    exact ((Predicate.shows_lexemes lhs).parenthesized _).append hrhs
      (Opens.plain (by decide) (by decide) _)
  | neg inner => exact (Predicate.shows_lexemes inner).closed.plain

end

end PropertyGraphQL.Cypher
