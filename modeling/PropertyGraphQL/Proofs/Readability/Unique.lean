/-
A predicate can be told from its text.

The text of a predicate is read as its canonical form (`Predicate.reads`), by
one theorem for all kinds of trees, mutual like them. So two predicates are
written alike only if they have one canonical form, and the text means what
the tree means (`read?_text`).
-/
import PropertyGraphQL.Proofs.Readability.Predicate

namespace PropertyGraphQL.Cypher

-- ============================================================== constants

namespace Literal

/-- Literal elements have fronts. -/
theorem fronts_elems (elems : List Literal) (h : AllReadable (elemAtoms elems)) :
    ∀ group ∈ elemLexemes elems, Fronts group := by
  induction elems with
  | nil => exact List.forall_mem_nil _
  | cons l rest ih =>
    obtain ⟨hl, hrest⟩ := AllReadable.append h
    have hfront : Fronts l.lexemes := Expression.fronts (e := .literal l) hl
    exact List.forall_mem_cons.mpr ⟨hfront, ih hrest⟩

/-- Literal entries begin with no closing brace. -/
theorem skip?_entries (entries : List (String × Literal)) :
    ∀ group ∈ entryListLexemes entries, ∀ rest, skip? "\x7d" (tokensOf group ++ rest) = none := by
  induction entries with
  | nil => exact List.forall_mem_nil _
  | cons entry rest ih =>
    exact List.forall_mem_cons.mpr ⟨skip?_entryLexemes entry.1 entry.2.lexemes, ih⟩

mutual

/-- A literal is read back as its canonical form. -/
theorem reads (l : Literal) (h : AllReadable l.atoms) : ReadsUnsliced l.lexemes l.canonical := by
  cases l with
  | null => exact reads_constant (w := "null".toList) rfl (by decide) (by decide) (by decide) rfl
  | boolean b =>
    cases b with
    | true => exact reads_constant (w := "true".toList) rfl (by decide) (by decide) (by decide) rfl
    | false =>
      exact reads_constant (w := "false".toList) rfl (by decide) (by decide) (by decide) rfl
  | int n => exact reads_integer n
  | float x => exact absurd (h _ List.mem_cons_self) fun hfalse => hfalse
  | string s => exact reads_string s
  | list elems => exact reads_list (readEach_elems elems h) (fronts_elems elems h)
  | map entries => exact reads_map (readEach_entries entries h) (skip?_entries entries)

/-- Literal elements are read back, one after the other. -/
theorem readEach_elems (elems : List Literal) (h : AllReadable (elemAtoms elems)) :
    ReadEach Readers.expression afterExpression (elemLexemes elems) (elemCanonicals elems) := by
  match elems with
  | [] => exact .nil
  | l :: rest =>
    obtain ⟨hl, hrest⟩ := AllReadable.append h
    exact .cons (reads l hl).reads (readEach_elems rest hrest)

/-- Literal entries are read back, one after the other. -/
theorem readEach_entries (entries : List (String × Literal))
    (h : AllReadable (entryAtoms entries)) :
    ReadEach Readers.entry afterExpression (entryListLexemes entries)
      (entryCanonicals entries) := by
  match entries with
  | [] => exact .nil
  | (key, l) :: rest =>
    obtain ⟨-, hatoms⟩ := List.forall_mem_cons.mp h
    obtain ⟨hl, hrest⟩ := AllReadable.append hatoms
    exact .cons (reads_entry key (reads l hl).reads) (readEach_entries rest hrest)

end

end Literal

-- =================================================================== trees

/-- Entries begin with no closing brace. -/
theorem Expression.skip?_entriesLexemes (entries : List (String × Expression)) :
    ∀ group ∈ Expression.entriesLexemes entries, ∀ rest,
      skip? "\x7d" (tokensOf group ++ rest) = none := by
  induction entries with
  | nil => exact List.forall_mem_nil _
  | cons entry rest ih =>
    exact List.forall_mem_cons.mpr ⟨skip?_entryLexemes entry.1 entry.2.lexemes, ih⟩

/-- Items begin with no closing brace. -/
theorem MapItem.skip?_listLexemes (items : List MapItem) :
    ∀ group ∈ MapItem.listLexemes items, ∀ rest,
      skip? "\x7d" (tokensOf group ++ rest) = none := by
  induction items with
  | nil => exact List.forall_mem_nil _
  | cons item rest ih =>
    refine List.forall_mem_cons.mpr ⟨?_, ih⟩
    cases item with
    | property key => exact fun _ => skip?_eq_none_of_head rfl nofun
    | entry key value => exact skip?_entryLexemes key value.lexemes

/-- Conditions that are left out are read as the constant truth. -/
theorem Predicate.canonical_of_isAlways {p : Predicate} (h : p.isAlways = true) :
    p.canonical = Predicate.always := by
  cases p with
  | always => rfl
  | _ => cases h

/-- A node begins with its parenthesis. -/
theorem NodePattern.skip?_lexemes (node : NodePattern) (rest : List Token) :
    ∃ behind, skip? "(" (tokensOf node.lexemes ++ rest) = some behind := by
  obtain ⟨binder, labels, properties⟩ := node
  rw [NodePattern.lexemes, List.append_assoc, List.append_assoc, List.cons_append, tokensOf_plain,
    List.append_assoc]
  exact ⟨_, skip?_plain "(" _⟩

/-- A pattern begins with a parenthesis. -/
theorem Pattern.skip?_lexemes (pattern : Pattern) (rest : List Token) :
    ∃ behind, skip? "(" (tokensOf pattern.lexemes ++ rest) = some behind := by
  obtain ⟨start, hops⟩ := pattern
  rw [Pattern.lexemes, tokensOf_append, List.append_assoc]
  exact start.skip?_lexemes _

/-- The lexemes of entries are missing just if the entries are. -/
theorem Expression.isEmpty_entriesLexemes (entries : List (String × Expression)) :
    (Expression.entriesLexemes entries).isEmpty = entries.isEmpty := by
  cases entries <;> rfl

mutual

/-- An expression is read as its canonical form. -/
theorem Expression.reads (e : Expression) (h : AllReadable e.atoms) :
    ReadsUnsliced e.lexemes e.canonical := by
  cases e with
  | literal l => exact l.reads h
  | parameter name => exact reads_parameter (h _ List.mem_cons_self)
  | var name => exact reads_var name
  | property owner key => exact reads_property owner key
  | call function args =>
    obtain ⟨⟨hplain, hne⟩, hargs⟩ := List.forall_mem_cons.mp h
    exact reads_call hne hplain (Expression.readEach_list args hargs)
      (Expression.fronts_listLexemes hargs)
  | map entries =>
    exact reads_map (Expression.readEach_entries entries h)
      (Expression.skip?_entriesLexemes entries)
  | projection owner items =>
    obtain ⟨-, hitems⟩ := List.forall_mem_cons.mp h
    exact reads_projection (MapItem.readEach_list items hitems) (MapItem.skip?_listLexemes items)
  | list elems =>
    exact reads_list (Expression.readEach_list elems h) (Expression.fronts_listLexemes h)
  | patternComprehension pattern condition result =>
    obtain ⟨hfront, hresult⟩ := AllReadable.append h
    obtain ⟨hpattern, hcondition⟩ := AllReadable.append hfront
    exact reads_patternComprehension (Pattern.reads pattern hpattern)
      (fun rest => Pattern.skip?_lexemes pattern rest)
      (reads_condition Predicate.canonical_of_isAlways
        (Predicate.reads condition hcondition).reads)
      (Expression.reads result hresult).reads
  | listComprehension binder source condition result =>
    obtain ⟨-, hparts⟩ := List.forall_mem_cons.mp h
    obtain ⟨hfront, hresult⟩ := AllReadable.append hparts
    obtain ⟨hsource, hcondition⟩ := AllReadable.append hfront
    exact reads_listComprehension (Expression.reads source hsource).reads
      (reads_condition Predicate.canonical_of_isAlways
        (Predicate.reads condition hcondition).reads)
      (Expression.reads_resultLexemes result hresult)
  | slice source lower upper =>
    have hlexemes : Expression.lexemes (.slice source lower upper)
        = source.lexemes ++ sliceLexemes lower upper := by
      unfold sliceLexemes
      rw [Expression.lexemes]
      simp only [List.append_assoc]
    rw [hlexemes, Expression.canonical]
    exact (Expression.reads source h).slice lower upper
  | conditional condition yes no =>
    obtain ⟨hfront, hno⟩ := AllReadable.append h
    obtain ⟨hcondition, hyes⟩ := AllReadable.append hfront
    exact reads_conditional (Predicate.reads condition hcondition).reads
      (Expression.reads yes hyes).reads (Expression.reads no hno).reads
  | countAll => exact reads_countAll

/-- The result of a comprehension is read back, if there is one. -/
theorem Expression.reads_resultLexemes (result : Option Expression)
    (h : AllReadable (Expression.resultAtoms result)) :
    Reads Readers.result (" | " :: afterExpression) (Expression.resultLexemes result)
      (Expression.resultCanonical result) := by
  cases result with
  | none => exact reads_result (fun _ => rfl) nofun
  | some e =>
    refine reads_result nofun ?_
    rintro _ ⟨⟩
    exact ⟨e.canonical, rfl, (Expression.reads e h).reads⟩

/-- Expressions are read back, one after the other. -/
theorem Expression.readEach_list (es : List Expression)
    (h : AllReadable (Expression.listAtoms es)) :
    ReadEach Readers.expression afterExpression (Expression.listLexemes es)
      (Expression.listCanonicals es) := by
  match es with
  | [] => exact .nil
  | e :: rest =>
    obtain ⟨he, hrest⟩ := AllReadable.append h
    exact .cons (Expression.reads e he).reads (Expression.readEach_list rest hrest)

/-- Entries are read back, one after the other. -/
theorem Expression.readEach_entries (entries : List (String × Expression))
    (h : AllReadable (Expression.entriesAtoms entries)) :
    ReadEach Readers.entry afterExpression (Expression.entriesLexemes entries)
      (Expression.entriesCanonicals entries) := by
  match entries with
  | [] => exact .nil
  | (key, e) :: rest =>
    obtain ⟨-, hatoms⟩ := List.forall_mem_cons.mp h
    obtain ⟨he, hrest⟩ := AllReadable.append hatoms
    exact .cons (reads_entry key (Expression.reads e he).reads)
      (Expression.readEach_entries rest hrest)

/-- An item is read back. -/
theorem MapItem.reads (item : MapItem) (h : AllReadable item.atoms) :
    Reads Readers.item afterExpression item.lexemes item.canonical := by
  cases item with
  | property key => exact reads_item_property key
  | entry key value =>
    obtain ⟨-, hvalue⟩ := List.forall_mem_cons.mp h
    exact reads_item_entry key (Expression.reads value hvalue).reads

/-- Items are read back, one after the other. -/
theorem MapItem.readEach_list (items : List MapItem) (h : AllReadable (MapItem.listAtoms items)) :
    ReadEach Readers.item afterExpression (MapItem.listLexemes items)
      (MapItem.listCanonicals items) := by
  match items with
  | [] => exact .nil
  | item :: rest =>
    obtain ⟨hitem, hrest⟩ := AllReadable.append h
    exact .cons (MapItem.reads item hitem) (MapItem.readEach_list rest hrest)

/-- A node is read back. -/
theorem NodePattern.reads (node : NodePattern) (h : AllReadable node.atoms) :
    Reads Readers.node [] node.lexemes node.canonical := by
  obtain ⟨binder, labels, properties⟩ := node
  obtain ⟨-, hproperties⟩ := AllReadable.append h
  have hnode := reads_node binder labels (Expression.readEach_entries properties hproperties)
    (Expression.skip?_entriesLexemes properties)
  rw [Expression.isEmpty_entriesLexemes] at hnode
  rw [NodePattern.lexemes, NodePattern.canonical]
  exact hnode

/-- Hops are read back. -/
theorem NodePattern.reads_hops (hops : List (RelationshipPattern × NodePattern))
    (h : AllReadable (NodePattern.hopsAtoms hops)) :
    ReadsHops (NodePattern.hopsLexemes hops) (NodePattern.hopsCanonicals hops) := by
  match hops with
  | [] => exact ReadsHops.nil
  | (r, node) :: rest =>
    obtain ⟨hfront, hrest⟩ := AllReadable.append h
    obtain ⟨-, hnode⟩ := AllReadable.append hfront
    rw [NodePattern.hopsLexemes, NodePattern.hopsCanonicals]
    exact ReadsHops.cons (NodePattern.reads node hnode) (NodePattern.reads_hops rest hrest)

/-- A pattern is read back. -/
theorem Pattern.reads (pattern : Pattern) (h : AllReadable pattern.atoms) :
    Reads Readers.pattern afterPattern pattern.lexemes pattern.canonical := by
  obtain ⟨start, hops⟩ := pattern
  obtain ⟨hstart, hhops⟩ := AllReadable.append h
  rw [Pattern.lexemes, Pattern.canonical]
  exact reads_pattern (NodePattern.reads start hstart) (NodePattern.reads_hops hops hhops)

/-- A predicate is read as its canonical form. -/
theorem Predicate.reads (p : Predicate) (h : AllReadable p.atoms) :
    ReadsPredicate p p.canonical := by
  cases p with
  | always =>
    have htrue := Literal.reads (.boolean true) h
    exact .of_operand (reads_truth htrue
      (fun _ => Expression.opening?_lexemes (.literal (.boolean true)) h) rfl) rfl rfl rfl rfl
  | never =>
    have hfalse := Literal.reads (.boolean false) h
    exact .of_operand (reads_truth hfalse
      (fun _ => Expression.opening?_lexemes (.literal (.boolean false)) h) rfl) rfl rfl rfl rfl
  | compare c lhs rhs =>
    obtain ⟨hlhs, hrhs⟩ := AllReadable.append h
    exact .of_operand (reads_compare c (Expression.reads lhs hlhs)
      (fun _ => lhs.opening?_lexemes hlhs) (Expression.reads rhs hrhs)) rfl rfl rfl rfl
  | isNull subject =>
    exact .of_operand (reads_isNull (Expression.reads subject h)
      (fun _ => subject.opening?_lexemes h)) rfl rfl rfl rfl
  | isNotNull subject =>
    exact .of_operand (reads_isNotNull (Expression.reads subject h)
      (fun _ => subject.opening?_lexemes h)) rfl rfl rfl rfl
  | quantified q binder source condition =>
    obtain ⟨-, hparts⟩ := List.forall_mem_cons.mp h
    obtain ⟨hsource, hcondition⟩ := AllReadable.append hparts
    exact .of_operand (reads_quantified q binder (Expression.reads source hsource).reads
      (Predicate.reads condition hcondition).reads) rfl rfl rfl rfl
  -- only these two may be regrouped when they are read; all others are operands
  | conj lhs rhs =>
    obtain ⟨hlhs, hrhs⟩ := AllReadable.append h
    exact .conj (Predicate.reads lhs hlhs) (Predicate.reads rhs hrhs)
  | disj lhs rhs =>
    obtain ⟨hlhs, hrhs⟩ := AllReadable.append h
    exact .disj (Predicate.reads lhs hlhs) (Predicate.reads rhs hrhs)
  | neg inner =>
    exact .of_operand (reads_negation (Predicate.reads inner h).reads) rfl rfl rfl rfl

end

-- ============================================================== uniqueness

namespace Predicate

/-- Functions and parameters in the predicate have plain names, and no constant
in it is a float. -/
def IsReadable (p : Predicate) : Prop := AllReadable p.atoms

instance (p : Predicate) : Decidable p.IsReadable :=
  inferInstanceAs (Decidable (AllReadable p.atoms))

variable {p q : Predicate}

/-- The text of a condition is read back as its canonical form. -/
theorem read?_text (h : p.IsReadable) : read? p.text = some p.canonical := by
  have hplain : ∀ a ∈ p.atoms, a.IsPlain := fun a ha => (h a ha).isPlain
  have hscan : scan p.text.toList = some (tokensOf p.lexemes) :=
    (p.shows_lexemes.scanned hplain).scan_textOf
  have hends : Ends afterPredicate [] := Ends.nil (by decide)
  have hread := (p.reads h).reads ((tokensOf p.lexemes).length + 1) [] hends
  rw [List.append_nil] at hread
  unfold read?
  rw [hscan]
  dsimp only
  rw [hread (Nat.lt_succ_self _)]

/-- Predicates are told apart by their texts. The text of a predicate is read
as its canonical form, which has the truth of the predicate everywhere, and
just those predicates are written alike that have the same canonical form. -/
theorem text_eq_iff (hp : p.IsReadable) (hq : q.IsReadable) :
    read? p.text = some p.canonical
      ∧ (∀ db env, p.canonical.eval db env = p.eval db env)
      ∧ (p.text = q.text ↔ p.canonical = q.canonical) := by
  refine ⟨read?_text hp, fun db env => eval_canonical env p, ?_, ?_⟩
  · intro htext
    have hread := read?_text hp
    rw [htext, read?_text hq] at hread
    exact (Option.some.inj hread).symm
  · intro hcanonical
    unfold text
    rw [← p.lexemes_canonical, hcanonical, q.lexemes_canonical]

/-- Whether `owner` was born in 1964 or 1967, and more. The conjunctions are
grouped to the left or to the right, and the years are an expression or a
constant. -/
def bornThen (toLeft : Bool) (owner : String) : Predicate :=
  let years : Expression :=
    if toLeft then .list [.literal (.int 1964), .literal (.int 1967)]
    else .literal (.list [.int 1964, .int 1967])
  let born : Predicate := .compare .member (.property owner "born") years
  let known : Predicate := .isNotNull (.property owner "name")
  let famous : Predicate :=
    .disj (.neg (.isNull (.call "size" [.property owner "movies"])))
      (.eq (.property owner "name") (.parameter "name"))
  if toLeft then .conj (.conj born known) famous else .conj born (.conj known famous)

/-- Regrouping is not seen in the text, but the owner is. -/
theorem text_eq_iff_bornThen :
    (bornThen true "p").IsReadable
    ∧ (bornThen false "p").IsReadable
    ∧ (bornThen false "q").IsReadable
    ∧ read? (bornThen true "p").text = some (bornThen false "p").canonical
    ∧ (bornThen true "p").text = (bornThen false "p").text
    ∧ (bornThen true "p").text ≠ (bornThen false "q").text := by
  have hleft : (bornThen true "p").IsReadable := by decide
  have hright : (bornThen false "p").IsReadable := by decide
  have hother : (bornThen false "q").IsReadable := by decide
  obtain ⟨hread, -, hsame⟩ := text_eq_iff hleft hright
  obtain ⟨-, -, hdiffer⟩ := text_eq_iff hleft hother
  have hcanonical : (bornThen true "p").canonical = (bornThen false "p").canonical := rfl
  refine ⟨hleft, hright, hother, hread.trans (congrArg some hcanonical), hsame.mpr hcanonical, ?_⟩
  intro htext
  injection hdiffer.mp htext with hborn
  injection hborn with _ hproperty
  injection hproperty with howner
  exact absurd howner (by decide)

end Predicate

end PropertyGraphQL.Cypher
