/-
The parameters that a piece of a statement refers to, every time it does.

They are read off its lexemes, so they are what the text shows; for every kind
of expression they are those of its parts, in order. A constant has none. Two
predicates that are equal up to constants therefore refer to the same
parameters (`Predicate.references_of_same`), and a conjunction that drops a
repeated operand loses nothing: only one that is `false` as a whole does
(`Predicate.mem_references_all`).
-/
import PropertyGraphQL.Cypher.Writer
import PropertyGraphQL.Cypher.Predicate

namespace PropertyGraphQL.Cypher

-- ================================================================= lexemes

/-- The parameters that lexemes refer to, every time they do. -/
def referenced (lexemes : List Lexeme) : List String :=
  lexemes.filterMap Lexeme.parameter?

section Lexemes

variable (a b : List Lexeme)

@[simp] theorem referenced_nil : referenced [] = [] := rfl

@[simp] theorem referenced_append : referenced (a ++ b) = referenced a ++ referenced b :=
  List.filterMap_append

@[simp] theorem referenced_plain (text : String) :
    referenced (.plain text :: a) = referenced a := rfl

@[simp] theorem referenced_identifier (name : String) :
    referenced (.identifier name :: a) = referenced a := rfl

@[simp] theorem referenced_string (value : String) :
    referenced (.string value :: a) = referenced a := rfl

@[simp] theorem referenced_parameter (name : String) :
    referenced (.parameter name :: a) = name :: referenced a := rfl

/-- Separators refer to no parameters. -/
@[simp] theorem referenced_separated (separator : String) (groups : List (List Lexeme)) :
    referenced (separated separator groups) = groups.flatMap referenced := by
  match groups with
  | [] => rfl
  | [group] => simp [separated]
  | group :: next :: rest =>
    have hrest := referenced_separated separator (next :: rest)
    rw [List.flatMap_cons, ← hrest]
    exact referenced_append group _

@[simp] theorem referenced_entryLexemes (key : String) :
    referenced (entryLexemes key a) = referenced a := rfl

@[simp] theorem referenced_binderLexemes (name? : Option String) :
    referenced (binderLexemes name?) = [] := by
  cases name? <;> rfl

@[simp] theorem referenced_boundLexemes (bound : Option Int) :
    referenced (boundLexemes bound) = [] := by
  cases bound <;> rfl

@[simp] theorem referenced_labelLexemes (labels : List String) :
    referenced (labelLexemes labels) = [] := by
  induction labels with
  | nil => rfl
  | cons label rest ih => exact ih

@[simp] theorem referenced_relationship (r : RelationshipPattern) :
    referenced r.lexemes = [] := by
  unfold RelationshipPattern.lexemes
  cases r.direction <;> simp

@[simp] theorem referenced_parenthesized (needed : Bool) :
    referenced (parenthesized needed a) = referenced a := by
  cases needed <;> simp [parenthesized]

@[simp] theorem referenced_onOwnLine (lexemes? : Option (List Lexeme)) :
    referenced (onOwnLine lexemes?) = lexemes?.elim [] referenced := by
  cases lexemes? <;> rfl

end Lexemes

-- =============================================================== constants

namespace Literal

mutual

/-- Constants refer to no parameter. -/
@[simp] theorem referenced_lexemes (l : Literal) : referenced l.lexemes = [] := by
  cases l with
  | list elems => simp [lexemes, flatMap_elemLexemes elems]
  | map entries => simp [lexemes, flatMap_entryListLexemes entries]
  | _ => rfl

/-- Literal elements refer to no parameters. -/
theorem flatMap_elemLexemes (elems : List Literal) :
    (elemLexemes elems).flatMap referenced = [] := by
  match elems with
  | [] => rfl
  | l :: rest =>
    rw [elemLexemes, List.flatMap_cons, referenced_lexemes l, flatMap_elemLexemes rest]
    rfl

/-- Literal entries refer to no parameters. -/
theorem flatMap_entryListLexemes (entries : List (String × Literal)) :
    (entryListLexemes entries).flatMap referenced = [] := by
  match entries with
  | [] => rfl
  | (key, l) :: rest =>
    rw [entryListLexemes, List.flatMap_cons, referenced_entryLexemes, referenced_lexemes l,
      flatMap_entryListLexemes rest]
    rfl

end

end Literal

-- ============================================================= expressions

-- The equations of the writer are what the lemmas below rest on.
attribute [local simp] Expression.lexemes Expression.resultLexemes Expression.listLexemes
  Expression.entriesLexemes MapItem.lexemes MapItem.listLexemes NodePattern.lexemes
  NodePattern.hopsLexemes Pattern.lexemes Predicate.lexemes

/-- The parameters that an expression refers to. -/
def Expression.references (e : Expression) : List String := referenced e.lexemes

/-- The parameters that an entry of a projection refers to. -/
def MapItem.references (item : MapItem) : List String := referenced item.lexemes

/-- The parameters that the properties of a node refer to. -/
def NodePattern.references (node : NodePattern) : List String := referenced node.lexemes

/-- The parameters that a pattern refers to. -/
def Pattern.references (pattern : Pattern) : List String := referenced pattern.lexemes

/-- The parameters that a predicate refers to. -/
def Predicate.references (p : Predicate) : List String := referenced p.lexemes

/-- The lexemes of several expressions are those of each. -/
theorem Expression.listLexemes_eq_map (es : List Expression) :
    Expression.listLexemes es = es.map Expression.lexemes := by
  induction es with
  | nil => rfl
  | cons e rest ih => rw [Expression.listLexemes, ih, List.map_cons]

/-- The lexemes of entries are those of each, behind its key. -/
theorem Expression.entriesLexemes_eq_map (entries : List (String × Expression)) :
    Expression.entriesLexemes entries = entries.map fun (key, e) => entryLexemes key e.lexemes := by
  induction entries with
  | nil => rfl
  | cons entry rest ih =>
    obtain ⟨key, e⟩ := entry
    rw [Expression.entriesLexemes, ih, List.map_cons]

/-- The lexemes of several items are those of each. -/
theorem MapItem.listLexemes_eq_map (items : List MapItem) :
    MapItem.listLexemes items = items.map MapItem.lexemes := by
  induction items with
  | nil => rfl
  | cons item rest ih => rw [MapItem.listLexemes, ih, List.map_cons]

namespace Expression

@[simp] theorem references_literal (l : Literal) : (literal l).references = [] :=
  l.referenced_lexemes

@[simp] theorem references_parameter (name : String) : (parameter name).references = [name] := rfl

@[simp] theorem references_var (name : String) : (var name).references = [] := rfl

@[simp] theorem references_property (owner key : String) :
    (property owner key).references = [] := rfl

@[simp] theorem references_countAll : countAll.references = [] := rfl

@[simp] theorem references_call (function : String) (args : List Expression) :
    (call function args).references = args.flatMap references := by
  simp only [references, lexemes, listLexemes_eq_map, referenced_append, referenced_plain,
    referenced_separated, referenced_nil, List.append_nil, List.flatMap_map]
  rfl

@[simp] theorem references_map (entries : List (String × Expression)) :
    (map entries).references = entries.flatMap (·.2.references) := by
  simp [references, entriesLexemes_eq_map, List.flatMap_map]

@[simp] theorem references_projection (owner : String) (items : List MapItem) :
    (projection owner items).references = items.flatMap MapItem.references := by
  simp only [references, lexemes, MapItem.listLexemes_eq_map, referenced_append,
    referenced_identifier, referenced_plain, referenced_separated, referenced_nil,
    List.append_nil, List.flatMap_map]
  rfl

@[simp] theorem references_list (elems : List Expression) :
    (list elems).references = elems.flatMap references := by
  simp only [references, lexemes, listLexemes_eq_map, referenced_append, referenced_plain,
    referenced_separated, referenced_nil, List.append_nil, List.flatMap_map]
  rfl

end Expression

@[simp] theorem MapItem.references_property (key : String) : (property key).references = [] := rfl

@[simp] theorem MapItem.references_entry (key : String) (value : Expression) :
    (entry key value).references = value.references := rfl

/-- A condition that is left out refers to nothing. -/
@[simp] theorem Predicate.referenced_whereLexemes (keyword : String) (p : Predicate) :
    referenced (whereLexemes keyword p p.lexemes) = p.references := by
  unfold whereLexemes
  cases p <;> rfl

namespace Expression

@[simp] theorem references_patternComprehension (pattern : Pattern) (condition : Predicate)
    (result : Expression) :
    (patternComprehension pattern condition result).references
      = pattern.references ++ condition.references ++ result.references := by
  simp [references, Pattern.references]

@[simp] theorem references_listComprehension (binder : String) (source : Expression)
    (condition : Predicate) (result : Option Expression) :
    (listComprehension binder source condition result).references
      = source.references ++ condition.references ++ result.elim [] references := by
  cases result <;> simp [references]

@[simp] theorem references_slice (source : Expression) (lower upper : Option Int) :
    (slice source lower upper).references = source.references := by
  simp [references]

@[simp] theorem references_conditional (condition : Predicate) (yes no : Expression) :
    (conditional condition yes no).references
      = condition.references ++ yes.references ++ no.references := by
  simp [references, Predicate.references]

end Expression

@[simp] theorem NodePattern.references_mk (binder : Option String) (labels : List String)
    (properties : List (String × Expression)) :
    (NodePattern.mk binder labels properties).references
      = properties.flatMap (·.2.references) := by
  cases properties with
  | nil => simp [references]
  | cons entry rest =>
    simp [references, Expression.entriesLexemes_eq_map, List.flatMap_map,
      Expression.references]

@[simp] theorem Pattern.references_mk (start : NodePattern)
    (hops : List (RelationshipPattern × NodePattern)) :
    (Pattern.mk start hops).references
      = start.references ++ hops.flatMap (·.2.references) := by
  have hhops : referenced (NodePattern.hopsLexemes hops) = hops.flatMap (·.2.references) := by
    induction hops with
    | nil => rfl
    | cons hop rest ih =>
      obtain ⟨r, node⟩ := hop
      simp [ih, NodePattern.references]
  simp [references, hhops, NodePattern.references]

namespace Predicate

@[simp] theorem references_always : always.references = [] := rfl

@[simp] theorem references_never : never.references = [] := rfl

@[simp] theorem references_compare (comparison : Comparison) (lhs rhs : Expression) :
    (compare comparison lhs rhs).references = lhs.references ++ rhs.references := by
  simp [references, Expression.references]

@[simp] theorem references_isNull (subject : Expression) :
    (isNull subject).references = subject.references := by
  simp [references, Expression.references]

@[simp] theorem references_isNotNull (subject : Expression) :
    (isNotNull subject).references = subject.references := by
  simp [references, Expression.references]

@[simp] theorem references_quantified (quantifier : Quantifier) (binder : String)
    (source : Expression) (condition : Predicate) :
    (quantified quantifier binder source condition).references
      = source.references ++ condition.references := by
  simp [references, Expression.references]

@[simp] theorem references_conj (lhs rhs : Predicate) :
    (conj lhs rhs).references = lhs.references ++ rhs.references := by
  simp [references]

@[simp] theorem references_disj (lhs rhs : Predicate) :
    (disj lhs rhs).references = lhs.references ++ rhs.references := by
  simp [references]

@[simp] theorem references_neg (inner : Predicate) :
    (neg inner).references = inner.references := by
  simp [references]

end Predicate

-- ================================================================ equality

mutual

/-- Expressions that are equal up to constants refer to the same parameters. -/
theorem Expression.references_of_same (e f : Expression) (h : e.same f = true) :
    e.references = f.references := by
  cases e <;> cases f <;>
    simp only [Expression.same, Bool.and_eq_true, beq_iff_eq, Bool.false_eq_true] at h
  case literal.literal => simp
  case parameter.parameter => rw [h]
  case var.var => simp
  case property.property => simp
  case call.call => simp [Expression.references_of_sameList _ _ h.2]
  case map.map => simp [Expression.references_of_sameEntries _ _ h]
  case projection.projection => simp [MapItem.references_of_sameList _ _ h.2]
  case list.list => simp [Expression.references_of_sameList _ _ h]
  case patternComprehension.patternComprehension =>
    simp [Pattern.references_of_same _ _ h.1.1, Predicate.references_of_same _ _ h.1.2,
      Expression.references_of_same _ _ h.2]
  case listComprehension.listComprehension =>
    simp [Expression.references_of_same _ _ h.1.1.2, Predicate.references_of_same _ _ h.1.2,
      Expression.references_of_sameOption _ _ h.2]
  case slice.slice => simp [Expression.references_of_same _ _ h.1.1]
  case conditional.conditional =>
    simp [Predicate.references_of_same _ _ h.1.1, Expression.references_of_same _ _ h.1.2,
      Expression.references_of_same _ _ h.2]
  case countAll.countAll => rfl
termination_by structural e

/-- Expressions that are the same refer to the same parameters. -/
theorem Expression.references_of_sameList (es fs : List Expression)
    (h : Expression.sameList es fs = true) :
    es.flatMap Expression.references = fs.flatMap Expression.references := by
  cases es <;> cases fs <;>
    simp only [Expression.sameList, Bool.and_eq_true, Bool.false_eq_true] at h
  case nil.nil => rfl
  case cons.cons =>
    simp [Expression.references_of_same _ _ h.1, Expression.references_of_sameList _ _ h.2]
termination_by structural es

/-- Results that are the same, or both missing, refer to the same parameters. -/
theorem Expression.references_of_sameOption (e? f? : Option Expression)
    (h : Expression.sameOption e? f? = true) :
    e?.elim [] Expression.references = f?.elim [] Expression.references := by
  cases e? <;> cases f? <;> simp only [Expression.sameOption, Bool.false_eq_true] at h
  case none.none => rfl
  case some.some => simp [Expression.references_of_same _ _ h]
termination_by structural e?

/-- Entries that are the same refer to the same parameters. -/
theorem Expression.references_of_sameEntries (es fs : List (String × Expression))
    (h : Expression.sameEntries es fs = true) :
    es.flatMap (·.2.references) = fs.flatMap (·.2.references) := by
  rcases es with _ | ⟨⟨_, e⟩, es⟩ <;> rcases fs with _ | ⟨⟨_, f⟩, fs⟩ <;>
    simp only [Expression.sameEntries, Bool.and_eq_true, Bool.false_eq_true] at h
  case nil.nil => rfl
  case cons.cons =>
    simp [Expression.references_of_same _ _ h.1.2, Expression.references_of_sameEntries _ _ h.2]
termination_by structural es

/-- Items that are the same refer to the same parameters. -/
theorem MapItem.references_of_same (item other : MapItem) (h : item.same other = true) :
    item.references = other.references := by
  cases item <;> cases other <;>
    simp only [MapItem.same, Bool.and_eq_true, Bool.false_eq_true] at h
  case property.property => simp
  case entry.entry => simp [Expression.references_of_same _ _ h.2]
termination_by structural item

/-- Lists of items that are the same refer to the same parameters. -/
theorem MapItem.references_of_sameList (items others : List MapItem)
    (h : MapItem.sameList items others = true) :
    items.flatMap MapItem.references = others.flatMap MapItem.references := by
  cases items <;> cases others <;>
    simp only [MapItem.sameList, Bool.and_eq_true, Bool.false_eq_true] at h
  case nil.nil => rfl
  case cons.cons =>
    simp [MapItem.references_of_same _ _ h.1, MapItem.references_of_sameList _ _ h.2]
termination_by structural items

/-- Nodes that are the same refer to the same parameters. -/
theorem NodePattern.references_of_same (node other : NodePattern)
    (h : node.same other = true) : node.references = other.references := by
  cases node
  cases other
  simp only [NodePattern.same, Bool.and_eq_true] at h
  simp [Expression.references_of_sameEntries _ _ h.2]
termination_by structural node

/-- Hops that are the same refer to the same parameters. -/
theorem NodePattern.references_of_sameHops (hops others : List (RelationshipPattern × NodePattern))
    (h : NodePattern.sameHops hops others = true) :
    hops.flatMap (·.2.references) = others.flatMap (·.2.references) := by
  rcases hops with _ | ⟨⟨_, node⟩, hops⟩ <;> rcases others with _ | ⟨⟨_, other⟩, others⟩ <;>
    simp only [NodePattern.sameHops, Bool.and_eq_true, Bool.false_eq_true] at h
  case nil.nil => rfl
  case cons.cons =>
    simp [NodePattern.references_of_same _ _ h.1.2, NodePattern.references_of_sameHops _ _ h.2]
termination_by structural hops

/-- Patterns that are the same refer to the same parameters. -/
theorem Pattern.references_of_same (pattern other : Pattern) (h : pattern.same other = true) :
    pattern.references = other.references := by
  cases pattern
  cases other
  simp only [Pattern.same, Bool.and_eq_true] at h
  simp [NodePattern.references_of_same _ _ h.1, NodePattern.references_of_sameHops _ _ h.2]
termination_by structural pattern

/-- Predicates that are equal up to constants refer to the same parameters. -/
theorem Predicate.references_of_same (p q : Predicate) (h : p.same q = true) :
    p.references = q.references := by
  cases p <;> cases q <;>
    simp only [Predicate.same, Bool.and_eq_true, beq_iff_eq, Bool.false_eq_true] at h
  case always.always => rfl
  case never.never => rfl
  case compare.compare =>
    simp [Expression.references_of_same _ _ h.1.2, Expression.references_of_same _ _ h.2]
  case isNull.isNull => simp [Expression.references_of_same _ _ h]
  case isNotNull.isNotNull => simp [Expression.references_of_same _ _ h]
  case quantified.quantified =>
    simp [Expression.references_of_same _ _ h.1.2, Predicate.references_of_same _ _ h.2]
  case conj.conj =>
    simp [Predicate.references_of_same _ _ h.1, Predicate.references_of_same _ _ h.2]
  case disj.disj =>
    simp [Predicate.references_of_same _ _ h.1, Predicate.references_of_same _ _ h.2]
  case neg.neg => simp [Predicate.references_of_same _ _ h]
termination_by structural p

end

-- ============================================================= connectives

namespace Predicate

/-- A conjunction refers to what its operands do, unless one of them is
`false`. -/
theorem mem_references_and {p q : Predicate} (hp : p ≠ never) (hq : q ≠ never) (name : String) :
    name ∈ (p.and q).references ↔ name ∈ p.references ∨ name ∈ q.references := by
  unfold Predicate.and
  split
  · exact absurd rfl hp
  · exact absurd rfl hq
  · simp
  · simp
  · split
    · next hsame => simp [references_of_same _ _ hsame]
    · simp

/-- A conjunction never holds exactly if one of its sides is written so. -/
theorem and_eq_never_iff (p q : Predicate) : p.and q = never ↔ p = never ∨ q = never := by
  unfold Predicate.and
  split
  · simp
  · simp
  · simp
  · simp
  · next hp _ hq _ =>
    have hboth : ¬ (p = never ∨ q = never) := not_or.mpr ⟨hp, hq⟩
    refine iff_of_false ?_ hboth
    split
    · exact hp
    · exact nofun

@[simp] theorem references_not (p : Predicate) : p.not.references = p.references := by
  unfold Predicate.not
  split <;> simp

/-- Conditions that are joined one by one never hold exactly if one of them is written so. -/
theorem foldl_and_eq_never_iff (ps : List Predicate) (p : Predicate) :
    ps.foldl Predicate.and p = never ↔ p = never ∨ never ∈ ps := by
  induction ps generalizing p with
  | nil => simp
  | cons q rest ih =>
    rw [List.foldl_cons, ih, and_eq_never_iff, List.mem_cons, or_assoc, eq_comm (a := never)]

/-- Conditions that are joined one by one refer to the parameters of each, unless one of them
never holds. -/
theorem mem_references_foldl_and {ps : List Predicate} (hps : never ∉ ps) {p : Predicate}
    (hp : p ≠ never) (name : String) :
    name ∈ (ps.foldl Predicate.and p).references
      ↔ name ∈ p.references ∨ ∃ q ∈ ps, name ∈ q.references := by
  induction ps generalizing p with
  | nil => simp
  | cons q rest ih =>
    obtain ⟨hq, hrest⟩ := not_or.mp (mt List.mem_cons.mpr hps)
    have hand : p.and q ≠ never := fun h => by
      rcases (and_eq_never_iff p q).mp h with h | h
      · exact hp h
      · exact hq h.symm
    rw [List.foldl_cons, ih hrest hand, mem_references_and hp (Ne.symm hq)]
    simp [or_assoc]

/-- All conditions together refer to what each of them does, unless one of them
is `false`: then they refer to nothing. -/
theorem mem_references_all (ps : List Predicate) (name : String) :
    name ∈ (all ps).references ↔ never ∉ ps ∧ ∃ p ∈ ps, name ∈ p.references := by
  by_cases h : never ∈ ps
  · have hnever : all ps = never := (foldl_and_eq_never_iff ps .always).mpr (.inr h)
    simp [hnever, h]
  · have hreferences := mem_references_foldl_and h (p := .always) nofun name
    rw [all, hreferences]
    simp [h]

end Predicate

end PropertyGraphQL.Cypher
