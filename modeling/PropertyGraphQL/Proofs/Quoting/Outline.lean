/-
The lexemes of an outline.

Emptying names and string constants in a tree empties them in its lexemes and
changes nothing else, so what stands between the quoted tokens of a text is
the same for all trees of one outline.
-/
import PropertyGraphQL.Proofs.Quoting.Atoms
import PropertyGraphQL.Proofs.Quoting.Scan

namespace PropertyGraphQL.Cypher

-- ================================================================ lexemes

/-- The token with nothing between its quotes. -/
def Token.outline : Token → Token
  | identifier _ => identifier ""
  | string _ => string ""
  | outside c => outside c

/-- The lexeme with nothing between its quotes. -/
def Lexeme.outline : Lexeme → Lexeme
  | identifier _ => identifier ""
  | string _ => string ""
  | other => other

/-- Lexemes with nothing between their quotes. -/
def outlineOf (lexemes : List Lexeme) : List Lexeme := lexemes.map Lexeme.outline

theorem outlineOf_append (a b : List Lexeme) : outlineOf (a ++ b) = outlineOf a ++ outlineOf b :=
  List.map_append

theorem outlineOf_cons (l : Lexeme) (a : List Lexeme) :
    outlineOf (l :: a) = l.outline :: outlineOf a :=
  List.map_cons

/-- Plain text is its own outline. -/
theorem map_outline_plainTokens (text : String) :
    (plainTokens text).map Token.outline = plainTokens text := by
  unfold plainTokens
  rw [List.map_map]
  rfl

/-- Emptying lexemes empties their tokens. -/
theorem tokensOf_outlineOf (lexemes : List Lexeme) :
    tokensOf (outlineOf lexemes) = (tokensOf lexemes).map Token.outline := by
  induction lexemes with
  | nil => rfl
  | cons l rest ih =>
    have hl : l.outline.tokens = l.tokens.map Token.outline := by
      cases l with
      | plain text => exact (map_outline_plainTokens text).symm
      | identifier name => rfl
      | string value => rfl
      | parameter name =>
        show Token.outside '$' :: plainTokens name
          = .outside '$' :: (plainTokens name).map Token.outline
        rw [map_outline_plainTokens]
    rw [outlineOf_cons, tokensOf_cons, tokensOf_cons, List.map_append, hl, ih]

section

variable {a : List Lexeme}

/-- Separators stay in the outline. -/
theorem outlineOf_separated (separator : String) (groups : List (List Lexeme)) :
    outlineOf (separated separator groups) = separated separator (groups.map outlineOf) := by
  induction groups with
  | nil => rfl
  | cons group rest ih =>
    cases rest with
    | nil => rfl
    | cons next rest =>
      show outlineOf (group ++ .plain separator :: separated separator (next :: rest)) = _
      rw [outlineOf_append, outlineOf_cons, ih]
      rfl

/-- Parentheses stay in the outline. -/
theorem outlineOf_parenthesized (needed : Bool) (a : List Lexeme) :
    outlineOf (parenthesized needed a) = parenthesized needed (outlineOf a) := by
  cases needed with
  | true =>
    show outlineOf (.plain "(" :: a ++ [.plain ")"]) = _
    rw [outlineOf_append]
    rfl
  | false => rfl

theorem outlineOf_binderLexemes (name? : Option String) :
    outlineOf (binderLexemes name?) = binderLexemes (binderOutline name?) := by
  cases name? <;> rfl

theorem outlineOf_boundLexemes (bound : Option Int) :
    outlineOf (boundLexemes bound) = boundLexemes bound := by
  cases bound <;> rfl

/-- There are as many labels in the outline. -/
theorem outlineOf_labelLexemes (labels : List String) :
    outlineOf (labelLexemes labels) = labelLexemes (labelOutlines labels) := by
  induction labels with
  | nil => rfl
  | cons label rest ih =>
    show .plain ":" :: .identifier "" :: outlineOf (labelLexemes rest) = _
    rw [ih]
    rfl

end

/-- The outline of a relationship is written as its lexemes are outlined. -/
theorem RelationshipPattern.lexemes_outline (r : RelationshipPattern) :
    r.outline.lexemes = outlineOf r.lexemes := by
  obtain ⟨binder, relType, direction⟩ := r
  cases binder <;> cases direction <;> rfl

-- ============================================================== constants

namespace Literal

mutual

/-- The outline of a literal is written as its lexemes are outlined. -/
theorem lexemes_outline (l : Literal) : l.outline.lexemes = outlineOf l.lexemes := by
  cases l with
  | list elems =>
    rw [outline, lexemes, lexemes, outlineOf_append, outlineOf_cons, outlineOf_separated,
      elemLexemes_outline elems]
    rfl
  | map entries =>
    rw [outline, lexemes, lexemes, outlineOf_append, outlineOf_cons, outlineOf_separated,
      entryListLexemes_outline entries]
    rfl
  | null | boolean _ | int _ | float _ | string _ => rfl

/-- The outlines of literal elements are written as their lexemes are outlined. -/
theorem elemLexemes_outline (elems : List Literal) :
    elemLexemes (elemOutlines elems) = (elemLexemes elems).map outlineOf := by
  match elems with
  | [] => rfl
  | l :: rest =>
    rw [elemOutlines, elemLexemes, elemLexemes, lexemes_outline l, elemLexemes_outline rest]
    rfl

/-- The outlines of literal entries are written as their lexemes are outlined. -/
theorem entryListLexemes_outline (entries : List (String × Literal)) :
    entryListLexemes (entryOutlines entries) = (entryListLexemes entries).map outlineOf := by
  match entries with
  | [] => rfl
  | (key, l) :: rest =>
    rw [entryOutlines, entryListLexemes, entryListLexemes, lexemes_outline l,
      entryListLexemes_outline rest]
    rfl

end

end Literal

-- ============================================================ expressions

theorem Predicate.isAlways_outline (p : Predicate) : p.outline.isAlways = p.isAlways := by
  cases p <;> rfl

theorem Predicate.looseInAnd_outline (p : Predicate) :
    p.outline.looseInAnd = p.looseInAnd := by
  cases p <;> rfl

theorem Predicate.looseInOr_outline (p : Predicate) : p.outline.looseInOr = p.looseInOr := by
  cases p <;> rfl

/-- Whether there is a keyword for a condition is told by its outline. -/
theorem outlineOf_whereLexemes (keyword : String) (condition : Predicate) (a : List Lexeme) :
    outlineOf (whereLexemes keyword condition a)
      = whereLexemes keyword condition.outline (outlineOf a) := by
  unfold whereLexemes
  rw [condition.isAlways_outline]
  split
  · rfl
  · rfl

/-- The lexemes of a map's entries, or of nothing if there are none. -/
theorem outlineOf_properties (properties : List (String × Expression)) (a : List Lexeme) :
    outlineOf (if properties.isEmpty then [] else a)
      = if (Expression.entriesOutlines properties).isEmpty then [] else outlineOf a := by
  cases properties with
  | nil => rfl
  | cons entry rest => rfl

mutual

/-- Emptying an expression empties its lexemes. -/
theorem Expression.lexemes_outline (e : Expression) : e.outline.lexemes = outlineOf e.lexemes := by
  cases e with
  | literal l => exact l.lexemes_outline
  | parameter _ | var _ | property _ _ | countAll => rfl
  | call function args =>
    rw [Expression.outline, Expression.lexemes, Expression.lexemes, outlineOf_append,
      outlineOf_cons, outlineOf_cons, outlineOf_separated, Expression.listLexemes_outlines args]
    rfl
  | map entries =>
    rw [Expression.outline, Expression.lexemes, Expression.lexemes, outlineOf_append,
      outlineOf_cons, outlineOf_separated, Expression.entriesLexemes_outlines entries]
    rfl
  | projection owner items =>
    rw [Expression.outline, Expression.lexemes, Expression.lexemes, outlineOf_append,
      outlineOf_cons, outlineOf_cons, outlineOf_separated, MapItem.listLexemes_outlines items]
    rfl
  | list elems =>
    rw [Expression.outline, Expression.lexemes, Expression.lexemes, outlineOf_append,
      outlineOf_cons, outlineOf_separated, Expression.listLexemes_outlines elems]
    rfl
  | patternComprehension pattern condition result =>
    rw [Expression.outline, Expression.lexemes, Expression.lexemes, Pattern.lexemes_outline pattern,
      Predicate.lexemes_outline condition, Expression.lexemes_outline result]
    simp only [outlineOf_append, outlineOf_cons, outlineOf_whereLexemes]
    rfl
  | listComprehension binder source condition result =>
    rw [Expression.outline, Expression.lexemes, Expression.lexemes,
      Expression.lexemes_outline source, Predicate.lexemes_outline condition,
      Expression.resultLexemes_outline result]
    simp only [outlineOf_append, outlineOf_cons, outlineOf_whereLexemes]
    rfl
  | slice source lower upper =>
    rw [Expression.outline, Expression.lexemes, Expression.lexemes,
      Expression.lexemes_outline source]
    simp only [outlineOf_append, outlineOf_cons, outlineOf_boundLexemes]
    rfl
  | conditional condition yes no =>
    rw [Expression.outline, Expression.lexemes, Expression.lexemes,
      Predicate.lexemes_outline condition, Expression.lexemes_outline yes,
      Expression.lexemes_outline no]
    simp only [outlineOf_append, outlineOf_cons]
    rfl

/-- The outline of a result is written as its lexemes are outlined. -/
theorem Expression.resultLexemes_outline (result : Option Expression) :
    Expression.resultLexemes (Expression.resultOutline result)
      = outlineOf (Expression.resultLexemes result) := by
  cases result with
  | none => rfl
  | some e =>
    rw [Expression.resultOutline, Expression.resultLexemes, Expression.resultLexemes,
      Expression.lexemes_outline e]
    rfl

/-- The outlines of expressions are written as their lexemes are outlined. -/
theorem Expression.listLexemes_outlines (es : List Expression) :
    Expression.listLexemes (Expression.listOutlines es)
      = (Expression.listLexemes es).map outlineOf := by
  match es with
  | [] => rfl
  | e :: rest =>
    rw [Expression.listOutlines, Expression.listLexemes, Expression.listLexemes,
      Expression.lexemes_outline e, Expression.listLexemes_outlines rest]
    rfl

/-- The outlines of entries are written as their lexemes are outlined. -/
theorem Expression.entriesLexemes_outlines (entries : List (String × Expression)) :
    Expression.entriesLexemes (Expression.entriesOutlines entries)
      = (Expression.entriesLexemes entries).map outlineOf := by
  match entries with
  | [] => rfl
  | (key, e) :: rest =>
    rw [Expression.entriesOutlines, Expression.entriesLexemes, Expression.entriesLexemes,
      Expression.lexemes_outline e, Expression.entriesLexemes_outlines rest]
    rfl

/-- The outline of an item is written as its lexemes are outlined. -/
theorem MapItem.lexemes_outline (item : MapItem) :
    item.outline.lexemes = outlineOf item.lexemes := by
  cases item with
  | property key => rfl
  | entry key value =>
    rw [MapItem.outline, MapItem.lexemes, MapItem.lexemes, Expression.lexemes_outline value]
    rfl

theorem MapItem.listLexemes_outlines (items : List MapItem) :
    MapItem.listLexemes (MapItem.listOutlines items)
      = (MapItem.listLexemes items).map outlineOf := by
  match items with
  | [] => rfl
  | item :: rest =>
    rw [MapItem.listOutlines, MapItem.listLexemes, MapItem.listLexemes,
      MapItem.lexemes_outline item, MapItem.listLexemes_outlines rest]
    rfl

/-- The outline of a node is written as its lexemes are outlined. -/
theorem NodePattern.lexemes_outline (node : NodePattern) :
    node.outline.lexemes = outlineOf node.lexemes := by
  obtain ⟨binder, labels, properties⟩ := node
  rw [NodePattern.outline, NodePattern.lexemes, NodePattern.lexemes,
    Expression.entriesLexemes_outlines properties]
  simp only [outlineOf_append, outlineOf_cons, outlineOf_binderLexemes, outlineOf_labelLexemes,
    outlineOf_properties, outlineOf_separated]
  rfl

/-- The outlines of hops are written as their lexemes are outlined. -/
theorem NodePattern.hopsLexemes_outlines (hops : List (RelationshipPattern × NodePattern)) :
    NodePattern.hopsLexemes (NodePattern.hopsOutlines hops)
      = outlineOf (NodePattern.hopsLexemes hops) := by
  match hops with
  | [] => rfl
  | (r, node) :: rest =>
    rw [NodePattern.hopsOutlines, NodePattern.hopsLexemes, NodePattern.hopsLexemes,
      outlineOf_append, outlineOf_append, r.lexemes_outline, NodePattern.lexemes_outline node,
      NodePattern.hopsLexemes_outlines rest]

/-- The outline of a pattern is written as its lexemes are outlined. -/
theorem Pattern.lexemes_outline (pattern : Pattern) :
    pattern.outline.lexemes = outlineOf pattern.lexemes := by
  obtain ⟨start, hops⟩ := pattern
  rw [Pattern.outline, Pattern.lexemes, Pattern.lexemes, outlineOf_append,
    NodePattern.lexemes_outline start, NodePattern.hopsLexemes_outlines hops]

/-- Emptying a predicate empties its lexemes. -/
theorem Predicate.lexemes_outline (p : Predicate) : p.outline.lexemes = outlineOf p.lexemes := by
  cases p with
  | always | never => rfl
  | compare comparison lhs rhs =>
    rw [Predicate.outline, Predicate.lexemes, Predicate.lexemes, Expression.lexemes_outline lhs,
      Expression.lexemes_outline rhs, outlineOf_append]
    rfl
  | isNull subject | isNotNull subject =>
    rw [Predicate.outline, Predicate.lexemes, Predicate.lexemes,
      Expression.lexemes_outline subject, outlineOf_append]
    rfl
  | quantified quantifier binder source condition =>
    rw [Predicate.outline, Predicate.lexemes, Predicate.lexemes, Expression.lexemes_outline source,
      Predicate.lexemes_outline condition]
    simp only [outlineOf_append, outlineOf_cons]
    rfl
  | conj lhs rhs =>
    -- parentheses are put by the shape alone, which an outline keeps
    rw [Predicate.outline, Predicate.lexemes, Predicate.lexemes, Predicate.lexemes_outline lhs,
      Predicate.lexemes_outline rhs, lhs.looseInAnd_outline, rhs.looseInAnd_outline,
      outlineOf_append, outlineOf_cons, outlineOf_parenthesized, outlineOf_parenthesized]
    rfl
  | disj lhs rhs =>
    rw [Predicate.outline, Predicate.lexemes, Predicate.lexemes, Predicate.lexemes_outline lhs,
      Predicate.lexemes_outline rhs, lhs.looseInOr_outline, rhs.looseInOr_outline,
      outlineOf_append, outlineOf_cons, outlineOf_parenthesized, outlineOf_parenthesized]
    rfl
  | neg inner =>
    rw [Predicate.outline, Predicate.lexemes, Predicate.lexemes, Predicate.lexemes_outline inner,
      outlineOf_append]
    rfl

end

end PropertyGraphQL.Cypher
