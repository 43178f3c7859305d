/-
Reading a condition off its text.

The reader goes over the tokens of the text from the left. A negation binds
tighter than `AND`, and `AND` tighter than `OR`; what is grouped otherwise
stands in parentheses. A reader takes a part of the tokens from the front and
leaves the rest. Lists with separators (`chain`) and plain repetitions
(`many`) are read by loops; what is nested in an expression or a predicate is
read by the readers for shorter texts (`readersBelow`).
-/
import PropertyGraphQL.Proofs.Quoting.Shows

namespace PropertyGraphQL.Cypher

/-- What is read off the front of some tokens, and the tokens left over. -/
abbrev Reader (α : Type) := List Token → Option (α × List Token)

-- ============================================================ fixed texts

/-- What is left behind a fixed text. -/
def skip? (text : String) (ts : List Token) : Option (List Token) :=
  (plainTokens text).isPrefixOf? ts

/-- The characters at the front that have a property. -/
def takeChars (p : Char → Bool) : List Token → List Char × List Token
  | .outside c :: ts =>
      if p c then ((takeChars p ts).1.cons c, (takeChars p ts).2) else ([], .outside c :: ts)
  | ts => ([], ts)

/-- The name at the front. -/
def takeName (ts : List Token) : List Char × List Token := takeChars (IsNameChar ·) ts

def identifier? : Reader String
  | .identifier name :: rest => some (name, rest)
  | _ => none

/-- A name bound by what follows: the front of a list comprehension or of a
quantifier. -/
def binding? : Reader String := fun ts => do
  let (name, rest) ← identifier? ts
  let rest ← skip? " IN " rest
  some (name, rest)

/-- A name that may be missing. -/
def optionalIdentifier : List Token → Option String × List Token
  | .identifier name :: rest => (some name, rest)
  | ts => (none, ts)

-- ================================================================= loops

/-- One thing or several with a word between any two, joined to the right. -/
def chain {α : Type} (one : Reader α) (word : String) (join : α → α → α) (ts : List Token) :
    Option (α × List Token) :=
  match one ts with
  | none => none
  | some (x, rest) =>
      match skip? word rest with
      | none => some (x, rest)
      | some behind =>
          if behind.length < ts.length then
            (chain one word join behind).map fun (y, rest) => (join x y, rest)
          else none
termination_by ts.length

/-- As many things one after the other as there are. -/
def many {α : Type} (one : Reader α) (ts : List Token) : List α × List Token :=
  match one ts with
  | none => ([], ts)
  | some (x, rest) =>
      if rest.length < ts.length then (x :: (many one rest).1, (many one rest).2) else ([], ts)
termination_by ts.length

/-- Things with commas between them, up to a closing text. -/
def listUntil {α : Type} (one : Reader α) (close : String) : Reader (List α) := fun ts =>
  match skip? close ts with
  | some rest => some ([], rest)
  | none => do
      let single : Reader (List α) := fun ts => (one ts).map fun (x, rest) => ([x], rest)
      let (xs, rest) ← chain single ", " (· ++ ·) ts
      let rest ← skip? close rest
      some (xs, rest)

-- =============================================================== numbers

/-- The number with the given decimal digits. -/
def natural? (digits : List Char) : Option Nat :=
  if digits ≠ [] ∧ digits.all Char.isDigit then some (Nat.ofDigitChars 10 digits 0) else none

/-- A number, or nothing for an open bound. -/
def bound (ts : List Token) : Option Int × List Token :=
  match skip? "-" ts with
  | some rest =>
      ((natural? (takeChars Char.isDigit rest).1).map fun (n : Nat) => -(n : Int),
        (takeChars Char.isDigit rest).2)
  | none =>
      ((natural? (takeChars Char.isDigit ts).1).map Int.ofNat, (takeChars Char.isDigit ts).2)

/-- The bounds of a slice. -/
def bounds? : Reader (Option Int × Option Int) := fun ts => do
  let rest ← skip? "[" ts
  let (lower, rest) := bound rest
  let rest ← skip? ".." rest
  let (upper, rest) := bound rest
  let rest ← skip? "]" rest
  some ((lower, upper), rest)

/-- The constant that a word is. -/
def constant? (word : List Char) : Option Literal :=
  if word = "null".toList then some .null
  else if word = "true".toList then some (.boolean true)
  else if word = "false".toList then some (.boolean false)
  else (natural? word).map fun (n : Nat) => .int n

-- ================================================================ readers

/-- Readers for the two kinds of trees. -/
structure Readers where
  expression : Reader Expression
  predicate : Reader Predicate

namespace Readers

variable (r : Readers)

def entry : Reader (String × Expression) := fun ts => do
  let (key, rest) ← identifier? ts
  let rest ← skip? ": " rest
  let (e, rest) ← r.expression rest
  some ((key, e), rest)

def item : Reader MapItem := fun ts =>
  match skip? "." ts with
  | some rest => (identifier? rest).map fun (key, rest) => (.property key, rest)
  | none => (r.entry ts).map fun ((key, e), rest) => (.entry key e, rest)

/-- A condition behind its keyword; without one there is none. -/
def condition : Reader Predicate := fun ts =>
  match skip? " WHERE " ts with
  | some rest => r.predicate rest
  | none => some (.always, ts)

/-- The element of a list comprehension, if it is said. -/
def result : Reader (Option Expression) := fun ts =>
  match skip? " | " ts with
  | some rest => (r.expression rest).map fun (e, rest) => (some e, rest)
  | none => some (none, ts)

-- =============================================================== patterns

def label : Reader String := fun ts => (skip? ":" ts).bind identifier?

def properties : Reader (List (String × Expression)) := fun ts =>
  match skip? " \x7b" ts with
  | some rest => listUntil r.entry "\x7d" rest
  | none => some ([], ts)

def node : Reader NodePattern := fun ts => do
  let rest ← skip? "(" ts
  let (binder, rest) := optionalIdentifier rest
  let (labels, rest) := many label rest
  let (entries, rest) ← r.properties rest
  let rest ← skip? ")" rest
  some (⟨binder, labels, entries⟩, rest)

/-- The inside of a relationship, up to its closing text. -/
def relationshipBody (direction : Direction) (close : String) : Reader RelationshipPattern :=
  fun ts => do
    let (binder, rest) := optionalIdentifier ts
    let (relType, rest) ← label rest
    let rest ← skip? close rest
    some (⟨binder, relType, direction⟩, rest)

def relationship : Reader RelationshipPattern := fun ts =>
  match skip? "-[" ts with
  | some rest => relationshipBody .outgoing "]->" rest
  | none => (skip? "<-[" ts).bind (relationshipBody .incoming "]-")

def hop : Reader (RelationshipPattern × NodePattern) := fun ts => do
  let (relationship, rest) ← relationship ts
  let (node, rest) ← r.node rest
  some ((relationship, node), rest)

def pattern : Reader Pattern := fun ts => do
  let (start, rest) ← r.node ts
  let (hops, rest) := many r.hop rest
  some (⟨start, hops⟩, rest)

-- ============================================================ expressions

/-- What begins with a name: the property of an entity, a projection of it, or
the variable itself. -/
def named (name : String) : Reader Expression := fun ts =>
  match skip? "." ts with
  | some rest => (identifier? rest).map fun (key, rest) => (.property name key, rest)
  | none =>
      match skip? " \x7b" ts with
      | some rest =>
          (listUntil r.item "\x7d" rest).map fun (items, rest) => (.projection name items, rest)
      | none => some (.var name, ts)

def patternComprehension : Reader Expression := fun ts => do
  let (pattern, rest) ← r.pattern ts
  let (condition, rest) ← r.condition rest
  let rest ← skip? " | " rest
  let (result, rest) ← r.expression rest
  let rest ← skip? "]" rest
  some (.patternComprehension pattern condition result, rest)

def listComprehension (binder : String) : Reader Expression := fun ts => do
  let (source, rest) ← r.expression ts
  let (condition, rest) ← r.condition rest
  let (result, rest) ← r.result rest
  let rest ← skip? "]" rest
  some (.listComprehension binder source condition result, rest)

/-- What begins with a square bracket. -/
def bracketed : Reader Expression := fun ts =>
  match skip? "(" ts with
  | some _ => r.patternComprehension ts
  | none =>
      match binding? ts with
      | some (binder, rest) => r.listComprehension binder rest
      | none => (listUntil r.expression "]" ts).map fun (es, rest) => (.list es, rest)

/-- The arguments of a function, or the star of a count. -/
def call (function : List Char) : Reader Expression := fun ts =>
  match skip? "*)" ts with
  | some rest => if function = "count".toList then some (.countAll, rest) else none
  | none =>
      (listUntil r.expression ")" ts).map fun (args, rest) =>
        (.call (String.ofList function) args, rest)

def conditional : Reader Expression := fun ts => do
  let (condition, rest) ← r.predicate ts
  let rest ← skip? " THEN " rest
  let (yes, rest) ← r.expression rest
  let rest ← skip? " ELSE " rest
  let (no, rest) ← r.expression rest
  let rest ← skip? " END" rest
  some (.conditional condition yes no, rest)

/-- What begins with a word without quotes. -/
def word (chars : List Char) : Reader Expression := fun ts =>
  match skip? "(" ts with
  | some rest => r.call chars rest
  | none =>
      if chars = "CASE".toList then (skip? " WHEN " ts).bind r.conditional
      else (constant? chars).map fun l => (.literal l, ts)

/-- An expression without a slice taken of it. -/
def primary : Reader Expression := fun ts =>
  match ts with
  | .identifier name :: rest => r.named name rest
  | .string value :: rest => some (.literal (.string value), rest)
  | .outside c :: rest =>
      if c = '$' then some (.parameter (String.ofList (takeName rest).1), (takeName rest).2)
      else if c = '\x7b' then
        (listUntil r.entry "\x7d" rest).map fun (entries, rest) => (.map entries, rest)
      else if c = '[' then r.bracketed rest
      else if c = '-' then
        (natural? (takeName rest).1).map fun (n : Nat) =>
          (.literal (.int (-(n : Int))), (takeName rest).2)
      else r.word (takeName ts).1 (takeName ts).2
  | [] => none

/-- An expression with all the slices taken of it. -/
def sliced : Reader Expression := fun ts =>
  (r.primary ts).map fun (e, rest) =>
    ((many bounds? rest).1.foldl (fun e (lower, upper) => .slice e lower upper) e,
      (many bounds? rest).2)

-- ============================================================= predicates

/-- What a predicate may begin with, other than an expression. -/
inductive Opening where
  | group
  | negation
  | quantifier (quantifier : Quantifier) (binder : String)

/-- The quantifier that a word is. -/
def quantifier? (word : List Char) : Option Quantifier :=
  [Quantifier.any, .none, .all, .single].find? fun q => q.text.toList = word

def opening? : Reader Opening := fun ts =>
  let (word, rest) := takeName ts
  if word = [] then (skip? "(" rest).map fun rest => (.group, rest)
  else if word = "NOT".toList then (skip? " (" rest).map fun rest => (.negation, rest)
  else do
    let q ← quantifier? word
    let rest ← skip? "(" rest
    let (binder, rest) ← binding? rest
    some (.quantifier q binder, rest)

/-- All comparisons. -/
def comparisons : List Comparison :=
  [.eq, .neq, .lt, .lte, .gt, .gte, .member, .contains, .startsWith, .endsWith]

/-- How a comparison is written between its operands. -/
def operatorText (c : Comparison) : String := " " ++ c.text ++ " "

/-- The comparison at the front. -/
def comparison? : Reader Comparison := fun ts =>
  comparisons.findSome? fun c => (skip? (operatorText c) ts).map fun rest => (c, rest)

/-- The predicate that an expression by itself is. -/
def truth? : Expression → Option Predicate
  | .literal (.boolean true) => some .always
  | .literal (.boolean false) => some .never
  | _ => none

/-- What is said of an expression. -/
def relation (subject : Expression) : Reader Predicate := fun ts =>
  match skip? " IS NULL" ts with
  | some rest => some (.isNull subject, rest)
  | none =>
      match skip? " IS NOT NULL" ts with
      | some rest => some (.isNotNull subject, rest)
      | none =>
          match comparison? ts with
          | some (c, rest) =>
              (r.expression rest).map fun (other, rest) => (.compare c subject other, rest)
          | none => (truth? subject).map fun p => (p, ts)

/-- A predicate that holds together without parentheses. -/
def operand : Reader Predicate := fun ts =>
  match opening? ts with
  | some (.group, rest) => do
      let (p, rest) ← r.predicate rest
      let rest ← skip? ")" rest
      some (p, rest)
  | some (.negation, rest) => do
      let (p, rest) ← r.predicate rest
      let rest ← skip? ")" rest
      some (.neg p, rest)
  | some (.quantifier q binder, rest) => do
      let (source, rest) ← r.expression rest
      let rest ← skip? " WHERE " rest
      let (condition, rest) ← r.predicate rest
      let rest ← skip? ")" rest
      some (.quantified q binder source condition, rest)
  | none => (r.sliced ts).bind fun (subject, rest) => r.relation subject rest

/-- Operands joined by `AND`. -/
def conjunction : Reader Predicate := chain r.operand " AND " .conj

/-- Conjunctions joined by `OR`. -/
def disjunction : Reader Predicate := chain r.conjunction " OR " .disj

/-- Readers for texts whose nested parts are read by the given ones. -/
def step : Readers := ⟨r.sliced, r.disjunction⟩

end Readers

/-- Readers for texts of fewer tokens than the bound. -/
def readersBelow : Nat → Readers
  | 0 => ⟨fun _ => none, fun _ => none⟩
  | n + 1 => (readersBelow n).step

namespace Predicate

/-- The text of a predicate. -/
def text (p : Predicate) : String := textOf p.lexemes

/-- The predicate that a text says, if it says one. -/
def read? (text : String) : Option Predicate :=
  match scan text.toList with
  | some tokens =>
      match (readersBelow (tokens.length + 1)).predicate tokens with
      | some (p, []) => some p
      | _ => none
  | none => none

end Predicate

end PropertyGraphQL.Cypher
