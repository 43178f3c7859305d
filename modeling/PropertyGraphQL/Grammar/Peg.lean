/-
Parsing expression grammars, and how a text is read by one.

A grammar gives an expression for each of its rules. A choice takes the
first alternative that matches and never comes back for another; repetition
takes as much as it can. Between the parts of a sequence ignored characters
are skipped, unless the rule, or one that called it, is written tightly.

Reading gives a tree, or the place to report: the farthest start of a rule
that was tried and did not fit. Rules tried inside a closed rule are not
counted, only the closed rule itself; under a negation what counts is the
rule that fits.

Reading is bounded by a number of nested steps, proportional to the length
of the text.
-/
import PropertyGraphQL.Text.Position

namespace PropertyGraphQL

/-- An expression over rules named by `R`. -/
inductive Peg (R : Type) where
  /-- Exactly these characters. -/
  | chars (cs : List Char)
  /-- One character of a class. -/
  | one (accepts : Char → Bool)
  /-- The end of the text. -/
  | ending
  | seq (first second : Peg R)
  | alt (first second : Peg R)
  | opt (inner : Peg R)
  /-- Any number of times, as often as possible. -/
  | many (inner : Peg R)
  /-- Nothing is read, and the inner expression must not fit here. -/
  | absent (inner : Peg R)
  | call (rule : R)

namespace Peg

variable {R : Type}

/-- A fixed text. -/
def token (text : String) : Peg R := chars text.toList

/-- One after the other. -/
def sequence : List (Peg R) → Peg R
  | [] => chars []
  | [e] => e
  | e :: rest => seq e (sequence rest)

/-- The first that fits. -/
def choice : List (Peg R) → Peg R
  | [] => absent (chars [])
  | [e] => e
  | e :: rest => alt e (choice rest)

/-- At least once. -/
def atLeastOnce (e : Peg R) : Peg R := seq e (many e)

end Peg

/-- How a rule treats ignored characters, and whether the rules tried in it
count for the place that is reported. -/
inductive Spacing where
  /-- Ignored characters are skipped. -/
  | free
  /-- Nothing is skipped. -/
  | tight
  /-- Nothing is skipped and nothing counts. -/
  | closed
deriving DecidableEq, Repr

/-- A grammar over rules named by `R`. -/
structure Grammar (R : Type) where
  body : R → Peg R
  /-- How the rule is read; a rule without an entry is read as its caller is. -/
  spacing : R → Option Spacing
  /-- How many characters are ignored at the beginning of a text. -/
  ignored : List Char → Nat
  /-- How many nested steps a character may take. -/
  stepsPerCharacter : Nat

/-- A tree of rules with the text that each of them read. -/
inductive Tree (R : Type) where
  | node (rule : R) (place : Position) (text : List Char) (children : List (Tree R))

namespace Tree

variable {R : Type}

def rule : Tree R → R
  | node r _ _ _ => r

/-- Where the text of the tree starts. -/
def place : Tree R → Position
  | node _ p _ _ => p

def text : Tree R → String
  | node _ _ t _ => String.ofList t

def children : Tree R → List (Tree R)
  | node _ _ _ cs => cs

/-- The first tree of a rule. -/
def first? [DecidableEq R] (r : R) (ts : List (Tree R)) : Option (Tree R) :=
  ts.find? fun t => t.rule = r

/-- The children of the first tree of a rule; none without such a tree. -/
def within [DecidableEq R] (r : R) (ts : List (Tree R)) : List (Tree R) :=
  ((first? r ts).map children).getD []

/-- The text of the first tree of a rule. -/
def textOf? [DecidableEq R] (r : R) (ts : List (Tree R)) : Option String :=
  (first? r ts).map text

end Tree

-- ============================================================= cursors

/-- A place in a text with what follows it. -/
structure Cursor where
  /-- The number of characters before. -/
  offset : Nat
  place : Position
  rest : List Char

namespace Cursor

/-- The beginning of a text. -/
def start (text : List Char) : Cursor := ⟨0, .start, text⟩

/-- Behind the next `n` characters. -/
def forward : Nat → Cursor → Cursor
  | 0, c => c
  | n + 1, c =>
      match c.rest with
      | [] => c
      | x :: rest => forward n ⟨c.offset + 1, c.place.advance x, rest⟩

/-- Behind the given characters, if they come next. -/
def eat? (cs : List Char) (c : Cursor) : Option Cursor :=
  (Text.afterLead? cs c.rest).map fun _ => c.forward cs.length

/-- Behind the next character, if it is accepted. -/
def eatOne? (accepts : Char → Bool) (c : Cursor) : Option Cursor :=
  match c.rest with
  | [] => none
  | x :: _ => if accepts x then some (c.forward 1) else none

end Cursor

-- ============================================================= reading

/-- What came of reading an expression. -/
structure Attempt (R : Type) where
  /-- Where reading stopped and the trees of the rules read, if the
  expression fits. -/
  outcome : Option (Cursor × List (Tree R))
  /-- The farthest start so far of a rule that counts. -/
  farthest : Nat

/-- In what surroundings an expression is read. -/
structure Surroundings where
  spacing : Spacing
  /-- Whether the number of negations around is odd. -/
  negated : Bool

namespace Grammar

variable {R : Type}

/-- Behind the ignored characters, where those are skipped. -/
def skip (g : Grammar R) (around : Surroundings) (c : Cursor) : Cursor :=
  match around.spacing with
  | .free => c.forward (g.ignored c.rest)
  | _ => c

/-- Read an expression with at most `fuel` nested steps. -/
def run (g : Grammar R) : (fuel : Nat) → Peg R → Surroundings → Cursor → Nat → Attempt R
  | 0, _, _, _, far => ⟨none, far⟩
  | _ + 1, .chars cs, _, c, far => ⟨(c.eat? cs).map (·, []), far⟩
  | _ + 1, .one accepts, _, c, far => ⟨(c.eatOne? accepts).map (·, []), far⟩
  | _ + 1, .ending, _, c, far => ⟨if c.rest.isEmpty then some (c, []) else none, far⟩
  | fuel + 1, .seq a b, around, c, far =>
      match run g fuel a around c far with
      | ⟨none, far⟩ => ⟨none, far⟩
      | ⟨some (c, ts), far⟩ =>
          match run g fuel b around (g.skip around c) far with
          | ⟨none, far⟩ => ⟨none, far⟩
          | ⟨some (c, us), far⟩ => ⟨some (c, ts ++ us), far⟩
  | fuel + 1, .alt a b, around, c, far =>
      match run g fuel a around c far with
      | ⟨none, far⟩ => run g fuel b around c far
      | done => done
  | fuel + 1, .opt a, around, c, far =>
      match run g fuel a around c far with
      | ⟨none, far⟩ => ⟨some (c, []), far⟩
      | done => done
  | fuel + 1, .many a, around, c, far =>
      match run g fuel a around c far with
      | ⟨none, far⟩ => ⟨some (c, []), far⟩
      | ⟨some (c, ts), far⟩ =>
          match run g fuel (.many a) around (g.skip around c) far with
          | ⟨none, far⟩ => ⟨none, far⟩
          | ⟨some (c, us), far⟩ => ⟨some (c, ts ++ us), far⟩
  | fuel + 1, .absent a, around, c, far =>
      match run g fuel a { around with negated := !around.negated } c far with
      | ⟨none, far⟩ => ⟨some (c, []), far⟩
      | ⟨some _, far⟩ => ⟨none, far⟩
  | fuel + 1, .call r, around, c, far =>
      let spacing := (g.spacing r).getD around.spacing
      let ⟨outcome, far⟩ := run g fuel (g.body r) { around with spacing } c far
      let counts := around.spacing ≠ .closed && (outcome.isNone != around.negated)
      let far := if counts then max far c.offset else far
      let tree (last : Cursor) (children : List (Tree R)) : Tree R :=
        .node r c.place (c.rest.take (last.offset - c.offset)) children
      ⟨outcome.map fun (last, children) => (last, [tree last children]), far⟩

/-- Read a text by a rule: its tree, or the number of characters before the
place to report. -/
def parse (g : Grammar R) (start : R) (text : String) : Except Nat (Tree R) :=
  let cs := text.toList
  let fuel := (cs.length + 1) * g.stepsPerCharacter
  match run g fuel (.call start) ⟨.free, false⟩ (.start cs) 0 with
  | ⟨some (_, t :: _), _⟩ => .ok t
  | ⟨_, far⟩ => .error far

end Grammar

end PropertyGraphQL
