/-
Places in a text.

A place is a line and a column, both counted from 1, the column in
characters. Two conventions turn the number of characters before a place
into a line and a column; they differ in the carriage return:

* `Position.ofPrefix`: a line feed ends a line; a carriage return sets
  the column back to 1 and ends no line;
* `Position.ofPrefixCrLf`: a line feed ends a line, alone or after a
  carriage return; a carriage return elsewhere is a character like any
  other.

`byteOffset` goes the other way, from a place to a number of bytes.
-/
import PropertyGraphQL.Text.Affix

namespace PropertyGraphQL

/-- A line and a column, counted from 1. -/
structure Position where
  line : Nat
  column : Nat
deriving DecidableEq, Repr

namespace Position

/-- The first character of a text. -/
def start : Position := ⟨1, 1⟩

/-- No place in the text at all. -/
def nowhere : Position := ⟨0, 0⟩

/-- The place behind one more character. -/
def advance (p : Position) (c : Char) : Position :=
  if c = '\n' then ⟨p.line + 1, 1⟩
  else if c = '\r' then ⟨p.line, 1⟩
  else ⟨p.line, p.column + 1⟩

/-- The place behind the given characters. -/
def ofPrefix (before : List Char) : Position :=
  before.foldl advance start

/-- The place behind the given characters, a carriage return followed by
a line feed counting as one line end. `next` is the character that follows
them in the text. -/
def ofPrefixCrLf (before : List Char) (next : Option Char) : Position :=
  let rec go : List Char → Position → Position
    | [], p => p
    | ['\r'], p => if next = some '\n' then ⟨p.line + 1, 1⟩ else ⟨p.line, p.column + 1⟩
    | '\r' :: '\n' :: rest, p => go rest ⟨p.line + 1, 1⟩
    | '\n' :: rest, p => go rest ⟨p.line + 1, 1⟩
    | _ :: rest, p => go rest ⟨p.line, p.column + 1⟩
  go before start

/-- The place behind `offset` characters, with `'\r', '\n'` as one line end. -/
def ofOffsetCrLf (text : List Char) (offset : Nat) : Position :=
  ofPrefixCrLf (text.take offset) text[offset]?

/-- `line:column`, as in error messages. -/
def text (p : Position) : String :=
  p.line.repr ++ ":" ++ p.column.repr

end Position

namespace Text

/-- The number of bytes of the characters in UTF-8. -/
def utf8Size : List Char → Nat
  | [] => 0
  | c :: rest => c.utf8Size + utf8Size rest

/-- The characters of `text` before the place `p`: all lines before its
line, then as many characters of that line as its column asks for. A
column past the end of its line stops there, a line past the end of the
text stops at its end. -/
def beforePosition (text : List Char) (p : Position) : List Char :=
  let earlier := ((linePieces text).take (p.line - 1)).flatten
  let rest := text.drop earlier.length
  earlier ++ (rest.take (p.column - 1)).takeWhile (· != '\n')

/-- The number of bytes before the place `p`. -/
def byteOffset (text : String) (p : Position) : Nat :=
  utf8Size (beforePosition text.toList p)

end Text

end PropertyGraphQL
