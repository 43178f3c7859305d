/-
What quoted texts in a document stand for.

In a string every escape stands for one character. A block string is taken
as it is written, but for its indentation: the blanks that all its lines
but the first begin with are removed, and so are blank lines at its
beginning and end.
-/
import PropertyGraphQL.Json.Reader

namespace PropertyGraphQL.Quoted

/-- The character that an escape of one letter stands for. -/
def escaped (c : Char) : Char :=
  match c with
  | 'b' => '\x08'
  | 'f' => '\x0C'
  | 'n' => '\n'
  | 'r' => '\r'
  | 't' => '\t'
  | c => c

/-- The number that hexadecimal digits denote. -/
def ofHex (digits : List Char) : Nat :=
  digits.foldl (fun n c => 16 * n + (Json.hexDigit? c).getD 0) 0

/-- The characters that the inside of a string stands for. -/
def unescape : List Char → List Char
  | '\\' :: 'u' :: a :: b :: c :: d :: rest => Char.ofNat (ofHex [a, b, c, d]) :: unescape rest
  | '\\' :: c :: rest => escaped c :: unescape rest
  | c :: rest => c :: unescape rest
  | [] => []

-- ======================================================= block strings

/-- Cut at every line end: a carriage return, a line feed, or both. -/
def cutLines : List Char → List (List Char)
  | [] => [[]]
  | '\r' :: '\n' :: rest => [] :: cutLines rest
  | c :: rest =>
      if c = '\r' ∨ c = '\n' then [] :: cutLines rest
      else
        match cutLines rest with
        | [] => [[c]]
        | line :: lines => (c :: line) :: lines

def isIndent (c : Char) : Bool := c = ' ' || c = '\t'

/-- Whether a line has nothing but blanks. -/
def isBlankLine (line : List Char) : Bool := line.all isIndent

/-- The number of blanks at the beginning of a line that has more than blanks. -/
def indent? (line : List Char) : Option Nat :=
  if isBlankLine line then none else some (line.takeWhile isIndent).length

/-- The least indent of the lines; 0 if all are blank. -/
def commonIndent (lines : List (List Char)) : Nat :=
  ((lines.filterMap indent?).min?).getD 0

/-- A line without the given indent, if it is that long. -/
def outdent (n : Nat) (line : List Char) : List Char :=
  if n ≤ line.length then line.drop n else line

/-- Without the blank lines at both ends. -/
def trimBlankLines (lines : List (List Char)) : List (List Char) :=
  ((lines.dropWhile isBlankLine).reverse.dropWhile isBlankLine).reverse

/-- The lines of a block string with the common indent removed from all
but the first. -/
def outdented : List (List Char) → List (List Char)
  | [] => []
  | first :: others => first :: others.map (outdent (commonIndent others))

/-- The text that the inside of a block string stands for. -/
def blockText (raw : List Char) : List Char :=
  ['\n'].intercalate (trimBlankLines (outdented (cutLines raw)))

end PropertyGraphQL.Quoted
