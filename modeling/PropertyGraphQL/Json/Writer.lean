/-
The text of JSON data: on one line without blanks, or indented by two
blanks a level with one element or member a line.
-/
import PropertyGraphQL.Json
import PropertyGraphQL.Number.Shortest

namespace PropertyGraphQL.Json

/-- The character as it stands between the quotes of a string. -/
def escapeChar (c : Char) : List Char :=
  if c = '"' then ['\\', '"']
  else if c = '\\' then ['\\', '\\']
  else if c = '\n' then ['\\', 'n']
  else if c = '\r' then ['\\', 'r']
  else if c = '\t' then ['\\', 't']
  else if c = '\x08' then ['\\', 'b']
  else if c = '\x0C' then ['\\', 'f']
  else if c.toNat < 0x20 then
    ['\\', 'u', '0', '0', Nat.digitChar (c.toNat / 16), Nat.digitChar (c.toNat % 16)]
  else [c]

/-- A string in quotes. -/
def quote (s : String) : String :=
  String.ofList ('"' :: s.toList.flatMap escapeChar ++ ['"'])

/-- An integer in decimal. -/
def integerText (n : Int) : String :=
  if n < 0 then "-" ++ n.natAbs.repr else n.natAbs.repr

/-- Floats are positional from 10^-5 on and have a signed exponent beyond. -/
def floatFormat : FloatFormat := ⟨-5, .toEven, true⟩

/-- A float. -/
def floatText (x : Binary64) : String :=
  if x.isFinite then x.text floatFormat else "null"

mutual

/-- The text on one line. -/
def compact : Json → String
  | .null => "null"
  | .bool b => if b then "true" else "false"
  | .int n => integerText n
  | .float x => floatText x
  | .str s => quote s
  | .arr elems => "[" ++ ",".intercalate (compactElems elems) ++ "]"
  | .obj members => "\x7b" ++ ",".intercalate (compactMembers members) ++ "\x7d"

def compactElems : List Json → List String
  | [] => []
  | j :: rest => compact j :: compactElems rest

def compactMembers : List (String × Json) → List String
  | [] => []
  | (k, j) :: rest => (quote k ++ ":" ++ compact j) :: compactMembers rest

end

/-- The blanks before a line at the given level. -/
def indentation (level : Nat) : String :=
  String.ofList (List.replicate (2 * level) ' ')

/-- The items one a line between the brackets; nothing between the
brackets without items. -/
def bracketed (level : Nat) (left right : String) (items : List String) : String :=
  if items.isEmpty then left ++ right
  else
    let separator := "\n" ++ indentation (level + 1)
    left ++ separator ++ ("," ++ separator).intercalate items
      ++ "\n" ++ indentation level ++ right

mutual

/-- The indented text of a value at the given level. -/
def prettyAt (level : Nat) : Json → String
  | .null => "null"
  | .bool b => if b then "true" else "false"
  | .int n => integerText n
  | .float x => floatText x
  | .str s => quote s
  | .arr elems => bracketed level "[" "]" (prettyElems (level + 1) elems)
  | .obj members => bracketed level "\x7b" "\x7d" (prettyMembers (level + 1) members)

def prettyElems (level : Nat) : List Json → List String
  | [] => []
  | j :: rest => prettyAt level j :: prettyElems level rest

def prettyMembers (level : Nat) : List (String × Json) → List String
  | [] => []
  | (k, j) :: rest => (quote k ++ ": " ++ prettyAt level j) :: prettyMembers level rest

end

/-- The indented text. -/
def pretty (j : Json) : String := prettyAt 0 j

end PropertyGraphQL.Json
