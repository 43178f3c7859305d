/-
Constants written into the text of a statement.
-/
import PropertyGraphQL.Cypher.Lexeme
import PropertyGraphQL.Json.Writer

namespace PropertyGraphQL.Cypher

/-- A constant. -/
inductive Literal where
  | null
  | boolean (b : Bool)
  | int (n : Int)
  | float (x : Binary64)
  | string (s : String)
  | list (elems : List Literal)
  /-- The keys are distinct. -/
  | map (entries : List (String × Literal))

namespace Literal

mutual

/-- Equality of constants: floats are compared as numbers, and the order
of a map's entries does not count. -/
def same : Literal → Literal → Bool
  | .null, .null => true
  | .boolean a, .boolean b => a == b
  | .int a, .int b => a == b
  | .float a, .float b => a.equal b
  | .string a, .string b => a == b
  | .list a, .list b => sameElems a b
  | .map a, .map b => a.length == b.length && sameEntries a b
  | _, _ => false

def sameElems : List Literal → List Literal → Bool
  | [], [] => true
  | a :: as, b :: bs => same a b && sameElems as bs
  | _, _ => false

/-- Every entry on the left has an equal one on the right. -/
def sameEntries : List (String × Literal) → List (String × Literal) → Bool
  | [], _ => true
  | (k, a) :: rest, other =>
      (match Dict.get? other k with
        | some b => same a b
        | none => false) && sameEntries rest other

end

/-- Floats are positional from 10^-4 on; a tie of digits is rounded up. -/
def floatFormat : FloatFormat := ⟨-4, .up, false⟩

mutual

/-- The lexemes of a constant. A float keeps its fraction or exponent, so
it stays a float. -/
def lexemes : Literal → List Lexeme
  | .null => [.plain "null"]
  | .boolean b => [.plain (if b then "true" else "false")]
  | .int n => [.plain (Json.integerText n)]
  | .float x => [.plain (x.text floatFormat)]
  | .string s => [.string s]
  | .list elems => .plain "[" :: separated ", " (elemLexemes elems) ++ [.plain "]"]
  | .map entries => .plain "\x7b" :: separated ", " (entryListLexemes entries) ++ [.plain "\x7d"]

def elemLexemes : List Literal → List (List Lexeme)
  | [] => []
  | e :: rest => lexemes e :: elemLexemes rest

def entryListLexemes : List (String × Literal) → List (List Lexeme)
  | [] => []
  | (k, e) :: rest => entryLexemes k (lexemes e) :: entryListLexemes rest

end

end Literal

end PropertyGraphQL.Cypher
