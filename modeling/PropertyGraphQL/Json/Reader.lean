/-
Reading JSON text.

A repeated key of an object keeps its first place and takes its last value.
Arrays and objects may be nested to a given depth.
-/
import PropertyGraphQL.Json.Numeral

namespace PropertyGraphQL

namespace Json

/-- The blanks between the parts of a JSON text. -/
def skipBlanks (cs : List Char) : List Char :=
  cs.dropWhile fun c => c = ' ' || c = '\n' || c = '\r' || c = '\t'

def hexDigit? (c : Char) : Option Nat :=
  if c.isDigit then some (c.toNat - '0'.toNat)
  else if 'a' ≤ c ∧ c ≤ 'f' then some (c.toNat - 'a'.toNat + 10)
  else if 'A' ≤ c ∧ c ≤ 'F' then some (c.toNat - 'A'.toNat + 10)
  else none

/-- Four hexadecimal digits. -/
def hex4? : List Char → Option (Nat × List Char)
  | a :: b :: c :: d :: rest => do
      let a ← hexDigit? a
      let b ← hexDigit? b
      let c ← hexDigit? c
      let d ← hexDigit? d
      return (((a * 16 + b) * 16 + c) * 16 + d, rest)
  | _ => none

/-- What follows `\u`: one code unit, or a pair of surrogates. -/
def unicodeEscape? (cs : List Char) : Option (Char × List Char) := do
  let (high, rest) ← hex4? cs
  if high < 0xD800 ∨ 0xE000 ≤ high then
    return (Char.ofNat high, rest)
  else if high < 0xDC00 then
    match rest with
    | '\\' :: 'u' :: rest =>
        let (low, rest) ← hex4? rest
        if 0xDC00 ≤ low ∧ low < 0xE000 then
          return (Char.ofNat (0x10000 + (high - 0xD800) * 0x400 + (low - 0xDC00)), rest)
        else none
    | _ => none
  else none

/-- The character that stands for itself behind a backslash, or is named by
a letter there. -/
def shortEscape? : Char → Option Char
  | '"' => some '"'
  | '\\' => some '\\'
  | '/' => some '/'
  | 'b' => some '\x08'
  | 'f' => some '\x0C'
  | 'n' => some '\n'
  | 'r' => some '\r'
  | 't' => some '\t'
  | _ => none

/-- The rest of a string after its opening quote. -/
def stringRest? : (fuel : Nat) → (cs done : List Char) → Option (String × List Char)
  | 0, _, _ => none
  | fuel + 1, cs, done =>
      match cs with
      | [] => none
      | '"' :: rest => some (String.ofList done.reverse, rest)
      | '\\' :: 'u' :: rest => do
          let (c, rest) ← unicodeEscape? rest
          stringRest? fuel rest (c :: done)
      | '\\' :: c :: rest => do
          let c ← shortEscape? c
          stringRest? fuel rest (c :: done)
      | c :: rest =>
          if c = '\\' ∨ c.toNat < 0x20 then none else stringRest? fuel rest (c :: done)

/-- A string with both quotes. -/
def string? : List Char → Option (String × List Char)
  | '"' :: rest => stringRest? (rest.length + 1) rest []
  | _ => none

/-- The rest of the text after the given word. -/
def word? : (word cs : List Char) → Option (List Char)
  | [], cs => some cs
  | w :: word, c :: cs => if w = c then word? word cs else none
  | _ :: _, [] => none

mutual

/-- A value at the beginning, blanks before it being skipped. `depth` more
levels of nesting are allowed. -/
def value? : (fuel depth : Nat) → List Char → Option (Json × List Char)
  | 0, _, _ => none
  | fuel + 1, depth, cs =>
      match skipBlanks cs with
      | '\x7b' :: rest =>
          match depth with
          | 0 => none
          | depth + 1 =>
              match skipBlanks rest with
              | '\x7d' :: rest => some (.obj [], rest)
              | rest => members? fuel depth rest []
      | '[' :: rest =>
          match depth with
          | 0 => none
          | depth + 1 =>
              match skipBlanks rest with
              | ']' :: rest => some (.arr [], rest)
              | rest => elems? fuel depth rest []
      | '"' :: rest => do
          let (s, rest) ← string? ('"' :: rest)
          return (.str s, rest)
      | 'n' :: rest => (word? ['u', 'l', 'l'] rest).map (.null, ·)
      | 't' :: rest => (word? ['r', 'u', 'e'] rest).map (.bool true, ·)
      | 'f' :: rest => (word? ['a', 'l', 's', 'e'] rest).map (.bool false, ·)
      | rest => do
          let (n, rest) ← Numeral.scan? rest
          let j ← n.toJson.toOption
          return (j, rest)

/-- The rest of an array at one of its elements. -/
def elems? : (fuel depth : Nat) → List Char → List Json → Option (Json × List Char)
  | 0, _, _, _ => none
  | fuel + 1, depth, cs, done => do
      let (j, cs) ← value? fuel depth cs
      match skipBlanks cs with
      | ',' :: rest => elems? fuel depth rest (j :: done)
      | ']' :: rest => return (.arr (j :: done).reverse, rest)
      | _ => none

/-- The rest of an object at one of its members. -/
def members? : (fuel depth : Nat) → List Char → Dict Json → Option (Json × List Char)
  | 0, _, _, _ => none
  | fuel + 1, depth, cs, done => do
      let (key, cs) ← string? (skipBlanks cs)
      match skipBlanks cs with
      | ':' :: cs =>
          let (j, cs) ← value? fuel depth cs
          match skipBlanks cs with
          | ',' :: rest => members? fuel depth rest (Dict.insert done key j)
          | '\x7d' :: rest => return (.obj (Dict.insert done key j), rest)
          | _ => none
      | _ => none

end

/-- The levels of nesting that `parse?` allows. -/
def maxDepth : Nat := 127

/-- The value that the whole text denotes. -/
def parse? (text : String) : Option Json := do
  let cs := text.toList
  -- Every call of the reader but the last few takes a character away.
  let (j, rest) ← value? (2 * cs.length + 2) maxDepth cs
  if (skipBlanks rest).isEmpty then some j else none

end Json

end PropertyGraphQL
