/-
Numerals: numbers as JSON text and documents write them.

A numeral without fraction and exponent is an integer if 64 bits hold it.
Every other numeral is a float. Its digits are gathered in a significand of
64 bits; digits that do not fit are left out, and those of them that stand
before the point raise the exponent instead. The float is the significand
times a power of ten, with every step rounded (`Binary64.ofDecimal`). So it
may differ from the nearest float in the last places.
-/
import PropertyGraphQL.Json

namespace PropertyGraphQL

/-- The exponent of a numeral. -/
structure DecimalExponent where
  negative : Bool
  digits : List Char
deriving Repr

/-- A number as written: digits before the point, digits after it, and the
exponent. -/
structure Numeral where
  negative : Bool
  whole : List Char
  fraction : Option (List Char)
  exponent : Option DecimalExponent
deriving Repr

/-- Why a numeral has no value. -/
inductive NumeralFault where
  /-- It is beyond the range of floats. -/
  | range
  /-- Its exponent is given up as too large with `unread` digits left. -/
  | exponent (unread : Nat)
deriving DecidableEq, Repr

namespace Numeral

-- ============================================================== reading

/-- A leading minus sign, and the rest. -/
def sign : List Char → Bool × List Char
  | '-' :: rest => (true, rest)
  | rest => (false, rest)

/-- The digits at the beginning, at least one, and the rest. -/
def digits? (cs : List Char) : Option (List Char × List Char) :=
  match cs.takeWhile Char.isDigit with
  | [] => none
  | digits => some (digits, cs.dropWhile Char.isDigit)

/-- The digits before the point: no zero stands before another digit. -/
def whole? (cs : List Char) : Option (List Char × List Char) :=
  match digits? cs with
  | some ('0' :: _ :: _, _) => none
  | other => other

/-- A point with its digits, if there is a point. -/
def fraction? : List Char → Option (Option (List Char) × List Char)
  | '.' :: rest => (digits? rest).map fun (digits, rest) => (some digits, rest)
  | rest => some (none, rest)

/-- An exponent, if its mark is there. -/
def exponent? : List Char → Option (Option DecimalExponent × List Char)
  | c :: rest =>
      if c = 'e' ∨ c = 'E' then
        let (negative, rest) :=
          match rest with
          | '-' :: rest => (true, rest)
          | '+' :: rest => (false, rest)
          | rest => (false, rest)
        (digits? rest).map fun (digits, rest) => (some ⟨negative, digits⟩, rest)
      else some (none, c :: rest)
  | [] => some (none, [])

/-- The numeral at the beginning, and the rest. -/
def scan? (cs : List Char) : Option (Numeral × List Char) := do
  let (negative, cs) := sign cs
  let (whole, cs) ← whole? cs
  let (fraction, cs) ← fraction? cs
  let (exponent, cs) ← exponent? cs
  return (⟨negative, whole, fraction, exponent⟩, cs)

-- =============================================================== digits

/-- The number that a decimal digit stands for. -/
def digitValue (c : Char) : Nat := c.toNat - '0'.toNat

/-- The number that a list of decimal digits denotes. -/
def ofDigits (digits : List Char) : Nat :=
  digits.foldl (fun n c => 10 * n + digitValue c) 0

/-- Append digits to a number as long as it stays within a limit: the number
reached, and the digits left. -/
def extend (limit : Nat) : (n : Nat) → List Char → Nat × List Char
  | n, [] => (n, [])
  | n, c :: rest =>
      let next := 10 * n + digitValue c
      if next ≤ limit then extend limit next rest else (n, c :: rest)

/-- The number reached stays within the limit. -/
theorem extend_le {limit n : Nat} (h : n ≤ limit) (digits : List Char) :
    (extend limit n digits).1 ≤ limit := by
  induction digits generalizing n with
  | nil => exact h
  | cons c rest ih =>
      simp only [extend]
      split
      · exact ih ‹_›
      · exact h

/-- The digits as a number that 64 bits hold, and the power of ten it is to
be multiplied by, the exponent apart. -/
def significand (n : Numeral) : Nat × Int :=
  let fraction := n.fraction.getD []
  let whole := extend maxUInt64 0 n.whole
  let all := extend maxUInt64 whole.1 fraction
  (all.1, (whole.2.length : Int) + all.2.length - fraction.length)

theorem significand_le (n : Numeral) : n.significand.1 ≤ maxUInt64 :=
  extend_le (extend_le (Nat.zero_le _) _) _

-- ================================================================ value

/-- The largest exponent that is read to its end. -/
def maxExponent : Nat := 2147483647

/-- The float. An exponent that is not read to its end makes it zero, or
takes it beyond all floats. -/
def toBinary64 (n : Numeral) : Except NumeralFault Binary64 :=
  let (s, scale) := n.significand
  let exponent := n.exponent.getD ⟨false, []⟩
  match extend maxExponent 0 exponent.digits with
  | (e, []) =>
      let x := Binary64.ofDecimal n.negative s (scale + if exponent.negative then -(e : Int) else e)
      if x.isFinite then .ok x else .error .range
  | (_, _ :: unread) =>
      if s = 0 ∨ exponent.negative then .ok (.zero n.negative)
      else .error (if unread.isEmpty then .range else .exponent unread.length)

/-- The integer, if there is neither fraction nor exponent and 64 bits hold
it, signed or unsigned. Minus zero is no integer. -/
def toInt? (n : Numeral) : Option Int :=
  if n.fraction.isSome || n.exponent.isSome then none
  else
    let value := ofDigits n.whole
    if !n.negative then if value ≤ maxUInt64 then some value else none
    else if 0 < value ∧ minInt64 ≤ -(value : Int) then some (-value)
    else none

/-- The value: an integer, or else a float. -/
def toJson (n : Numeral) : Except NumeralFault Json :=
  match n.toInt? with
  | some i => .ok (.int i)
  | none => n.toBinary64.map .float

end Numeral

end PropertyGraphQL
