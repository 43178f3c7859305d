/-
The shortest decimal that reads back as a given binary64 number.

A finite number is nearest to every real of an interval around it, which
reaches half way to each neighbour; the ends belong to it when the
significand is even. On the grid of the decimals with `n` digits the
candidates are the two neighbours of the number. The first grid that has
a candidate inside the interval gives the length, and of two candidates
the nearer is taken. Seventeen digits always suffice. Which of two equally
near ones is taken, and how the digits are laid out, is up to a
`FloatFormat`.
-/
import PropertyGraphQL.Number.Binary64

namespace PropertyGraphQL

/-- `digits · 10^exponent`. -/
structure Decimal where
  digits : Nat
  exponent : Int
deriving DecidableEq, Repr

/-- Which of two decimals is taken if the number is half way between them. -/
inductive Tie where
  /-- The one with the even last digit. -/
  | toEven
  /-- The larger one. -/
  | up
deriving DecidableEq, Repr

/-- How numbers are written. -/
structure FloatFormat where
  /-- From ten to this power on, numbers are positional. -/
  lowest : Int
  tie : Tie
  /-- Whether an exponent that is not negative has a plus sign. -/
  plus : Bool
deriving DecidableEq, Repr

namespace Decimal

/-- The same decimal without zeros at the end of its digits. -/
def strip (d : Decimal) : Decimal :=
  go 17 d
where
  go : Nat → Decimal → Decimal
    | 0, d => d
    | fuel + 1, d =>
        if d.digits ≠ 0 ∧ d.digits % 10 = 0 then go fuel ⟨d.digits / 10, d.exponent + 1⟩
        else d

end Decimal

namespace Binary64

/-- A positive ratio. -/
structure Ratio where
  numerator : Nat
  denominator : Nat

/-- `m · 2^e` as a ratio. -/
def Ratio.scaled (m : Nat) (e : Int) : Ratio :=
  if 0 ≤ e then ⟨m * twoPow e.toNat, 1⟩ else ⟨m, twoPow (-e).toNat⟩

/-- `m · 10^e` as a ratio. -/
def Ratio.scaledTen (m : Nat) (e : Int) : Ratio :=
  if 0 ≤ e then ⟨m * tenPow e.toNat, 1⟩ else ⟨m, tenPow (-e).toNat⟩

def Ratio.le (a b : Ratio) : Bool :=
  a.numerator * b.denominator ≤ b.numerator * a.denominator

def Ratio.lt (a b : Ratio) : Bool :=
  a.numerator * b.denominator < b.numerator * a.denominator

/-- The exponent `k` with `10^k ≤ r < 10^(k+1)`. -/
def Ratio.decimalExponent (r : Ratio) : Int :=
  if r.denominator ≤ r.numerator then
    ((Nat.toDigits 10 (r.numerator / r.denominator)).length : Int) - 1
  else
    let places := (Nat.toDigits 10 (r.denominator / r.numerator)).length
    if r.denominator ≤ r.numerator * tenPow (places - 1) then 1 - (places : Int)
    else -(places : Int)

/-- The ends of the interval of reals nearest to `m · 2^e`, and whether
they belong to it. Below a power of two the neighbour is half as far. -/
def interval (m : Nat) (e : Int) : Ratio × Ratio × Bool :=
  let below := if m = exponentWeight ∧ -1074 < e then 4 * m - 1 else 4 * m - 2
  (Ratio.scaled below (e - 2), Ratio.scaled (4 * m + 2) (e - 2), m % 2 = 0)

/-- The candidate with `n` digits for the number `v` with the interval
`(low, high)`, if there is one. `k` is the decimal exponent of `v`. -/
def candidate? (tie : Tie) (v low high : Ratio) (closed : Bool) (k : Int) (n : Nat) :
    Option Decimal :=
  let e := k - n + 1
  let digits :=
    if 0 ≤ e then v.numerator / (v.denominator * tenPow e.toNat)
    else v.numerator * tenPow (-e).toNat / v.denominator
  let inside (d : Nat) : Bool :=
    let x := Ratio.scaledTen d e
    if closed then low.le x && x.le high else low.lt x && x.lt high
  match inside digits, inside (digits + 1) with
  | false, false => none
  | true, false => some ⟨digits, e⟩
  | false, true => some ⟨digits + 1, e⟩
  | true, true =>
      -- Compare `v` with the middle of the two.
      let middle := Ratio.scaledTen (10 * digits + 5) (e - 1)
      let even := tie = .toEven && digits % 2 = 0
      if v.lt middle || (even && v.le middle) then some ⟨digits, e⟩
      else some ⟨digits + 1, e⟩

/-- The shortest decimal that reads back as the magnitude of a finite
number other than zero. -/
def shortest (tie : Tie) (x : Binary64) : Decimal :=
  let (m, e) := x.magnitude
  let v := Ratio.scaled m e
  let (low, high, closed) := interval m e
  let k := v.decimalExponent
  match (List.range 17).findSome? fun i => candidate? tie v low high closed k (i + 1) with
  | some d => d.strip
  | none => ⟨0, 0⟩

-- ============================================================== notation

/-- The digits with a decimal point after the first `point` of them,
filled up with zeros, and with at least one digit on each side. -/
def positional (digits : List Char) (point : Int) : List Char :=
  if point ≤ 0 then ['0', '.'] ++ List.replicate (-point).toNat '0' ++ digits
  else if digits.length ≤ point.toNat then
    digits ++ List.replicate (point.toNat - digits.length) '0' ++ ['.', '0']
  else digits.take point.toNat ++ ['.'] ++ digits.drop point.toNat

/-- The digits with a decimal point after the first, if there are more,
and the exponent of ten that goes with it. -/
def scientific (plus : Bool) (digits : List Char) (exponent : Int) : List Char :=
  match digits with
  | [] => []
  | first :: rest =>
      let fraction := if rest.isEmpty then [] else '.' :: rest
      let mark :=
        if exponent < 0 then ['e', '-'] else if plus then ['e', '+'] else ['e']
      first :: fraction ++ mark ++ Nat.toDigits 10 exponent.natAbs

/-- A number in decimal: the fewest digits that read back, positional up to
below `10^16` and for zero, with an exponent beyond. There is always a
fraction or an exponent. -/
def text (format : FloatFormat) (x : Binary64) : String :=
  let sign := if x.isNegative then ['-'] else []
  String.ofList <|
    if x.isNaN then "NaN".toList
    else if !x.isFinite then sign ++ "inf".toList
    else if x.isZero then sign ++ "0.0".toList
    else
      let d := x.shortest format.tie
      let digits := Nat.toDigits 10 d.digits
      let point := (digits.length : Int) + d.exponent
      sign ++ if format.lowest < point ∧ point ≤ 16 then positional digits point
        else scientific format.plus digits (point - 1)

end Binary64

end PropertyGraphQL
