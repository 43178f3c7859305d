/-
Settings from outside: texts under keys, in layers.

A key has the text of the first layer that knows it (`get?_set`). A text
is read as a flag or as a number only where one is asked for; a key
without a text has a default there.
-/
import PropertyGraphQL.Dict
import PropertyGraphQL.Json.Numeral
import PropertyGraphQL.Text.Blank
import PropertyGraphQL.Text.Case

namespace PropertyGraphQL

/-- Texts under keys. -/
structure Environment where
  own : Dict String
  /-- The layers asked, one after the other, for keys without a text of
  their own. -/
  fallbacks : List (Dict String)

/-- Why a setting cannot be used. -/
inductive SettingError where
  | notFlag (key value : String)
  | notNumber (key value : String)
  | notAllowed (key value problem : String)
deriving DecidableEq, Repr

namespace SettingError

def message : SettingError → String
  | notFlag key value =>
      "Invalid value for " ++ key ++ ": " ++ value
        ++ ". Expected true, 1, yes, on, enabled, enable OR false, 0, no, off, disabled, disable"
  | notNumber key value =>
      "Invalid value for " ++ key ++ ": " ++ value ++ ". Expected a non-negative integer"
  | notAllowed key value problem =>
      "Invalid env value " ++ value ++ " for " ++ key ++ ": " ++ problem

end SettingError

namespace Text

/-- The words that switch something on. -/
def onWords : List String := ["true", "1", "yes", "on", "enabled", "enable"]

/-- The words that switch something off. -/
def offWords : List String := ["false", "0", "no", "off", "disabled", "disable"]

/-- A flag, in letters of either case. -/
def flag? (s : String) : Option Bool :=
  let word := lowercase s
  if word ∈ onWords then some true
  else if word ∈ offWords then some false
  else none

/-- The digits of a number behind at most one plus sign. -/
def afterPlus : List Char → List Char
  | '+' :: rest => rest
  | cs => cs

/-- A number of at most 64 bits: decimal digits with blanks around them and
at most one plus sign in front. -/
def natural64? (s : String) : Option Nat :=
  let digits := afterPlus (trimList s.toList)
  let n := Numeral.ofDigits digits
  if digits ≠ [] ∧ digits.all Char.isDigit ∧ n ≤ maxUInt64 then some n else none

end Text

namespace Environment

def empty : Environment := ⟨[], []⟩

/-- The layers, the one asked first in front. -/
def layers (e : Environment) : List (Dict String) := e.own :: e.fallbacks

/-- The text of a key. -/
def get? (e : Environment) (key : String) : Option String :=
  e.layers.findSome? (·.get? key)

/-- Set the text of a key, which hides one in the fallbacks. -/
def set (e : Environment) (key value : String) : Environment :=
  { e with own := e.own.insert key value }

theorem get?_set (e : Environment) (key other value : String) :
    (e.set key value).get? other = if key = other then some value else e.get? other := by
  simp only [get?, set, layers, List.findSome?_cons, Dict.get?_insert]
  by_cases h : key = other <;> simp [h]

/-- The text of a key, or a default. -/
def getD (e : Environment) (key default : String) : String := (e.get? key).getD default

/-- The flag under a key. -/
def flag (e : Environment) (key : String) (default : Bool) : Except SettingError Bool :=
  match e.get? key with
  | none => .ok default
  | some value =>
      match Text.flag? value with
      | some b => .ok b
      | none => .error (.notFlag key value)

/-- The number under a key. -/
def natural (e : Environment) (key : String) (default : Nat) : Except SettingError Nat :=
  match e.get? key with
  | none => .ok default
  | some value =>
      match Text.natural64? value with
      | some n => .ok n
      | none => .error (.notNumber key value)

end Environment

end PropertyGraphQL
