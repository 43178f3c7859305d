/-
Upper and lower case of a character, by the full mapping of Unicode:
the counterpart of one character may be several (`ß` becomes `SS`), and
a character without a counterpart stands for itself.
-/
import PropertyGraphQL.Text.CaseTable

namespace PropertyGraphQL.Text

/-- The counterpart of `code`, if the run covers it. -/
def CaseRun.counterpart? (run : CaseRun) (code : Nat) : Option Nat :=
  if run.first ≤ code ∧ code ≤ run.last ∧ (code - run.first) % run.step = 0 then
    some (Int.ofNat code + run.distance).toNat
  else
    none

/-- Look a character up among the sequences, then among the runs. -/
def mapCase (runs : List CaseRun) (sequences : List (Nat × List Nat)) (c : Char) :
    List Char :=
  match sequences.lookup c.toNat with
  | some codes => codes.map Char.ofNat
  | none =>
      match runs.findSome? (·.counterpart? c.toNat) with
      | some code => [Char.ofNat code]
      | none => [c]

/-- The lower case of a character. -/
def lower (c : Char) : List Char :=
  mapCase CaseTable.lowerRuns CaseTable.lowerSequences c

/-- The upper case of a character. -/
def upper (c : Char) : List Char :=
  mapCase CaseTable.upperRuns CaseTable.upperSequences c

/-- Every character of a text in lower case. -/
def lowercase (s : String) : String :=
  String.ofList (s.toList.flatMap lower)

/-- The text with its first character in lower case. -/
def uncapitalize (s : String) : String :=
  match s.toList with
  | [] => ""
  | c :: rest => String.ofList (lower c ++ rest)

/-- The text with its first character in upper case. -/
def capitalize (s : String) : String :=
  match s.toList with
  | [] => ""
  | c :: rest => String.ofList (upper c ++ rest)

end PropertyGraphQL.Text
