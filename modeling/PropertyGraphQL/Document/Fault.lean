/-
Faults of documents: why a text is no document.
-/
import PropertyGraphQL.Document.Executable
import PropertyGraphQL.Json.Numeral

namespace PropertyGraphQL

/-- Why a text is no document. -/
inductive DocumentFault where
  /-- The text does not follow the grammar. -/
  | grammar (place : Position)
  /-- A number of the given length has no value. -/
  | number (fault : NumeralFault) (length : Nat) (place : Position)
  /-- A schema definition names two root types for one kind of operation. -/
  | repeatedRoot (type : OperationType) (place : Position)
  | missingQueryRoot (place : Position)
  /-- Selections are nested too deep. -/
  | nesting
  /-- An operation without a name is not alone. -/
  | severalOperations (place : Position)
  | repeatedOperation (name : String) (place : Position)
  | repeatedFragment (name : String) (place : Position)
  | noOperation
deriving DecidableEq, Repr

namespace DocumentFault

/-- Where the fault is, if it is at one place. -/
def place? : DocumentFault → Option Position
  | grammar p => some p
  | number _ _ p => some p
  | repeatedRoot _ p => some p
  | missingQueryRoot p => some p
  | nesting => none
  | severalOperations p => some p
  | repeatedOperation _ p => some p
  | repeatedFragment _ p => some p
  | noOperation => none

def message : DocumentFault → String
  | grammar p =>
      -- The arrow and the mark below it leave room for the number of a line.
      let margin := String.ofList (List.replicate p.line.repr.length ' ')
      margin ++ "--> " ++ p.text ++ "\n" ++ margin ++ " = unexpected text"
  | number .range length _ =>
      "invalid number: number out of range at line 1 column " ++ length.repr
  | number (.exponent unread) length _ =>
      "invalid number: invalid number at line 1 column " ++ (length - unread + 1).repr
  | repeatedRoot type _ => "multiple " ++ type.word ++ " roots in schema definition"
  | missingQueryRoot _ => "schema definition is missing query root"
  | nesting => "recursion limit exceeded."
  | severalOperations _ => "document contains multiple operations"
  | repeatedOperation name _ => "operation " ++ name ++ " is defined twice"
  | repeatedFragment name _ => "fragment " ++ name ++ " is defined twice"
  | noOperation => "document does not contain an operation"

end DocumentFault

end PropertyGraphQL
