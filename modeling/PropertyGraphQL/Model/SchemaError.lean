/-
Why a schema document gives no catalog, and how that is shown in the text
of the document.

A diagnostic marks the byte at the place of the error; at the end of the
text it marks nothing.
-/
import PropertyGraphQL.Document.Fault
import PropertyGraphQL.Model.EntityType
import PropertyGraphQL.Text.Blank

namespace PropertyGraphQL

/-- Why a schema document gives no catalog. -/
inductive SchemaError where
  /-- The text is no schema document. -/
  | unreadable (message : String) (place : Position)
  | model (error : ModelError) (place : Position)
  /-- The arguments of a directive are not as they should be. -/
  | directive (name : String) (problem : String) (place : Position)
deriving DecidableEq, Repr

/-- A part of a text that a diagnostic points to, in bytes. -/
structure MarkedSpan where
  first : Nat
  last : Nat
  label : String
deriving DecidableEq, Repr

/-- An error shown in the text that it is about. -/
structure Diagnostic where
  code : String
  message : String
  span : MarkedSpan
deriving DecidableEq, Repr

namespace SchemaError

/-- The error for a text with a fault; one without a place is at the start. -/
def ofFault (fault : DocumentFault) : SchemaError :=
  .unreadable fault.message (fault.place?.getD .start)

def place : SchemaError → Position
  | unreadable _ p => p
  | model _ p => p
  | directive _ _ p => p

def message : SchemaError → String
  | unreadable message p => "Syntax error at " ++ p.text ++ ": " ++ message
  | model error p => error.message ++ " (at " ++ p.text ++ ")"
  | directive name problem p =>
      "Invalid @" ++ name ++ " directive at " ++ p.text ++ ": " ++ problem

def code : SchemaError → String
  | unreadable .. => "S000"
  | model .. => "S001"
  | directive .. => "S002"

/-- The characters without any number of marks `= ` in front. -/
def dropMarks : List Char → List Char
  | '=' :: ' ' :: rest => dropMarks rest
  | cs => cs

/-- The last line of a message that is not blank, without the mark in
front of it. -/
def lastLine (message : String) : String :=
  let line := ((Text.lines message).map Text.trim).reverse.find? (· ≠ "")
  String.ofList (dropMarks (line.getD message).toList)

/-- What is written beside the marked place. -/
def label : SchemaError → String
  | unreadable message _ => lastLine message
  | model .. => "declared here"
  | directive _ problem _ => problem

/-- The message of a diagnostic, which says nothing of the place. -/
def headline : SchemaError → String
  | unreadable .. => "Syntax error"
  | model error _ => error.message
  | directive name .. => "Invalid @" ++ name ++ " directive"

/-- The error shown in the text `source`. -/
def diagnostic (e : SchemaError) (source : String) : Diagnostic :=
  let offset := Text.byteOffset source e.place
  let last := min (offset + 1) (Text.utf8Size source.toList)
  ⟨e.code, e.headline, ⟨min offset last, last, e.label⟩⟩

end SchemaError

end PropertyGraphQL
