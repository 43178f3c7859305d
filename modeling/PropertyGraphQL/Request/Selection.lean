/-
Selections of a request: fields, and fragments that apply to a type.

Fragments are written out and fields that a directive excludes are gone;
variables still stand in the arguments.
-/
import PropertyGraphQL.Document.Value

namespace PropertyGraphQL

/-- A directive of a field, other than those that exclude fields. -/
structure AppliedDirective where
  name : String
  arguments : Dict Value

/-- A field without its selection. -/
structure FieldHead where
  name : String
  /-- The name that the field has in the response, if it is another. -/
  rename : Option String
  arguments : Dict Value
  directives : List AppliedDirective

namespace FieldHead

/-- A field with nothing but its name. -/
def plain (name : String) : FieldHead := ⟨name, none, [], []⟩

/-- The key of the field in the response. -/
def responseKey (f : FieldHead) : String := f.rename.getD f.name

def hasDirective (f : FieldHead) (name : String) : Bool :=
  f.directives.any fun d => d.name = name

end FieldHead

/-- An element of a selection. -/
inductive Selection where
  | field (head : FieldHead) (selections : List Selection)
  /-- A fragment that applies to a type, or to any. -/
  | fragment (condition : Option String) (selections : List Selection)

/-- A field at the top of a request. -/
structure RootField where
  head : FieldHead
  selections : List Selection

namespace Selection

mutual

/-- The fields of a selection, those in fragments included. -/
def rootFields : List Selection → List RootField
  | [] => []
  | s :: rest => rootFieldsOf s ++ rootFields rest

def rootFieldsOf : Selection → List RootField
  | .field head selections => [⟨head, selections⟩]
  | .fragment _ selections => rootFields selections

end

end Selection

end PropertyGraphQL
