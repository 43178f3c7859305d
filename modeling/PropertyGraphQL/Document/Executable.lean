/-
Request documents: operations and fragments.
-/
import PropertyGraphQL.Document.Value
import PropertyGraphQL.Text.Position

namespace PropertyGraphQL

/-- An argument of a directive. -/
structure DirectiveArgument where
  name : String
  value : Value
  place : Position

/-- A directive as it is written behind a field, a fragment or a definition. -/
structure Directive where
  name : String
  arguments : List DirectiveArgument
  place : Position

namespace Directive

/-- The first argument of a name. -/
def argument? (d : Directive) (name : String) : Option DirectiveArgument :=
  d.arguments.find? fun a => a.name = name

end Directive

/-- An element of a selection as it is written. -/
inductive Selected where
  /-- `rename` is the name that the field has in the response, if it is another. -/
  | field (name : String) (rename : Option String) (arguments : List (String × Value))
      (directives : List Directive) (selections : List Selected)
  | fragment (condition : Option String) (directives : List Directive)
      (selections : List Selected)
  /-- A fragment that is defined elsewhere. -/
  | spread (fragment : String) (directives : List Directive) (place : Position)

/-- What an operation asks for. -/
inductive OperationType where
  | query
  | mutation
  | subscription
deriving DecidableEq, Repr

namespace OperationType

/-- The word for it in a document. -/
def word : OperationType → String
  | query => "query"
  | mutation => "mutation"
  | subscription => "subscription"

def ofWord? : String → Option OperationType
  | "query" => some query
  | "mutation" => some mutation
  | "subscription" => some subscription
  | _ => none

theorem ofWord?_word (t : OperationType) : ofWord? t.word = some t := by
  cases t <;> rfl

end OperationType

/-- An operation of a document. -/
structure OperationDefinition where
  type : OperationType
  name : Option String
  /-- The variables with their defaults. -/
  vars : List (String × Option Value)
  selections : List Selected
  place : Position

/-- A fragment of a document. -/
structure FragmentDefinition where
  name : String
  condition : String
  selections : List Selected
  place : Position

/-- A definition of a request document. -/
inductive ExecutableDefinition where
  | operation (definition : OperationDefinition)
  | fragment (definition : FragmentDefinition)

/-- A request document: either one operation without a name, or named
ones with distinct names. Fragments have distinct names. -/
structure ExecutableDocument where
  operations : List OperationDefinition
  fragments : Dict FragmentDefinition

end PropertyGraphQL
