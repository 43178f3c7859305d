/-
The operation that a request runs.

The operation is chosen by its name, or is the only one. Fragments are
written out in its selection, fields excluded by `skip` and `include` are
left out, and variables that were not supplied take their defaults.
Whether the fields exist is not asked here.

Fragments may not spread themselves. `expandFragment` counts down the
fragments that are not being expanded yet, so writing out always ends.
-/
import PropertyGraphQL.Document.Reader
import PropertyGraphQL.Request.Selection

namespace PropertyGraphQL

/-- Why a request document gives no operation. -/
inductive DocumentError where
  /-- The text is no request document. -/
  | unreadable (message : String) (place : Position)
  /-- There are several operations and none is named. -/
  | operationNameMissing
  | operationUnknown (name : String)
  | subscription
  | fragmentNotFound (name : String) (place : Position)
  | fragmentCycle (name : String) (place : Position)
  /-- The condition of `skip` or `include` is not as it should be. -/
  | invalidCondition (directive : String) (problem : String) (place : Position)
deriving DecidableEq, Repr

namespace DocumentError

/-- The error for a text with a fault. -/
def ofFault (fault : DocumentFault) : DocumentError :=
  .unreadable fault.message (fault.place?.getD .nowhere)

def place : DocumentError → Position
  | unreadable _ p => p
  | fragmentNotFound _ p => p
  | fragmentCycle _ p => p
  | invalidCondition _ _ p => p
  | _ => .nowhere

def message : DocumentError → String
  | unreadable message p => "Syntax error at " ++ p.text ++ ": " ++ message
  | operationNameMissing =>
      "Must provide operation name if query contains multiple operations"
  | operationUnknown name => "operationName '" ++ name ++ "' doesn't match any operation"
  | subscription => "Subscriptions are not supported"
  | fragmentNotFound name _ => "Fragment definition '" ++ name ++ "' not found"
  | fragmentCycle name _ => "Fragment '" ++ name ++ "' spreads itself"
  | invalidCondition directive problem _ => "Invalid @" ++ directive ++ " directive: " ++ problem

end DocumentError

inductive OperationKind where
  | query
  | mutation
deriving DecidableEq, Repr

/-- An operation to run. -/
structure Operation where
  name : Option String
  kind : OperationKind
  /-- The fields at the top, in the order of the document. -/
  fields : List RootField
  /-- The variables supplied, and the defaults of the others. -/
  vars : Dict Json

-- ========================================================== conditions

namespace Directive

/-- Whether a selection is kept when the condition of the directive holds;
nothing for a directive without condition. -/
def keepsIf? (d : Directive) : Option Bool :=
  if d.name = "skip" then some false
  else if d.name = "include" then some true
  else none

/-- The condition of a directive. -/
def condition (vars : Dict Json) (d : Directive) : Except DocumentError Bool :=
  let invalid (problem : String) : DocumentError := .invalidCondition d.name problem d.place
  match d.argument? "if" with
  | none => .error (invalid "missing \x60if\x60 argument")
  | some a =>
      match a.value with
      | .boolean b => .ok b
      | .var name =>
          match vars.get? name with
          | some (.bool b) => .ok b
          | _ => .error (invalid ("variable '" ++ name ++ "' must be supplied as a boolean"))
      | _ => .error (invalid "\x60if\x60 must be a boolean")

/-- Whether directives keep a selection. The first that excludes it decides. -/
def keep (vars : Dict Json) : List Directive → Except DocumentError Bool
  | [] => .ok true
  | d :: rest =>
      match d.keepsIf? with
      | none => keep vars rest
      | some keepsIf => do
          if (← d.condition vars) = keepsIf then keep vars rest else return false

/-- The directive as it is left to the field. -/
def applied (d : Directive) : AppliedDirective :=
  ⟨d.name, Dict.ofEntries (d.arguments.map fun a => (a.name, a.value.within64))⟩

end Directive

-- ======================================================== writing out

/-- How a fragment that is spread somewhere is written out there. -/
abbrev Expansion := (name : String) → (place : Position) → Except DocumentError Selection

namespace Selected

/-- A field as it is left to the selection. -/
def head (name : String) (rename : Option String) (arguments : List (String × Value))
    (directives : List Directive) : FieldHead :=
  { name
    rename
    arguments := Dict.ofEntries (arguments.map fun (k, v) => (k, v.within64))
    directives := (directives.filter fun d => d.keepsIf?.isNone).map Directive.applied }

mutual

/-- The selection without what directives exclude and with fragments
written out. -/
def lower (vars : Dict Json) (expand : Expansion) :
    Selected → Except DocumentError (List Selection)
  | .field name rename arguments directives selections => do
      if ← Directive.keep vars directives then
        return [.field (head name rename arguments directives)
          (← lowerAll vars expand selections)]
      else return []
  | .fragment condition directives selections => do
      if ← Directive.keep vars directives then
        return [.fragment condition (← lowerAll vars expand selections)]
      else return []
  | .spread name directives place => do
      if ← Directive.keep vars directives then return [← expand name place] else return []

def lowerAll (vars : Dict Json) (expand : Expansion) :
    List Selected → Except DocumentError (List Selection)
  | [] => .ok []
  | s :: rest => do
      let first ← lower vars expand s
      return first ++ (← lowerAll vars expand rest)

end

/-- Write out a fragment inside the fragments `within`. At most `fuel` of
all fragments are not among those. -/
def expandFragment (fragments : Dict FragmentDefinition) (vars : Dict Json) :
    (fuel : Nat) → (within : List String) → Expansion
  | fuel, within, name, place =>
      match fragments.get? name with
      | none => .error (.fragmentNotFound name place)
      | some definition =>
          if name ∈ within then .error (.fragmentCycle name place)
          else
            match fuel with
            | 0 => .error (.fragmentCycle name place)
            | fuel + 1 => do
                let expand := expandFragment fragments vars fuel (name :: within)
                return .fragment (some definition.condition)
                  (← lowerAll vars expand definition.selections)

end Selected

-- ========================================================== operations

namespace ExecutableDocument

/-- The operation to run, and its name: the only one, or the one of the
given name. -/
def select (d : ExecutableDocument) (name : Option String) :
    Except DocumentError (Option String × OperationDefinition) :=
  match d.operations, name with
  | [o], none => .ok (o.name, o)
  | _, none => .error .operationNameMissing
  | operations, some name =>
      match operations.find? fun o => o.name = none || o.name = some name with
      | some o => .ok (some name, o)
      | none => .error (.operationUnknown name)

end ExecutableDocument

namespace Operation

/-- The variables with the defaults of those that were not supplied. -/
def withDefaults (definitions : List (String × Option Value)) (vars : Dict Json) :
    Dict Json :=
  definitions.foldl (fun d (name, default) =>
    match default with
    | some v => d.insertNew name v.toJson
    | none => d) vars

/-- The operation that a document runs. -/
def ofDocument (d : ExecutableDocument) (name : Option String) (vars : Dict Json) :
    Except DocumentError Operation := do
  let (name, definition) ← d.select name
  let kind ←
    match definition.type with
    | .query => pure OperationKind.query
    | .mutation => pure OperationKind.mutation
    | .subscription => throw .subscription
  let vars := withDefaults definition.vars vars
  let expand := Selected.expandFragment d.fragments vars d.fragments.length []
  let selections ← Selected.lowerAll vars expand definition.selections
  return ⟨name, kind, Selection.rootFields selections, vars⟩

/-- The operation that the text of a document runs. -/
def parse (text : String) (name : Option String) (vars : Dict Json) :
    Except DocumentError Operation :=
  match ExecutableDocument.parse text with
  | .ok d => ofDocument d name vars
  | .error fault => .error (.ofFault fault)

end Operation

end PropertyGraphQL
