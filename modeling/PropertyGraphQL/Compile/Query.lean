/-
Compiling the fields of queries into statements.

A field that the schema declares runs its statement, or selects entities of
its type; any other field is named after a type and selects the entities of
that type.
-/
import PropertyGraphQL.Compile.Staged
import PropertyGraphQL.Cypher.Writer

namespace PropertyGraphQL

open Cypher

/-- The text to run: clauses, or a statement written by hand. -/
inductive StatementBody where
  | clauses (statement : Statement)
  | written (report : Option PlanReport) (text : String)

/-- A field compiled. -/
structure Compiled where
  body : StatementBody
  /-- The values of the parameters. -/
  parameters : Dict Json
  /-- Whether the field is a list, not a single value or null. -/
  isList : Bool

namespace StatementBody

def text : StatementBody → String
  | clauses s => s.text
  | written none text => text
  | written (some report) text => report.text ++ text

end StatementBody

namespace Compiled

/-- The text of the statement. -/
def statement (c : Compiled) : String := c.body.text

end Compiled

/-- The report that a field asks for; a profile if it asks for both. -/
def FieldHead.planReport? (head : FieldHead) : Option PlanReport :=
  if head.hasDirective "profile" then some .profile
  else if head.hasDirective "explain" then some .explain
  else none

/-- The variable for the entities of a field at the top: the name of the
type with its first character in lower case, and an underscore behind it if
that is the response key. -/
def rootVariable (typeName responseKey : String) : String :=
  let name := Text.uncapitalize typeName
  if name = responseKey then name ++ "_" else name

namespace Compiler

/-- Run a step with the variables of a request and no parameter bound. -/
def runWith {α : Type} (vars : Dict Json) (step : Compiling α) :
    Except CompileError (α × Parameters) :=
  step.run ⟨vars, []⟩

/-- The clauses with the report that a field asks for. -/
def finish (head : FieldHead) (clauses : List Clause) (p : Parameters) (isList : Bool) :
    Compiled :=
  ⟨.clauses ⟨head.planReport?, clauses⟩, p.bound, isList⟩

/-- What is read from an entity for a selection: the projection, behind the
clauses that it needs. -/
def project (c : Compiler) (t : EntityType) (entity : String) (selections : List Selection) :
    Compiling (Expression × List Clause) := do
  let entries ← c.plan t entity selections
  match c.options.dialect with
  | .comprehension =>
      let items := Plan.projectionItems c.options.sortFunction entity entries
      return (.projection entity items, [])
  | .staged =>
      let stage := Plan.stageEntries [entity] entries
      return (.map stage.result, stage.clauses)

/-- The clauses that select entities of a type. -/
def scopeClauses (c : Compiler) (f : RootField) (t : EntityType) : Compiling (List Clause) := do
  let key := f.head.responseKey
  let entity := rootVariable t.name key
  let arguments ← ScopeArguments.ofArguments c.catalog t entity [] f.head.arguments
  let (projection, nested) ← c.project t entity f.selections
  return .matching (.node (.labelled entity t.name)) false arguments.condition :: nested
    ++ [.returnItems [.aliased projection key] (arguments.orderByClause entity)
      arguments.skip arguments.limit]

/-- Select entities of a type. -/
def scopeQuery (c : Compiler) (f : RootField) (t : EntityType) (vars : Dict Json)
    (isList : Bool) : Except CompileError Compiled := do
  let (clauses, p) ← runWith vars (c.scopeClauses f t)
  return finish f.head clauses p isList

/-- The value of an argument of a declared operation: what is given for it,
or its default, or null. -/
def declaredValue (head : FieldHead) (name : String) (declared : DeclaredArgument) :
    Compiling Json :=
  match head.arguments.get? name with
  | some value => Compiling.resolve value
  | none => pure (declared.default.getD .null)

/-- Bind the parameters of the statement of a declared operation. -/
def bindDeclared (head : FieldHead) (operation : RootOperation) (custom : CustomStatement) :
    Compiling Unit := do
  for (name, value) in custom.staticParameters do
    Compiling.bindExactly name value
  match head.arguments.keys.find? fun name => !operation.arguments.contains name with
  | some name => throw (.unknownArgument operation.name name)
  | none => pure ()
  for (name, declared) in operation.arguments do
    Compiling.bindExactly name (← declaredValue head name declared)

/-- Run the statement of a declared operation, whose rows are returned as
they are. -/
def declaredOperation (head : FieldHead) (operation : RootOperation)
    (custom : CustomStatement) (vars : Dict Json) : Except CompileError Compiled := do
  let ((), p) ← runWith vars (bindDeclared head operation custom)
  return ⟨.written head.planReport? custom.statement, p.bound, operation.returnType.isList⟩

/-- Compile a field of a query. -/
def query (c : Compiler) (f : RootField) (vars : Dict Json) :
    Except CompileError Compiled :=
  match c.catalog.queries.get? f.head.name with
  | some operation =>
      match operation.custom with
      | some custom => declaredOperation f.head operation custom vars
      | none =>
          match c.catalog.type? operation.returnType.name with
          | some t => c.scopeQuery f t vars operation.returnType.isList
          | none => .error (.unknownType operation.returnType.name)
  | none =>
      match c.catalog.type? f.head.name with
      | some t => c.scopeQuery f t vars true
      | none => .error (.unknownField "Query" f.head.name)

/-- Compile a field that selects the entities of a given type. -/
def queryOn (c : Compiler) (f : RootField) (t : EntityType) (vars : Dict Json) :
    Except CompileError Compiled :=
  c.scopeQuery f t vars true

end Compiler

end PropertyGraphQL
