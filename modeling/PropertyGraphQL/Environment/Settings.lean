/-
The settings that are taken from the environment.
-/
import PropertyGraphQL.Compile.Options
import PropertyGraphQL.Environment

namespace PropertyGraphQL

namespace Environment

def dialectKey : String := "GRAPHQL_CYPHER_DIALECT"

def runFunctionKey : String := "GRAPHQL_CYPHER_RUN_FUNCTION"

def sortFunctionKey : String := "GRAPHQL_CYPHER_SORT_FUNCTION"

def checkIntervalKey : String := "GRAPHQL_CYPHER_SCHEMA_CHECK_INTERVAL_MS"

/-- The dialect of statements. -/
def dialect (e : Environment) : Except SettingError Dialect :=
  match e.get? dialectKey with
  | none => .ok CompileOptions.standard.dialect
  | some value =>
      match Dialect.ofWord? value with
      | some d => .ok d
      | none =>
          .error (.notAllowed dialectKey value "Must be 'staged' or 'comprehension'")

/-- How statements are written. -/
def compileOptions (e : Environment) : Except SettingError CompileOptions := do
  let standard := CompileOptions.standard
  return { dialect := ← e.dialect
           runFunction := e.getD runFunctionKey standard.runFunction
           sortFunction := e.getD sortFunctionKey standard.sortFunction }

/-- The milliseconds between two comparisons of a snapshot with the graph,
where nothing else is said. -/
def standardCheckInterval : Nat := 10000

/-- The milliseconds between two comparisons of a snapshot with the graph. -/
def checkInterval (e : Environment) : Except SettingError Nat :=
  e.natural checkIntervalKey standardCheckInterval

end Environment

end PropertyGraphQL
