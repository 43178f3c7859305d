/-
The command line.
-/
import PropertyGraphQL.CommandLine.Report

namespace PropertyGraphQL

/-- The text of a file, or why there is none. -/
def readFileText (file : String) : IO (Except String String) := do
  try
    return .ok (← IO.FS.readFile file)
  catch e =>
    return .error e.toString

/-- The texts of the files that words name, if the words are a command. -/
def readFileTexts (words : List String) : IO FileTexts := do
  let files := ((Command.ofWords words).toOption.map Command.files).getD []
  let texts ← files.mapM fun file => do
    return (file, ← readFileText file)
  return fun file => (texts.lookup file).getD (.error "it was not read")

/-- The settings of the process. -/
def processEnvironment : IO Environment := do
  let keys := [Environment.dialectKey, Environment.runFunctionKey, Environment.sortFunctionKey]
  let texts ← keys.filterMapM fun key => do
    return (← IO.getEnv key).map fun value => (key, value)
  return ⟨texts, []⟩

end PropertyGraphQL

def main (words : List String) : IO UInt32 := do
  let files ← PropertyGraphQL.readFileTexts words
  let report := PropertyGraphQL.Report.ofWords files (← PropertyGraphQL.processEnvironment) words
  IO.print report.output
  IO.eprint report.errors
  return report.status.toUInt32
