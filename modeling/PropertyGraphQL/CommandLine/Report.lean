/-
What commands print.

A failure ends a command at once. A field that cannot be compiled is
reported, and the other fields are shown all the same.
-/
import PropertyGraphQL.CommandLine.Command
import PropertyGraphQL.Compile.Mutation
import PropertyGraphQL.Environment.Settings
import PropertyGraphQL.Json.Writer
import PropertyGraphQL.Model.Description
import PropertyGraphQL.Model.Record
import PropertyGraphQL.Model.Schema
import PropertyGraphQL.Request.Operation

namespace PropertyGraphQL

/-- The texts of files; instead of a text, why there is none. -/
abbrev FileTexts := (file : String) → Except String String

/-- What a command prints, and its exit status. -/
structure Report where
  output : String
  errors : String
  status : Nat
deriving DecidableEq, Repr

/-- Why a command fails. -/
inductive CommandFailure where
  | schemaUnreadable (file cause : String)
  | requestUnreadable (file cause : String)
  | schemaInvalid (file : String)
  | variablesInvalid
  | setting (error : SettingError)
  | document (error : DocumentError)
  /-- Some fields cannot be compiled. -/
  | fields (count : Nat)
deriving DecidableEq, Repr

namespace CommandFailure

def message : CommandFailure → String
  | schemaUnreadable file _ => "Could not read schema file " ++ file
  | requestUnreadable file _ => "Could not read query file " ++ file
  | schemaInvalid file => "Invalid schema in " ++ file
  | variablesInvalid => "Variables must be a JSON object"
  | setting error => error.message
  | document error => error.message
  | fields count => count.repr ++ " field(s) could not be translated"

/-- What lies behind the failure. -/
def cause? : CommandFailure → Option String
  | schemaUnreadable _ cause => some cause
  | requestUnreadable _ cause => some cause
  | variablesInvalid => some "the text is no JSON object"
  | _ => none

/-- The lines for the failure. -/
def text (f : CommandFailure) : String :=
  let cause :=
    match f.cause? with
    | some cause => "\n\nCaused by:\n    " ++ cause
    | none => ""
  "Error: " ++ f.message ++ cause ++ "\n"

end CommandFailure

namespace Report

def success (output : String) : Report := ⟨output, "", 0⟩

def failure (f : CommandFailure) : Report := ⟨"", f.text, 1⟩

/-- The report for words that are no command. -/
def usage (e : UsageError) : Report := ⟨"", "error: " ++ e.message ++ "\n", 2⟩

/-- Two reports as one, the second deciding on the exit status. -/
def append (r s : Report) : Report := ⟨r.output ++ s.output, r.errors ++ s.errors, s.status⟩

end Report

namespace Compiled

/-- The lines for a statement: the text, and the parameters if there are
any. -/
def lines (c : Compiled) : String :=
  let parameters := if c.parameters.isEmpty then "" else "\n" ++ (Json.obj c.parameters).pretty
  c.statement ++ parameters ++ "\n"

end Compiled

namespace Command

/-- The report for a field. -/
def fieldReport (f : RootField) (result : Except CompileError Compiled) : Report :=
  let key := f.head.responseKey
  match result with
  | .ok compiled => .success ("// " ++ key ++ "\n" ++ compiled.lines)
  | .error e => ⟨"", "error " ++ key ++ ": " ++ e.message ++ "\n", 1⟩

/-- The report for the fields of an operation. -/
def operationReport (compiler : Compiler) (o : Operation) : Report :=
  let results := o.fields.map fun f =>
    (f, compiler.compile (o.kind = .mutation) f o.vars)
  let count := results.countP fun (_, result) => !result.isOk
  let fields :=
    (results.map fun (f, result) => fieldReport f result).foldl Report.append (.success "")
  if count = 0 then fields else fields.append (.failure (.fields count))

/-- The variables in a text; none without a text. -/
def readVariables : Option String → Except CommandFailure (Dict Json)
  | none => .ok []
  | some text =>
      match Json.parse? text with
      | some (.obj members) => .ok members
      | _ => .error .variablesInvalid

/-- The catalog of the schema in a file. -/
def readCatalog (files : FileTexts) (file : String) : Except CommandFailure Catalog :=
  match files file with
  | .error cause => .error (.schemaUnreadable file cause)
  | .ok source => (Catalog.parse source).mapError fun _ => .schemaInvalid file

/-- The text of the request in a file. -/
def readRequest (files : FileTexts) (file : String) : Except CommandFailure String :=
  (files file).mapError (.requestUnreadable file)

/-- Carry out a command. -/
def report (files : FileTexts) (e : Environment) : Command → Except CommandFailure Report
  | .schema file asJson => do
      let catalog ← readCatalog files file
      return .success (if asJson then catalog.toJson.pretty ++ "\n" else catalog.describe)
  | .statements file request dialect vars operation => do
      let catalog ← readCatalog files file
      let source ← readRequest files request
      let vars ← readVariables vars
      let options ← e.compileOptions.mapError .setting
      let compiler : Compiler := ⟨catalog, { options with dialect := dialect.getD options.dialect }⟩
      let o ← (Operation.parse source operation vars).mapError .document
      return operationReport compiler o

end Command

namespace Report

/-- The report for the words of a command line. -/
def ofWords (files : FileTexts) (e : Environment) (words : List String) : Report :=
  match Command.ofWords words with
  | .error error => .usage error
  | .ok command =>
      match command.report files e with
      | .ok report => report
      | .error f => .failure f

end Report

end PropertyGraphQL
