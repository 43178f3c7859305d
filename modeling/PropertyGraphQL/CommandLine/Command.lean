/-
The commands of the command line, and how they are written.

Words that begin with a hyphen are options, up to a word `--`; all others
are the names of files. An option that takes a value has it in the same
word behind `=`, in the same word behind a short option, or in the next
word.
-/
import PropertyGraphQL.Compile.Options
import PropertyGraphQL.Dict
import PropertyGraphQL.Text.Affix

namespace PropertyGraphQL

/-- A command. -/
inductive Command where
  /-- Check a schema and show how it maps onto the graph. -/
  | schema (file : String) (asJson : Bool)
  /-- Show the statements for an operation. -/
  | statements (schema request : String) (dialect : Option Dialect)
      (vars operation : Option String)
deriving DecidableEq, Repr

/-- Why words are no command. -/
inductive UsageError where
  | unknownCommand (words : List String)
  | unknownOption (word : String)
  | missingValue (option : String)
  | repeated (option : String)
  | invalidValue (option value : String)
  | wrongFiles (expected : Nat) (files : List String)
deriving DecidableEq, Repr

namespace UsageError

def message : UsageError → String
  | unknownCommand _ => "expected one of the commands schema and translate"
  | unknownOption word => "unexpected argument '" ++ word ++ "' found"
  | missingValue option => "a value is required for '--" ++ option ++ "' but none was supplied"
  | repeated option => "the argument '--" ++ option ++ "' cannot be used multiple times"
  | invalidValue option value => "invalid value '" ++ value ++ "' for '--" ++ option ++ "'"
  | wrongFiles expected files =>
      "expected " ++ expected.repr ++ " file(s), found " ++ files.length.repr

end UsageError

/-- An option. -/
structure OptionForm where
  name : String
  letter : Option Char
  takesValue : Bool

namespace OptionForm

/-- The value in a word behind a short option: everything, but for an
equals sign at its beginning. -/
def attached? : List Char → Option String
  | [] => none
  | '=' :: rest => some (String.ofList rest)
  | rest => some (String.ofList rest)

/-- Read the option in a word: nothing if it is another; else the value in
the word, if there is one. -/
def read? (form : OptionForm) (word : String) : Option (Option String) :=
  match word.toList with
  | '-' :: '-' :: rest =>
      if String.ofList rest = form.name then some none
      else (Text.dropLead? (String.ofList rest) (form.name ++ "=")).map some
  | '-' :: c :: rest => if form.letter = some c then some (attached? rest) else none
  | _ => none

/-- The option in a word, among several. -/
def find? (forms : List OptionForm) (word : String) : Option (OptionForm × Option String) :=
  forms.findSome? fun form => (form.read? word).map (form, ·)

end OptionForm

/-- Words sorted into files and options. -/
structure SortedWords where
  files : List String
  /-- The values of the options given; one without value has an empty text. -/
  options : Dict String

namespace SortedWords

def addFile (s : SortedWords) (file : String) : SortedWords :=
  { s with files := s.files ++ [file] }

/-- Add an option, which may be given once. -/
def addOption (s : SortedWords) (name value : String) : Except UsageError SortedWords :=
  if s.options.contains name then .error (.repeated name)
  else .ok { s with options := s.options.insert name value }

/-- Whether a word is an option. -/
def isOption (word : String) : Bool :=
  match word.toList with
  | '-' :: _ :: _ => true
  | _ => false

/-- Sort the words of a command with the given options. -/
def ofWords (forms : List OptionForm) (s : SortedWords) :
    List String → Except UsageError SortedWords
  | [] => .ok s
  | word :: rest =>
      if word = "--" then .ok { s with files := s.files ++ rest }
      else if !isOption word then ofWords forms (s.addFile word) rest
      else
        match OptionForm.find? forms word with
        | none => .error (.unknownOption word)
        | some (form, value) =>
            match form.takesValue, value, rest with
            | false, none, rest => do ofWords forms (← s.addOption form.name "") rest
            | false, some _, _ => .error (.unknownOption word)
            | true, some value, rest => do ofWords forms (← s.addOption form.name value) rest
            | true, none, value :: rest => do ofWords forms (← s.addOption form.name value) rest
            | true, none, [] => .error (.missingValue form.name)

end SortedWords

namespace Command

/-- The options of the command that checks a schema. -/
def schemaForms : List OptionForm := [⟨"json", none, false⟩]

/-- The options of the command that shows statements. -/
def statementForms : List OptionForm :=
  [⟨"dialect", some 'd', true⟩, ⟨"variables", none, true⟩, ⟨"operation", some 'o', true⟩]

/-- The dialect with exactly the given name. -/
def dialect? : String → Option Dialect
  | "staged" => some .staged
  | "comprehension" => some .comprehension
  | _ => none

/-- The command that words stand for. -/
def ofWords : List String → Except UsageError Command
  | "schema" :: words => do
      let s ← SortedWords.ofWords schemaForms ⟨[], []⟩ words
      match s.files with
      | [file] => return .schema file (s.options.contains "json")
      | files => throw (.wrongFiles 1 files)
  | "translate" :: words => do
      let s ← SortedWords.ofWords statementForms ⟨[], []⟩ words
      let dialect ←
        match s.options.get? "dialect" with
        | none => pure none
        | some word =>
            match dialect? word with
            | some d => pure (some d)
            | none => throw (.invalidValue "dialect" word)
      match s.files with
      | [file, request] =>
          return .statements file request dialect (s.options.get? "variables")
            (s.options.get? "operation")
      | files => throw (.wrongFiles 2 files)
  | words => .error (.unknownCommand words)

/-- The files that a command reads. -/
def files : Command → List String
  | schema file _ => [file]
  | statements file request .. => [file, request]

end Command

end PropertyGraphQL
