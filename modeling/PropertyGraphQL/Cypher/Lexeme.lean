/-
The text of a statement as a list of lexemes.

Whatever is rendered is first a list of lexemes and becomes text only at
the end, by putting the lexemes' texts side by side. A name or a string
constant is one lexeme whatever characters it has in it: the quoting of
`quoteName` and `quoteString` is undone by `unquoteName?` and
`unquoteString?` (`unquoteName?_quoteName`, `unquoteString?_quoteString`),
so no character of it can end the lexeme early.
-/
import PropertyGraphQL.Dict

namespace PropertyGraphQL.Cypher

-- ============================================================= quoting

/-- The characters of a name between its back quotes: a back quote is
written twice. -/
def nameBody : List Char → List Char
  | [] => []
  | c :: rest => if c = '\x60' then c :: c :: nameBody rest else c :: nameBody rest

/-- A name (of a variable, label, relationship type or key) in back quotes. -/
def quoteName (name : String) : String :=
  String.ofList ('\x60' :: nameBody name.toList ++ ['\x60'])

/-- A character of a string constant: those that would end the constant
or alter it are written with a backslash. -/
def stringChar (c : Char) : List Char :=
  if c = '"' then ['\\', '"']
  else if c = '\\' then ['\\', '\\']
  else if c = '\n' then ['\\', 'n']
  else if c = '\r' then ['\\', 'r']
  else if c = '\t' then ['\\', 't']
  else [c]

/-- A string constant in double quotes. -/
def quoteString (value : String) : String :=
  String.ofList ('"' :: value.toList.flatMap stringChar ++ ['"'])

/-- Read the rest of a name up to its closing back quote, the first that
is not doubled. Gives the name and what follows the quote. -/
def nameRest? : List Char → Option (List Char × List Char)
  | [] => none
  | '\x60' :: '\x60' :: rest =>
      (nameRest? rest).map fun (name, after) => ('\x60' :: name, after)
  | '\x60' :: rest => some ([], rest)
  | c :: rest => (nameRest? rest).map fun (name, after) => (c :: name, after)

/-- The character that a backslash makes of the one behind it. -/
def unescape (c : Char) : Char :=
  if c = 'n' then '\n' else if c = 'r' then '\r' else if c = 't' then '\t' else c

/-- Read the rest of a string constant up to its closing quote, the first
without a backslash. Gives the value and what follows the quote. -/
def stringRest? : List Char → Option (List Char × List Char)
  | [] => none
  | '"' :: rest => some ([], rest)
  | ['\\'] => none
  | '\\' :: c :: rest =>
      (stringRest? rest).map fun (value, after) => (unescape c :: value, after)
  | c :: rest => (stringRest? rest).map fun (value, after) => (c :: value, after)

/-- A quoted name is read back whole, unless a further back quote follows. -/
theorem nameRest?_nameBody (name rest : List Char) (h : rest.head? ≠ some '\x60') :
    nameRest? (nameBody name ++ '\x60' :: rest) = some (name, rest) := by
  induction name with
  | nil =>
    cases rest with
    | nil => simp [nameBody, nameRest?]
    | cons c rest =>
      have hc : c ≠ '\x60' := fun e => h (by simp [e])
      simp [nameBody, nameRest?, hc]
  | cons c name ih =>
    by_cases hc : c = '\x60'
    · simp [nameBody, nameRest?, hc, ih]
    · simp [nameBody, nameRest?, hc, ih]

/-- A string constant is read back whole, whatever follows it. -/
theorem stringRest?_flatMap (value rest : List Char) :
    stringRest? (value.flatMap stringChar ++ '"' :: rest) = some (value, rest) := by
  induction value with
  | nil => simp [stringRest?]
  | cons c value ih =>
    rw [List.flatMap_cons, List.append_assoc]
    by_cases h1 : c = '"'
    · simp [stringChar, h1, stringRest?, unescape, ih]
    · by_cases h2 : c = '\\'
      · simp [stringChar, h2, stringRest?, unescape, ih]
      · by_cases h3 : c = '\n'
        · simp [stringChar, h3, stringRest?, unescape, ih]
        · by_cases h4 : c = '\r'
          · simp [stringChar, h4, stringRest?, unescape, ih]
          · by_cases h5 : c = '\t'
            · simp [stringChar, h5, stringRest?, unescape, ih]
            · simp [stringChar, h1, h2, h3, h4, h5, stringRest?, ih]

/-- The name that is written as the given text, if there is one. -/
def unquoteName? (text : String) : Option String :=
  match text.toList with
  | '\x60' :: rest =>
      match nameRest? rest with
      | some (name, []) => some (String.ofList name)
      | _ => none
  | _ => none

/-- The string whose constant is the given text, if there is one. -/
def unquoteString? (text : String) : Option String :=
  match text.toList with
  | '"' :: rest =>
      match stringRest? rest with
      | some (value, []) => some (String.ofList value)
      | _ => none
  | _ => none

theorem unquoteName?_quoteName (name : String) :
    unquoteName? (quoteName name) = some name := by
  have h := nameRest?_nameBody name.toList [] (by simp)
  simp [unquoteName?, quoteName, h]

theorem unquoteString?_quoteString (value : String) :
    unquoteString? (quoteString value) = some value := by
  have h := stringRest?_flatMap value.toList []
  simp [unquoteString?, quoteString, h]

-- ============================================================= lexemes

/-- A piece of the text of a statement. -/
inductive Lexeme where
  /-- Keywords, punctuation, numbers, blanks and function names, written
  as they are. -/
  | plain (text : String)
  | identifier (name : String)
  | string (value : String)
  /-- A reference to a parameter of the statement. -/
  | parameter (name : String)
deriving DecidableEq, Repr

namespace Lexeme

/-- How the lexeme is written. -/
def text : Lexeme → String
  | plain t => t
  | identifier name => quoteName name
  | string value => quoteString value
  | parameter name => "$" ++ name

/-- The parameter that the lexeme refers to. -/
def parameter? : Lexeme → Option String
  | parameter name => some name
  | _ => none

end Lexeme

/-- The text of lexemes written side by side. -/
def textOf (lexemes : List Lexeme) : String :=
  String.join (lexemes.map Lexeme.text)

/-- The parameters that lexemes refer to, in the order of first use. -/
def parametersOf (lexemes : List Lexeme) : List String :=
  (lexemes.filterMap Lexeme.parameter?).eraseDups

/-- The groups of lexemes one after the other, with a separator between
any two. -/
def separated (separator : String) : List (List Lexeme) → List Lexeme
  | [] => []
  | [group] => group
  | group :: rest => group ++ .plain separator :: separated separator rest

/-- The access to a property of an entity. -/
def propertyAccess (owner key : String) : List Lexeme :=
  [.identifier owner, .plain ".", .identifier key]

/-- A key with its value, as it stands in a map. -/
def entryLexemes (key : String) (value : List Lexeme) : List Lexeme :=
  .identifier key :: .plain ": " :: value

end PropertyGraphQL.Cypher
