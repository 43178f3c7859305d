/-
The grammar of documents: requests (operations and fragments) and
schemas (definitions of types and directives).

Nothing has to stand between two words, so `typeA` reads as the word
`type` and the name `A`. Commas are blanks, and so are byte order marks. A
comment goes from `#` to the end of the line.
-/
import PropertyGraphQL.Grammar.Peg

namespace PropertyGraphQL

/-- The rules of the grammar. -/
inductive Rule where
  -- Requests.
  | executableDocument
  | executableDefinition
  | operationDefinition
  | namedOperationDefinition
  | variableDefinitions
  | variableDefinition
  | selectionSet
  | selection
  | field
  | rename
  | fragmentSpread
  | inlineFragment
  | fragmentDefinition
  | typeCondition
  -- Schemas.
  | serviceDocument
  | typeSystemDefinition
  | schemaDefinition
  | operationTypeDefinition
  | typeDefinition
  | scalarType
  | objectType
  | implementsInterfaces
  | interfaceType
  | fieldsDefinition
  | fieldDefinition
  | unionType
  | unionMemberTypes
  | enumType
  | enumValues
  | enumValueDefinition
  | inputObjectType
  | inputFieldsDefinition
  | extension
  | directiveDefinition
  | repeatable
  | directiveLocations
  | directiveLocation
  | argumentsDefinition
  | inputValueDefinition
  -- Both.
  | operationType
  | defaultValue
  | typeReference
  | constValue
  | value
  | variableName
  | number
  | float
  | fractional
  | exponent
  | int
  | string
  | blockStringContent
  | blockStringCharacter
  | stringContent
  | stringCharacter
  | scalarValueHex
  | boolean
  | null
  | enumValue
  | constList
  | list
  | constObject
  | object
  | constObjectField
  | objectField
  | constDirectives
  | directives
  | constDirective
  | directive
  | constArguments
  | arguments
  | constArgument
  | argument
  | nameStart
  | name
  | lineTerminator
  | endOfInput
deriving DecidableEq, Repr

namespace Rule

open Peg

/-- A character that is ignored between words. -/
def isBlank (c : Char) : Bool :=
  c = ' ' || c = ',' || c = '\t' || c = '\uFEFF' || c = '\n' || c = '\r'

/-- The number of blanks and characters of comments at the beginning. -/
def ignored (inComment : Bool) : List Char → Nat
  | [] => 0
  | c :: rest =>
      if inComment then ignored (c ≠ '\n' && c ≠ '\r') rest + 1
      else if isBlank c then ignored false rest + 1
      else if c = '#' then ignored true rest + 1
      else 0

/-- A hexadecimal digit. -/
def isHexDigit (c : Char) : Bool :=
  c.isDigit || ('a' ≤ c && c ≤ 'f') || ('A' ≤ c && c ≤ 'F')

/-- The second digit of the code of a surrogate, behind a `d`. -/
def isSurrogateDigit (c : Char) : Bool :=
  ('8' ≤ c && c ≤ '9') || ('a' ≤ c && c ≤ 'f') || ('A' ≤ c && c ≤ 'F')

/-- Elements between a mark on the left and one on the right. -/
def between (left : String) (inner : Peg Rule) (right : String) : Peg Rule :=
  sequence [token left, inner, token right]

/-- A definition of a named thing behind a keyword, with an optional
description, followed by `tail`. -/
def described (keyword : String) (tail : List (Peg Rule)) : Peg Rule :=
  sequence ([opt (call string), token keyword, call name] ++ tail)

/-- The extension of a named thing behind a keyword, followed by `tail`. -/
def extending (keyword : String) (tail : List (Peg Rule)) : Peg Rule :=
  sequence ([call extension, token keyword, call name] ++ tail)

/-- Directives and a body, or directives alone. -/
def directivesAndBody (body : Peg Rule) : Peg Rule :=
  alt (seq (opt (call constDirectives)) body) (call constDirectives)

/-- A list of names, or the like, with a separator that may also come first. -/
def separatedBy (separator : String) (item : Peg Rule) : List (Peg Rule) :=
  [opt (token separator), item, many (seq (token separator) item)]

/-- The alternatives of a value, which differ for constants. -/
def valueAlternatives (listRule objectRule : Rule) : List (Peg Rule) :=
  [call number, call string, call boolean, call null, call enumValue, call listRule,
    call objectRule]

/-- The body of the definition of an object or interface type. -/
def fieldsTail : List (Peg Rule) :=
  [opt (call implementsInterfaces), opt (call constDirectives), opt (call fieldsDefinition)]

def body : Rule → Peg Rule
  | executableDocument =>
      sequence [token "", atLeastOnce (call executableDefinition), call endOfInput]
  | executableDefinition => alt (call operationDefinition) (call fragmentDefinition)
  | operationDefinition => alt (call namedOperationDefinition) (call selectionSet)
  | namedOperationDefinition =>
      sequence [call operationType, opt (call name), opt (call variableDefinitions),
        opt (call directives), call selectionSet]
  | variableDefinitions => between "(" (many (call variableDefinition)) ")"
  | variableDefinition =>
      sequence [call variableName, token ":", call typeReference, opt (call directives),
        opt (call defaultValue)]
  | selectionSet => between "\x7b" (atLeastOnce (call selection)) "\x7d"
  | selection => choice [call field, call inlineFragment, call fragmentSpread]
  | field =>
      sequence [opt (call rename), call name, opt (call arguments), opt (call directives),
        opt (call selectionSet)]
  | rename => seq (call name) (token ":")
  | fragmentSpread =>
      sequence [token "...", absent (call typeCondition), call name, opt (call directives)]
  | inlineFragment =>
      sequence [token "...", opt (call typeCondition), opt (call directives), call selectionSet]
  | fragmentDefinition =>
      sequence [token "fragment", call name, call typeCondition, opt (call directives),
        call selectionSet]
  | typeCondition => sequence [token "on", atLeastOnce (one isBlank), call name]
  | serviceDocument =>
      sequence [token "", atLeastOnce (call typeSystemDefinition), call endOfInput]
  | typeSystemDefinition =>
      choice [call schemaDefinition, call typeDefinition, call directiveDefinition]
  | schemaDefinition =>
      let operations := between "\x7b" (atLeastOnce (call operationTypeDefinition)) "\x7d"
      alt (sequence [token "schema", opt (call constDirectives), operations])
        (sequence [call extension, token "schema", directivesAndBody operations])
  | operationTypeDefinition => sequence [call operationType, token ":", call name]
  | typeDefinition =>
      choice [call scalarType, call objectType, call interfaceType, call unionType, call enumType,
        call inputObjectType]
  | scalarType =>
      alt (described "scalar" [opt (call constDirectives)])
        (extending "scalar" [call constDirectives])
  | objectType =>
      alt (described "type" fieldsTail)
        (extending "type" [alt
          (seq (opt (call implementsInterfaces)) (directivesAndBody (call fieldsDefinition)))
          (call implementsInterfaces)])
  | implementsInterfaces => sequence (token "implements" :: separatedBy "&" (call name))
  | interfaceType =>
      alt (described "interface" fieldsTail)
        (extending "interface"
          [opt (call implementsInterfaces), directivesAndBody (call fieldsDefinition)])
  | fieldsDefinition => between "\x7b" (atLeastOnce (call fieldDefinition)) "\x7d"
  | fieldDefinition =>
      sequence [opt (call string), call name, opt (call argumentsDefinition), token ":",
        call typeReference, opt (call constDirectives)]
  | unionType =>
      alt (described "union" [opt (call constDirectives), opt (call unionMemberTypes)])
        (extending "union" [directivesAndBody (call unionMemberTypes)])
  | unionMemberTypes => sequence (token "=" :: separatedBy "|" (call name))
  | enumType =>
      alt (described "enum" [opt (call constDirectives), opt (call enumValues)])
        (extending "enum" [directivesAndBody (call enumValues)])
  | enumValues => between "\x7b" (atLeastOnce (call enumValueDefinition)) "\x7d"
  | enumValueDefinition =>
      sequence [opt (call string), call enumValue, opt (call constDirectives)]
  | inputObjectType =>
      alt (described "input" [opt (call constDirectives), opt (call inputFieldsDefinition)])
        (extending "input" [directivesAndBody (call inputFieldsDefinition)])
  | inputFieldsDefinition => between "\x7b" (atLeastOnce (call inputValueDefinition)) "\x7d"
  | extension => token "extend"
  | directiveDefinition =>
      sequence [opt (call string), token "directive", token "@", call name,
        opt (call argumentsDefinition), call repeatable, token "on", call directiveLocations]
  | repeatable => opt (token "repeatable")
  | directiveLocations => sequence (separatedBy "|" (call directiveLocation))
  | directiveLocation =>
      choice (["QUERY", "MUTATION", "SUBSCRIPTION", "FIELD_DEFINITION", "FIELD",
        "FRAGMENT_DEFINITION", "FRAGMENT_SPREAD", "INLINE_FRAGMENT", "VARIABLE_DEFINITION",
        "SCHEMA", "SCALAR", "OBJECT", "ARGUMENT_DEFINITION", "INTERFACE", "UNION", "ENUM_VALUE",
        "ENUM", "INPUT_OBJECT", "INPUT_FIELD_DEFINITION"].map token)
  | argumentsDefinition => between "(" (atLeastOnce (call inputValueDefinition)) ")"
  | inputValueDefinition =>
      sequence [opt (call string), call name, token ":", call typeReference,
        opt (call defaultValue), opt (call constDirectives)]
  | operationType => choice [token "query", token "mutation", token "subscription"]
  | defaultValue => seq (token "=") (call constValue)
  | typeReference =>
      seq (alt (call name) (between "[" (call typeReference) "]")) (opt (token "!"))
  | constValue => choice (valueAlternatives constList constObject)
  | value => choice (call variableName :: valueAlternatives list object)
  | variableName => seq (token "$") (call name)
  | number => seq (alt (call float) (call int)) (absent (call nameStart))
  | float =>
      seq (call int)
        (choice [seq (call fractional) (call exponent), call fractional, call exponent])
  | fractional => seq (token ".") (atLeastOnce (one Char.isDigit))
  | exponent =>
      sequence [alt (token "E") (token "e"), opt (alt (token "+") (token "-")),
        atLeastOnce (one Char.isDigit)]
  | int =>
      seq (opt (token "-"))
        (alt (token "0") (seq (one fun c => c.isDigit && c ≠ '0') (many (one Char.isDigit))))
  | string =>
      alt (between "\"\"\"" (call blockStringContent) "\"\"\"")
        (between "\"" (call stringContent) "\"")
  | blockStringContent => many (call blockStringCharacter)
  | blockStringCharacter =>
      alt (seq (absent (alt (token "\"\"\"") (token "\\\"\"\""))) (one fun _ => true))
        (token "\\\"\"\"")
  | stringContent => many (call stringCharacter)
  | stringCharacter =>
      choice [
        seq (absent (choice [token "\"", token "\\", call lineTerminator])) (one fun _ => true),
        seq (token "\\") (one ['"', '\\', '/', 'b', 'f', 'n', 'r', 't'].contains),
        seq (token "\\u") (call scalarValueHex)]
  | scalarValueHex =>
      let digit := one isHexDigit
      seq (absent (seq (one fun c => c = 'd' || c = 'D') (one isSurrogateDigit)))
        (sequence [digit, digit, digit, digit])
  | boolean => alt (token "true") (token "false")
  | null => token "null"
  | enumValue => seq (absent (alt (call boolean) (call null))) (call name)
  | constList => between "[" (many (call constValue)) "]"
  | list => between "[" (many (call value)) "]"
  | constObject => between "\x7b" (many (call constObjectField)) "\x7d"
  | object => between "\x7b" (many (call objectField)) "\x7d"
  | constObjectField => sequence [call name, token ":", call constValue]
  | objectField => sequence [call name, token ":", call value]
  | constDirectives => atLeastOnce (call constDirective)
  | directives => atLeastOnce (call directive)
  | constDirective => sequence [token "@", call name, opt (call constArguments)]
  | directive => sequence [token "@", call name, opt (call arguments)]
  | constArguments => between "(" (atLeastOnce (call constArgument)) ")"
  | arguments => between "(" (atLeastOnce (call argument)) ")"
  | constArgument => sequence [call name, token ":", call constValue]
  | argument => sequence [call name, token ":", call value]
  | nameStart => one fun c => c.isAlpha || c = '_'
  | name => seq (call nameStart) (many (one fun c => c.isAlphanum || c = '_'))
  | lineTerminator => choice [token "\r\n", token "\r", token "\n"]
  | endOfInput => ending

/-- Numbers, names and the like are closed: what is tried in them is not
reported. Strings and type conditions are tight. -/
def spacing : Rule → Option Spacing
  | typeReference => some .closed
  | number => some .closed
  | blockStringContent => some .closed
  | stringContent => some .closed
  | nameStart => some .closed
  | name => some .closed
  | lineTerminator => some .closed
  | typeCondition => some .tight
  | string => some .tight
  | enumValue => some .tight
  | _ => none

/-- The grammar of documents. A character takes at most as many nested
steps as all bodies together have. -/
def grammar : Grammar Rule := ⟨body, spacing, ignored false, 4096⟩

end Rule

end PropertyGraphQL
