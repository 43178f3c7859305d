/-
Why a field of a request cannot be compiled. The causes all lie in the
request, so their messages may be shown to whoever made it.
-/
namespace PropertyGraphQL

/-- Why a field cannot be compiled. -/
inductive CompileError where
  | unknownType (name : String)
  | unknownField (typeName field : String)
  | unknownFilterField (typeName field : String)
  | unknownArgument (typeName argument : String)
  /-- A declared operation has no statement. -/
  | missingStatement (operation : String)
  | invalidOrdering (ordering : String)
  | invalidArgument (argument problem : String)
  | unsupportedOperator (field operator : String)
  | variableNotFound (name : String)
  | unsupportedMutation (mutation problem : String)
deriving DecidableEq, Repr

namespace CompileError

def message : CompileError → String
  | unknownType name => "Unknown type '" ++ name ++ "'"
  | unknownField typeName field => "Unknown field '" ++ field ++ "' on type '" ++ typeName ++ "'"
  | unknownFilterField typeName field =>
      "Unknown filter field '" ++ field ++ "' on type '" ++ typeName ++ "'"
  | unknownArgument typeName argument =>
      "Unknown argument '" ++ argument ++ "' on type '" ++ typeName ++ "'"
  | missingStatement operation =>
      "Operation '" ++ operation ++ "' does not declare a @cypher statement"
  | invalidOrdering ordering =>
      "Invalid ordering '" ++ ordering ++ "': expected <property>_asc or <property>_desc"
  | invalidArgument argument problem => "Invalid argument '" ++ argument ++ "': " ++ problem
  | unsupportedOperator field operator =>
      "Operator '" ++ operator ++ "' is not supported on '" ++ field ++ "'"
  | variableNotFound name => "Variable '" ++ name ++ "' not found"
  | unsupportedMutation mutation problem =>
      "Unsupported mutation '" ++ mutation ++ "': " ++ problem

end CompileError

end PropertyGraphQL
