/-
The parameters of a statement, as they are bound while it is compiled.

A variable in the value of an argument becomes a parameter of its name; if
that already has another value, a number is put behind the name. Binding
therefore never changes what is bound. Of the names tried one more than
there are parameters, so one of them is free.
-/
import PropertyGraphQL.Compile.Error
import PropertyGraphQL.Cypher.Expression
import PropertyGraphQL.Document.Value

namespace PropertyGraphQL

open Cypher

/-- The variables of a request and the parameters bound so far. -/
structure Parameters where
  vars : Dict Json
  bound : Dict Json

/-- A step of compiling, which may bind parameters. -/
abbrev Compiling (α : Type) := StateT Parameters (Except CompileError) α

namespace Parameters

/-- The value of a variable. -/
def valueOf (p : Parameters) (name : String) : Except CompileError Json :=
  match p.vars.get? name with
  | some v => .ok v
  | none => .error (.variableNotFound name)

/-- Whether a name may stand for a value: it has none yet, or the same. -/
def available (p : Parameters) (value : Json) (name : String) : Bool :=
  match p.bound.get? name with
  | none => true
  | some v => v.same value

/-- A name and what becomes of it with numbers behind it. -/
def candidates (p : Parameters) (name : String) : List String :=
  name :: (List.range p.bound.length).map fun i => name ++ "_" ++ (i + 1).repr

/-- The first candidate that may stand for a value. -/
def freeName (p : Parameters) (name : String) (value : Json) : String :=
  ((p.candidates name).find? (p.available value)).getD name

/-- The parameters with a name set to a value. -/
def set (p : Parameters) (name : String) (value : Json) : Parameters :=
  { p with bound := p.bound.insert name value }

mutual

/-- The data that a value stands for, with the values of its variables. -/
def resolve (p : Parameters) : Value → Except CompileError Json
  | .null => .ok .null
  | .int n => .ok (.int n)
  | .float x => .ok (.ofBinary64 x)
  | .boolean b => .ok (.bool b)
  | .string s => .ok (.str s)
  | .enum s => .ok (.str s)
  | .list elems => .arr <$> resolveElems p elems
  | .object entries => .obj <$> resolveEntries p entries
  | .var name => p.valueOf name

def resolveElems (p : Parameters) : List Value → Except CompileError (List Json)
  | [] => .ok []
  | v :: rest => do return (← resolve p v) :: (← resolveElems p rest)

def resolveEntries (p : Parameters) :
    List (String × Value) → Except CompileError (List (String × Json))
  | [] => .ok []
  | (k, v) :: rest => do return (k, ← resolve p v) :: (← resolveEntries p rest)

end

end Parameters

namespace Compiling

/-- Bind a value to a parameter of the name, or of one made from it. -/
def bind (name : String) (value : Json) : Compiling Expression := do
  let name := (← get).freeName name value
  modify (·.set name value)
  return .parameter name

/-- Set the parameter of the name, whatever it was before. -/
def bindExactly (name : String) (value : Json) : Compiling Unit :=
  modify (·.set name value)

/-- The data that a value stands for. -/
def resolve (v : Value) : Compiling Json := do
  (← get).resolve v

/-- The value of a variable. -/
def valueOf (name : String) : Compiling Json := do
  (← get).valueOf name

end Compiling

-- ========================================================== expressions

namespace Value

mutual

/-- Whether a variable occurs in the value. -/
def hasVariable : Value → Bool
  | .var _ => true
  | .list elems => anyHasVariable elems
  | .object entries => anyEntryHasVariable entries
  | _ => false

def anyHasVariable : List Value → Bool
  | [] => false
  | v :: rest => hasVariable v || anyHasVariable rest

def anyEntryHasVariable : List (String × Value) → Bool
  | [] => false
  | (_, v) :: rest => hasVariable v || anyEntryHasVariable rest

end

mutual

/-- A value without variables as a constant. -/
def literal : Value → Literal
  | .null => .null
  | .int n => .int n
  | .float x => .float x
  | .boolean b => .boolean b
  | .string s => .string s
  | .enum s => .string s
  | .list elems => .list (elemLiterals elems)
  | .object entries => .map (entryLiterals entries)
  | .var _ => .null

def elemLiterals : List Value → List Literal
  | [] => []
  | v :: rest => literal v :: elemLiterals rest

def entryLiterals : List (String × Value) → List (String × Literal)
  | [] => []
  | (k, v) :: rest => (k, literal v) :: entryLiterals rest

end

mutual

/-- The expression for a value: a variable becomes a parameter, and what
has no variable in it a constant. -/
def expression : Value → Compiling Expression
  | .var name => do Compiling.bind name (← Compiling.valueOf name)
  | .list elems =>
      if anyHasVariable elems then .list <$> elemExpressions elems
      else pure (.literal (.list (elemLiterals elems)))
  | .object entries =>
      if anyEntryHasVariable entries then .map <$> entryExpressions entries
      else pure (.literal (.map (entryLiterals entries)))
  | v => pure (.literal (literal v))

def elemExpressions : List Value → Compiling (List Expression)
  | [] => pure []
  | v :: rest => do
      let first ← expression v
      return first :: (← elemExpressions rest)

def entryExpressions : List (String × Value) → Compiling (List (String × Expression))
  | [] => pure []
  | (k, v) :: rest => do
      let first ← expression v
      return (k, first) :: (← entryExpressions rest)

end

end Value

namespace Json

mutual

/-- Data as a constant. An integer that needs more than 64 bits with a sign
is the nearest float. -/
def literal : Json → Literal
  | .null => .null
  | .bool b => .boolean b
  | .int n => if minInt64 ≤ n ∧ n ≤ maxInt64 then .int n else .float (.ofInt n)
  | .float x => .float x
  | .str s => .string s
  | .arr elems => .list (elemLiterals elems)
  | .obj members => .map (memberLiterals members)

def elemLiterals : List Json → List Literal
  | [] => []
  | j :: rest => literal j :: elemLiterals rest

def memberLiterals : List (String × Json) → List (String × Literal)
  | [] => []
  | (k, j) :: rest => (k, literal j) :: memberLiterals rest

end

end Json

end PropertyGraphQL
