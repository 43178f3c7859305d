/-
Reading documents.

A text is read by the grammar first. Then the tree is gone through once for
faults that the grammar does not see, in the order of the text; only a tree
without faults is turned into a document, which therefore cannot fail. A
request document is checked at last for the names of its definitions.
-/
import PropertyGraphQL.Document.Fault
import PropertyGraphQL.Document.Quoted
import PropertyGraphQL.Document.Schema
import PropertyGraphQL.Grammar.Rule

namespace PropertyGraphQL

/-- A tree of the grammar of documents. -/
abbrev SourceTree := Tree Rule

namespace SourceTree

open PropertyGraphQL.Tree

/-- The number that a numeral denotes. -/
def number (text : List Char) : Except NumeralFault Json :=
  match Numeral.scan? text with
  | some (n, _) => n.toJson
  -- The grammar lets no other text through.
  | none => .ok .null

-- ============================================================== values

/-- What a string or block string stands for. -/
def stringText : List SourceTree → String
  | .node .stringContent _ text _ :: _ => String.ofList (Quoted.unescape text)
  | .node .blockStringContent _ text _ :: _ => String.ofList (Quoted.blockText text)
  | _ => ""

mutual

def value : SourceTree → Value
  | .node .value _ _ (t :: _) => value t
  | .node .constValue _ _ (t :: _) => value t
  | .node .variableName _ _ (name :: _) => .var name.text
  | .node .number _ text _ => .ofNumber ((number text).toOption.getD .null)
  | .node .string _ _ content => .string (stringText content)
  | .node .boolean _ text _ => .boolean (text = "true".toList)
  | .node .enumValue _ text _ => .enum (String.ofList text)
  | .node .list _ _ elems => .list (values elems)
  | .node .constList _ _ elems => .list (values elems)
  | .node .object _ _ fields => .object (Dict.ofEntries (entries fields))
  | .node .constObject _ _ fields => .object (Dict.ofEntries (entries fields))
  | _ => .null

def values : List SourceTree → List Value
  | [] => []
  | t :: rest => value t :: values rest

/-- Names with values: arguments, or the fields of an object. -/
def entries : List SourceTree → List (String × Value)
  | [] => []
  | .node _ _ _ [name, v] :: rest => (name.text, value v) :: entries rest
  | _ :: rest => entries rest

end

/-- The name among the children of a tree. -/
def nameIn (children : List SourceTree) : String := (textOf? .name children).getD ""

/-- The description among the children of a tree. -/
def descriptionIn? (children : List SourceTree) : Option String :=
  (first? .string children).map fun t => stringText t.children

def directiveArgument : SourceTree → DirectiveArgument
  | .node _ p _ children =>
      match children with
      | [name, v] => ⟨name.text, value v, v.place⟩
      | _ => ⟨"", .null, p⟩

def directive (t : SourceTree) : Directive :=
  let arguments := within .arguments t.children ++ within .constArguments t.children
  ⟨nameIn t.children, arguments.map directiveArgument, t.place⟩

/-- The directives among the children of a tree. -/
def directivesIn (children : List SourceTree) : List Directive :=
  (within .directives children ++ within .constDirectives children).map directive

-- ============================================================ requests

/-- The type that a fragment applies to. -/
def conditionIn? (children : List SourceTree) : Option String :=
  (first? .typeCondition children).map fun t => nameIn t.children

mutual

/-- The elements of a selection. -/
def selections : List SourceTree → List Selected
  | [] => []
  | .node .selection _ _ (t :: _) :: rest => selected t :: selections rest
  | _ :: rest => selections rest

def selected : SourceTree → Selected
  | .node .field _ _ children =>
      let rename := (first? .rename children).map fun t => nameIn t.children
      .field (nameIn children) rename (entries (within .arguments children))
        (directivesIn children) (selectionsIn children)
  | .node .inlineFragment _ _ children =>
      .fragment (conditionIn? children) (directivesIn children) (selectionsIn children)
  | .node _ p _ children => .spread (nameIn children) (directivesIn children) p

/-- The elements of the selection among the children of a tree. -/
def selectionsIn : List SourceTree → List Selected
  | [] => []
  | .node .selectionSet _ _ elements :: _ => selections elements
  | _ :: rest => selectionsIn rest

end

/-- The default among the children of a tree. -/
def defaultIn? (children : List SourceTree) : Option Value :=
  (within .defaultValue children).head?.map value

def variableDefinition (t : SourceTree) : String × Option Value :=
  (nameIn (within .variableName t.children), defaultIn? t.children)

/-- An operation; one that is only a selection is a query. -/
def operation (t : SourceTree) : OperationDefinition :=
  match first? .namedOperationDefinition t.children with
  | some named =>
      let children := named.children
      { type := ((textOf? .operationType children).bind OperationType.ofWord?).getD .query
        name := textOf? .name children
        vars := (within .variableDefinitions children).map variableDefinition
        selections := selectionsIn children
        place := t.place }
  | none =>
      { type := .query, name := none, vars := [], selections := selectionsIn t.children
        place := t.place }

def fragment (t : SourceTree) : FragmentDefinition :=
  { name := nameIn t.children
    condition := (conditionIn? t.children).getD ""
    selections := selectionsIn t.children
    place := t.place }

def executableDefinition? : SourceTree → Option ExecutableDefinition
  | .node .executableDefinition _ _ (t :: _) =>
      some (if t.rule = .operationDefinition then .operation (operation t)
        else .fragment (fragment t))
  | _ => none

-- ============================================================= schemas

def argumentDefinition (t : SourceTree) : ArgumentDefinition :=
  { name := nameIn t.children
    type := .ofText ((textOf? .typeReference t.children).getD "")
    default := defaultIn? t.children
    description := descriptionIn? t.children }

def fieldDefinition (t : SourceTree) : FieldDefinition :=
  { name := nameIn t.children
    type := .ofText ((textOf? .typeReference t.children).getD "")
    arguments := (within .argumentsDefinition t.children).map argumentDefinition
    directives := directivesIn t.children
    description := descriptionIn? t.children
    place := t.place }

/-- The name of the value that a tree defines. -/
def enumValueName (t : SourceTree) : String := (textOf? .enumValue t.children).getD ""

/-- The names of the interfaces among the children of a tree. -/
def interfacesIn (children : List SourceTree) : List String :=
  (within .implementsInterfaces children).map Tree.text

def typeBody (t : SourceTree) : TypeBody :=
  let fields := (within .fieldsDefinition t.children).map fieldDefinition
  match t.rule with
  | .scalarType => .scalar
  | .objectType => .object (interfacesIn t.children) fields
  | .interfaceType => .interface (interfacesIn t.children) fields
  | .enumType => .enum ((within .enumValues t.children).map enumValueName)
  | _ => .other

def typeDefinition (t : SourceTree) : TypeDefinition :=
  { name := nameIn t.children
    isExtension := (first? .extension t.children).isSome
    description := descriptionIn? t.children
    body := typeBody t
    place := t.place }

/-- The kind of operation that a root type is given for. -/
def rootOf? (t : SourceTree) : Option OperationType :=
  (textOf? .operationType t.children).bind OperationType.ofWord?

/-- The root type for a kind of operation. -/
def rootName? (type : OperationType) (children : List SourceTree) : Option String :=
  (children.find? fun t => rootOf? t = some type).map fun t => nameIn t.children

def schemaItem? : SourceTree → Option SchemaItem
  | .node .typeSystemDefinition _ _ (t :: _) =>
      some <|
        match t with
        | .node .schemaDefinition _ _ children =>
            .roots (rootName? .query children) (rootName? .mutation children)
        | .node .typeDefinition _ _ (definition :: _) => .type (typeDefinition definition)
        | _ => .directive
  | _ => none

-- ============================================================== faults

/-- The first root type given for a kind of operation that has one. -/
def repeatedRoot? : (seen : List OperationType) → List SourceTree → Option DocumentFault
  | _, [] => none
  | seen, t :: rest =>
      match rootOf? t with
      | some type =>
          if type ∈ seen then some (.repeatedRoot type t.place)
          else repeatedRoot? (type :: seen) rest
      | none => repeatedRoot? seen rest

/-- What is wrong with the root types of a schema definition. -/
def rootFault? (place : Position) (children : List SourceTree) : Option DocumentFault :=
  let isExtension := (first? .extension children).isSome
  repeatedRoot? [] children <|>
    if !isExtension && (rootName? .query children).isNone then some (.missingQueryRoot place)
    else none

mutual

/-- The first fault in a tree. `left` is the number of levels that
selections may still be nested, inside of a selection. -/
def fault? (left : Option Nat) : SourceTree → Option DocumentFault
  | .node .number p text _ =>
      match number text with
      | .ok _ => none
      | .error fault => some (.number fault text.length p)
  | .node .schemaDefinition p _ children => faultIn? left children <|> rootFault? p children
  | .node .selectionSet _ _ elements =>
      match left with
      | none => faultIn? (some 64) elements
      | some 0 => some .nesting
      | some (n + 1) => faultIn? (some n) elements
  | .node _ _ _ children => faultIn? left children

def faultIn? (left : Option Nat) : List SourceTree → Option DocumentFault
  | [] => none
  | t :: rest => fault? left t <|> faultIn? left rest

end

/-- Read a text by a rule of the grammar, without faults. -/
def read (start : Rule) (text : String) : Except DocumentFault SourceTree :=
  match Rule.grammar.parse start text with
  | .error offset => .error (.grammar (.ofOffsetCrLf text.toList offset))
  | .ok t =>
      match fault? none t with
      | some fault => .error fault
      | none => .ok t

end SourceTree

namespace ExecutableDocument

/-- Add a definition whose name no other of its sort has. An operation
without a name has to be the only one. -/
def add (d : ExecutableDocument) : ExecutableDefinition → Except DocumentFault ExecutableDocument
  | .operation o =>
      match o.name with
      | none =>
          if d.operations.isEmpty then .ok { d with operations := [o] }
          else .error (.severalOperations o.place)
      | some name =>
          match d.operations.find? (·.name.isNone) with
          | some anonymous => .error (.severalOperations anonymous.place)
          | none =>
              if d.operations.any (·.name = some name) then .error (.repeatedOperation name o.place)
              else .ok { d with operations := d.operations ++ [o] }
  | .fragment f =>
      if d.fragments.contains f.name then .error (.repeatedFragment f.name f.place)
      else .ok { d with fragments := d.fragments.insert f.name f }

/-- The document with the given definitions. There has to be an operation. -/
def ofDefinitions (definitions : List ExecutableDefinition) :
    Except DocumentFault ExecutableDocument := do
  let d ← definitions.foldlM add ⟨[], []⟩
  if d.operations.isEmpty then throw .noOperation
  return d

/-- Read a request document. -/
def parse (text : String) : Except DocumentFault ExecutableDocument := do
  let t ← SourceTree.read .executableDocument text
  ofDefinitions (t.children.filterMap SourceTree.executableDefinition?)

end ExecutableDocument

namespace SchemaDocument

/-- Read a schema document. -/
def parse (text : String) : Except DocumentFault SchemaDocument := do
  let t ← SourceTree.read .serviceDocument text
  return t.children.filterMap SourceTree.schemaItem?

end SchemaDocument

end PropertyGraphQL
