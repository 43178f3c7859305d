/-
Plans: what a selection reads from an entity, whatever the dialect.

The selected fields are collected first: fragments are opened where their
type may apply, and a field selected again under the same response key adds
its selection to the first. Each collected field then becomes a value that
is read at once, or a traversal to related entities with a plan of its own.

Planning goes down into merged selections, which are no parts of the
selection it started from. It ends because collecting never adds fields:
the fields below those collected and the collected ones themselves are at
most as many as the selection had (`weight_collect_le`).
-/
import PropertyGraphQL.Compile.Arguments
import PropertyGraphQL.Compile.Options

namespace PropertyGraphQL

open Cypher

-- =============================================================== weight

namespace Selection

mutual

/-- The number of fields in an element, at any depth. -/
def weight : Selection → Nat
  | .field _ selections => weightAll selections + 1
  | .fragment _ selections => weightAll selections

/-- The number of fields in a selection, at any depth. -/
def weightAll : List Selection → Nat
  | [] => 0
  | s :: rest => weight s + weightAll rest

end

theorem weightAll_append (a b : List Selection) :
    weightAll (a ++ b) = weightAll a + weightAll b := by
  induction a with
  | nil => simp [weightAll]
  | cons s rest ih => simp [weightAll, ih]; omega

end Selection

-- ====================================================== collected fields

/-- A field to read from an entity. -/
structure Collected where
  key : String
  head : FieldHead
  /-- The type that the field belongs to. -/
  scope : EntityType
  selections : List Selection

namespace Collected

/-- The number of fields that collected ones stand for, at any depth. -/
def weight : List Collected → Nat
  | [] => 0
  | c :: rest => Selection.weightAll c.selections + 1 + weight rest

/-- Add a field: to the one with its response key, or at the end. -/
def add : List Collected → Collected → List Collected
  | [], new => [new]
  | c :: rest, new =>
      if c.key = new.key then { c with selections := c.selections ++ new.selections } :: rest
      else c :: add rest new

theorem weight_add_le (cs : List Collected) (new : Collected) :
    weight (add cs new) ≤ weight cs + (Selection.weightAll new.selections + 1) := by
  induction cs with
  | nil => simp [add, weight]
  | cons c rest ih =>
    rw [add]
    split
    · simp only [weight, Selection.weightAll_append]
      omega
    · simp only [weight]
      omega

end Collected

/-- The type that the selection of a fragment belongs to, if the fragment
may apply to entities of a type. A label that has no type of its own stands
for the type that has the label. -/
def Catalog.fragmentScope? (catalog : Catalog) (t : EntityType) :
    (condition : Option String) → Option EntityType
  | none => some t
  | some name =>
      match catalog.type? name with
      | some other => if other.isCompatibleWith t then some other else none
      | none => if t.allLabels.contains name then some t else none

namespace Collected

mutual

/-- Add the fields of an element of a selection on a type. -/
def collectOne (catalog : Catalog) (t : EntityType) (sofar : List Collected) :
    Selection → List Collected
  | .field head selections => add sofar ⟨head.responseKey, head, t, selections⟩
  | .fragment condition selections =>
      match catalog.fragmentScope? t condition with
      | some scope => collectAll catalog scope sofar selections
      | none => sofar

/-- Add the fields of a selection on a type. -/
def collectAll (catalog : Catalog) (t : EntityType) (sofar : List Collected) :
    List Selection → List Collected
  | [] => sofar
  | s :: rest => collectAll catalog t (collectOne catalog t sofar s) rest

end

/-- The fields of a selection on a type. -/
def collect (catalog : Catalog) (t : EntityType) (selections : List Selection) :
    List Collected :=
  collectAll catalog t [] selections

mutual

theorem weight_collectOne_le (catalog : Catalog) (t : EntityType) (sofar : List Collected)
    (s : Selection) :
    weight (collectOne catalog t sofar s) ≤ weight sofar + s.weight := by
  cases s with
  | field head selections =>
    rw [collectOne, Selection.weight]
    exact weight_add_le ..
  | fragment condition selections =>
    rw [collectOne, Selection.weight]
    split
    · exact weight_collectAll_le ..
    · omega

theorem weight_collectAll_le (catalog : Catalog) (t : EntityType) (sofar : List Collected)
    (selections : List Selection) :
    weight (collectAll catalog t sofar selections)
      ≤ weight sofar + Selection.weightAll selections := by
  cases selections with
  | nil => simp [collectAll, Selection.weightAll]
  | cons s rest =>
    rw [collectAll, Selection.weightAll]
    have hs := weight_collectOne_le catalog t sofar s
    have hrest := weight_collectAll_le catalog t (collectOne catalog t sofar s) rest
    omega

end

/-- Collecting adds no fields. -/
theorem weight_collect_le (catalog : Catalog) (t : EntityType) (selections : List Selection) :
    weight (collect catalog t selections) ≤ Selection.weightAll selections := by
  have h := weight_collectAll_le catalog t [] selections
  simpa [collect, weight] using h

end Collected

-- ================================================================ plans

/-- How entities related to another are found. -/
structure Traversal where
  shape : RelationshipShape
  /-- Whether the result is a list, or the first of it. -/
  multi : Bool
  /-- The label of the related entities. -/
  label : String
  /-- The variable of the entity that is started from. -/
  parent : String
  /-- The variable of the related entities. -/
  entity : String
  arguments : ScopeArguments
  /-- The list of related entities, where a statement gives it. -/
  source : Option Expression

namespace Traversal

/-- The pattern that the related entities match. -/
def pattern (t : Traversal) : Pattern := t.shape.pattern t.parent t.entity t.label

end Traversal

/-- What is read for a field. -/
inductive Plan where
  | value (e : Expression)
  /-- The related entities, each with what is read from it. -/
  | traversal (t : Traversal) (entries : List (String × Plan))

/-- A catalog and how statements are written. -/
structure Compiler where
  catalog : Catalog
  options : CompileOptions

namespace Compiler

/-- Refuse arguments that are not declared. -/
def rejectUndeclared (head : FieldHead) (t : EntityType) (declared : Dict DeclaredArgument) :
    Compiling Unit :=
  match head.arguments.keys.find? fun name => !declared.contains name with
  | some name => throw (.unknownArgument t.name name)
  | none => pure ()

/-- The expression for a declared argument: what is given for it, or its
default, or null. -/
def declaredExpression (head : FieldHead) (name : String) (declared : DeclaredArgument) :
    Compiling Expression :=
  match head.arguments.get? name, declared.default with
  | some value, _ => value.expression
  | none, some default => pure (.literal default.literal)
  | none, none => pure (.literal .null)

/-- Run a statement for the entity `this`, with its static parameters and
the declared arguments. -/
def customCall (c : Compiler) (custom : CustomStatement) (declared : Dict DeclaredArgument)
    (head : FieldHead) (this : String) (list : Bool) : Compiling Expression := do
  let static := custom.staticParameters.map fun (name, value) =>
    (name, Expression.literal value.literal)
  let given ← declared.mapM fun (name, argument) => do
    return (name, ← declaredExpression head name argument)
  return .call c.options.runFunction
    [.literal (.string custom.statement), .map (("this", .var this) :: static ++ given),
      .literal (.boolean list)]

/-- What is read for a property. -/
def propertyValue (c : Compiler) (f : Collected) (property : PropertyField) (entity : String) :
    Compiling Expression := do
  match property.custom with
  | none => return .property entity f.head.name
  | some custom =>
      rejectUndeclared f.head f.scope property.arguments
      let call ← c.customCall custom property.arguments f.head entity true
      return if property.type.isList then call else call.head

/-- What is read for a relationship: the result of a statement as it is, or
a traversal to entities of the type given with it. -/
def relationshipPlan (c : Compiler) (f : Collected) (r : RelationshipField) (parent : String) :
    Compiling (Expression ⊕ Traversal × EntityType) := do
  let some target := c.catalog.type? r.shape.targetType | throw (.unknownType r.shape.targetType)
  let entity := parent ++ "_" ++ f.key
  let traversal (arguments : ScopeArguments) (source : Option Expression) : Traversal :=
    ⟨r.shape, r.multi, target.name, parent, entity, arguments, source⟩
  match r.custom with
  | none =>
      let arguments ← ScopeArguments.ofArguments c.catalog target entity [] f.head.arguments
      return .inr (traversal arguments none, target)
  | some custom =>
      if custom.passThrough then
        rejectUndeclared f.head target r.arguments
        return .inl (← c.customCall custom r.arguments f.head parent r.multi)
      else
        let source ← c.customCall custom r.arguments f.head parent true
        let arguments ←
          ScopeArguments.ofArguments c.catalog target entity r.arguments f.head.arguments
        return .inr (traversal arguments (some source), target)

/-- What is read for a field, without what is read below it. -/
def fieldPlan (c : Compiler) (f : Collected) (entity : String) :
    Compiling (Expression ⊕ Traversal × EntityType) := do
  match f.head.name with
  | "_id" => return .inl (.call "id" [.var entity])
  | "_labels" => return .inl (.call "labels" [.var entity])
  | "__typename" => return .inl (.literal (.string f.scope.name))
  | name =>
      match f.scope.property? name with
      | some property => return .inl (← c.propertyValue f property entity)
      | none =>
          match f.scope.relationship? name with
          | some r => c.relationshipPlan f r entity
          | none => throw (.unknownField f.scope.name name)

/-- What is read from an entity for collected fields. -/
def planFields (c : Compiler) (entity : String) :
    List Collected → Compiling (List (String × Plan))
  | [] => pure []
  | f :: rest => do
      let plan ←
        match ← c.fieldPlan f entity with
        | .inl value => pure (Plan.value value)
        | .inr (t, target) =>
            let below := Collected.collect c.catalog target f.selections
            pure (Plan.traversal t (← planFields c t.entity below))
      return (f.key, plan) :: (← planFields c entity rest)
termination_by fields => Collected.weight fields
decreasing_by
  · simp only [Collected.weight]
    omega
  · refine Nat.lt_of_le_of_lt (Collected.weight_collect_le ..) ?_
    simp only [Collected.weight]
    omega

/-- What is read from an entity of a type for a selection. -/
def plan (c : Compiler) (t : EntityType) (entity : String) (selections : List Selection) :
    Compiling (List (String × Plan)) :=
  c.planFields entity (Collected.collect c.catalog t selections)

end Compiler

end PropertyGraphQL
