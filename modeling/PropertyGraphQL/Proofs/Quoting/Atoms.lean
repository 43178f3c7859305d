/-
What a statement is made from besides fixed words and punctuation.

The atoms of a tree are its names, its string constants, and the names of
its functions and parameters, in the order in which they are written. The
outline of a tree is what is left of it when the names and string constants
are emptied: trees of one outline differ in nothing else.
-/
import PropertyGraphQL.Cypher.Clause

namespace PropertyGraphQL.Cypher

/-- A part of a tree that is not fixed by the forms in it. -/
inductive Atom where
  /-- The name of a variable, a label, a relationship type or a key. -/
  | identifier (name : String)
  | string (value : String)
  | function (name : String)
  | parameter (name : String)
  | float (x : Binary64)

-- ================================================================== atoms

namespace Literal

mutual

def atoms : Literal → List Atom
  | .float x => [.float x]
  | .string s => [.string s]
  | .list elems => elemAtoms elems
  | .map entries => entryAtoms entries
  | _ => []

def elemAtoms : List Literal → List Atom
  | [] => []
  | e :: rest => atoms e ++ elemAtoms rest

def entryAtoms : List (String × Literal) → List Atom
  | [] => []
  | (k, e) :: rest => .identifier k :: atoms e ++ entryAtoms rest

end

end Literal

/-- A name that may be missing. -/
def binderAtoms (name : Option String) : List Atom := name.toList.map .identifier

def RelationshipPattern.atoms (r : RelationshipPattern) : List Atom :=
  binderAtoms r.binder ++ [.identifier r.relType]

mutual

/-- The atoms of an expression, in the order in which they are written. -/
def Expression.atoms : Expression → List Atom
  | .literal value => value.atoms
  | .parameter name => [.parameter name]
  | .var name => [.identifier name]
  | .property owner key => [.identifier owner, .identifier key]
  | .call function args => .function function :: Expression.listAtoms args
  | .map entries => Expression.entriesAtoms entries
  | .projection owner items => .identifier owner :: MapItem.listAtoms items
  | .list elems => Expression.listAtoms elems
  | .patternComprehension pattern condition result =>
      Pattern.atoms pattern ++ Predicate.atoms condition ++ Expression.atoms result
  | .listComprehension binder source condition result =>
      .identifier binder :: Expression.atoms source ++ Predicate.atoms condition
        ++ Expression.resultAtoms result
  | .slice source _ _ => Expression.atoms source
  | .conditional condition yes no =>
      Predicate.atoms condition ++ Expression.atoms yes ++ Expression.atoms no
  | .countAll => []

def Expression.resultAtoms : Option Expression → List Atom
  | none => []
  | some e => Expression.atoms e

def Expression.listAtoms : List Expression → List Atom
  | [] => []
  | e :: rest => Expression.atoms e ++ Expression.listAtoms rest

def Expression.entriesAtoms : List (String × Expression) → List Atom
  | [] => []
  | (key, e) :: rest =>
      .identifier key :: Expression.atoms e ++ Expression.entriesAtoms rest

def MapItem.atoms : MapItem → List Atom
  | .property key => [.identifier key]
  | .entry key value => .identifier key :: Expression.atoms value

def MapItem.listAtoms : List MapItem → List Atom
  | [] => []
  | item :: rest => MapItem.atoms item ++ MapItem.listAtoms rest

def NodePattern.atoms : NodePattern → List Atom
  | ⟨binder, labels, properties⟩ =>
      binderAtoms binder ++ labels.map .identifier ++ Expression.entriesAtoms properties

def NodePattern.hopsAtoms : List (RelationshipPattern × NodePattern) → List Atom
  | [] => []
  | (relationship, node) :: rest =>
      relationship.atoms ++ NodePattern.atoms node ++ NodePattern.hopsAtoms rest

def Pattern.atoms : Pattern → List Atom
  | ⟨start, hops⟩ => NodePattern.atoms start ++ NodePattern.hopsAtoms hops

/-- The atoms of a predicate, in the order in which they are written. -/
def Predicate.atoms : Predicate → List Atom
  | .always => []
  | .never => []
  | .compare _ lhs rhs => Expression.atoms lhs ++ Expression.atoms rhs
  | .isNull subject => Expression.atoms subject
  | .isNotNull subject => Expression.atoms subject
  | .quantified _ binder source condition =>
      .identifier binder :: Expression.atoms source ++ Predicate.atoms condition
  | .conj lhs rhs => Predicate.atoms lhs ++ Predicate.atoms rhs
  | .disj lhs rhs => Predicate.atoms lhs ++ Predicate.atoms rhs
  | .neg inner => Predicate.atoms inner

end

def ReturnItem.atoms (item : ReturnItem) : List Atom :=
  item.expression.atoms ++ binderAtoms item.rename

def OrderBy.atoms (orderBy : OrderBy) : List Atom :=
  orderBy.flatMap fun (e, _) => e.atoms

def SetItem.atoms : SetItem → List Atom
  | .replace target value => .identifier target :: value.atoms
  | .merge target value => .identifier target :: value.atoms
  | .labels target names => .identifier target :: names.map .identifier

def Clause.atoms : Clause → List Atom
  | .matching pattern _ condition => pattern.atoms ++ condition.atoms
  | .withItems items orderBy =>
      items.flatMap ReturnItem.atoms ++ (orderBy.map OrderBy.atoms).getD []
  | .unwind source binder => source.atoms ++ [.identifier binder]
  | .create pattern => pattern.atoms
  | .merge pattern => pattern.atoms
  | .set items => items.flatMap SetItem.atoms
  | .delete targets _ => targets.map .identifier
  | .returnItems items orderBy _ _ =>
      items.flatMap ReturnItem.atoms ++ (orderBy.map OrderBy.atoms).getD []

def Statement.atoms (s : Statement) : List Atom := s.clauses.flatMap Clause.atoms

-- =============================================================== outlines

namespace Literal

mutual

def outline : Literal → Literal
  | .string _ => .string ""
  | .list elems => .list (elemOutlines elems)
  | .map entries => .map (entryOutlines entries)
  | other => other

def elemOutlines : List Literal → List Literal
  | [] => []
  | e :: rest => outline e :: elemOutlines rest

def entryOutlines : List (String × Literal) → List (String × Literal)
  | [] => []
  | (_, e) :: rest => ("", outline e) :: entryOutlines rest

end

end Literal

/-- A name that is there is emptied. -/
def binderOutline (name : Option String) : Option String := name.map fun _ => ""

def labelOutlines (labels : List String) : List String := labels.map fun _ => ""

def RelationshipPattern.outline (r : RelationshipPattern) : RelationshipPattern :=
  ⟨binderOutline r.binder, "", r.direction⟩

mutual

/-- An expression with its names and string constants emptied. The names of
functions and parameters stay. -/
def Expression.outline : Expression → Expression
  | .literal value => .literal value.outline
  | .parameter name => .parameter name
  | .var _ => .var ""
  | .property _ _ => .property "" ""
  | .call function args => .call function (Expression.listOutlines args)
  | .map entries => .map (Expression.entriesOutlines entries)
  | .projection _ items => .projection "" (MapItem.listOutlines items)
  | .list elems => .list (Expression.listOutlines elems)
  | .patternComprehension pattern condition result =>
      .patternComprehension (Pattern.outline pattern) (Predicate.outline condition)
        (Expression.outline result)
  | .listComprehension _ source condition result =>
      .listComprehension "" (Expression.outline source) (Predicate.outline condition)
        (Expression.resultOutline result)
  | .slice source lower upper => .slice (Expression.outline source) lower upper
  | .conditional condition yes no =>
      .conditional (Predicate.outline condition) (Expression.outline yes)
        (Expression.outline no)
  | .countAll => .countAll

def Expression.resultOutline : Option Expression → Option Expression
  | none => none
  | some e => some (Expression.outline e)

def Expression.listOutlines : List Expression → List Expression
  | [] => []
  | e :: rest => Expression.outline e :: Expression.listOutlines rest

def Expression.entriesOutlines : List (String × Expression) → List (String × Expression)
  | [] => []
  | (_, e) :: rest => ("", Expression.outline e) :: Expression.entriesOutlines rest

def MapItem.outline : MapItem → MapItem
  | .property _ => .property ""
  | .entry _ value => .entry "" (Expression.outline value)

def MapItem.listOutlines : List MapItem → List MapItem
  | [] => []
  | item :: rest => MapItem.outline item :: MapItem.listOutlines rest

def NodePattern.outline : NodePattern → NodePattern
  | ⟨binder, labels, properties⟩ =>
      ⟨binderOutline binder, labelOutlines labels, Expression.entriesOutlines properties⟩

def NodePattern.hopsOutlines :
    List (RelationshipPattern × NodePattern) → List (RelationshipPattern × NodePattern)
  | [] => []
  | (relationship, node) :: rest =>
      (relationship.outline, NodePattern.outline node) :: NodePattern.hopsOutlines rest

def Pattern.outline : Pattern → Pattern
  | ⟨start, hops⟩ => ⟨NodePattern.outline start, NodePattern.hopsOutlines hops⟩

/-- A predicate with its names and string constants emptied. -/
def Predicate.outline : Predicate → Predicate
  | .always => .always
  | .never => .never
  | .compare comparison lhs rhs =>
      .compare comparison (Expression.outline lhs) (Expression.outline rhs)
  | .isNull subject => .isNull (Expression.outline subject)
  | .isNotNull subject => .isNotNull (Expression.outline subject)
  | .quantified quantifier _ source condition =>
      .quantified quantifier "" (Expression.outline source) (Predicate.outline condition)
  | .conj lhs rhs => .conj (Predicate.outline lhs) (Predicate.outline rhs)
  | .disj lhs rhs => .disj (Predicate.outline lhs) (Predicate.outline rhs)
  | .neg inner => .neg (Predicate.outline inner)

end

def ReturnItem.outline (item : ReturnItem) : ReturnItem :=
  ⟨item.expression.outline, binderOutline item.rename⟩

def OrderBy.outline (orderBy : OrderBy) : OrderBy :=
  orderBy.map fun (e, ordering) => (e.outline, ordering)

def SetItem.outline : SetItem → SetItem
  | .replace _ value => .replace "" value.outline
  | .merge _ value => .merge "" value.outline
  | .labels _ names => .labels "" (labelOutlines names)

def Clause.outline : Clause → Clause
  | .matching pattern optional condition =>
      .matching pattern.outline optional condition.outline
  | .withItems items orderBy =>
      .withItems (items.map ReturnItem.outline) (orderBy.map OrderBy.outline)
  | .unwind source _ => .unwind source.outline ""
  | .create pattern => .create pattern.outline
  | .merge pattern => .merge pattern.outline
  | .set items => .set (items.map SetItem.outline)
  | .delete targets detach => .delete (labelOutlines targets) detach
  | .returnItems items orderBy skip limit =>
      .returnItems (items.map ReturnItem.outline) (orderBy.map OrderBy.outline) skip limit

/-- A statement with its names and string constants emptied. -/
def Statement.outline (s : Statement) : Statement :=
  ⟨s.report, s.clauses.map Clause.outline⟩

end PropertyGraphQL.Cypher
