/-
Expressions, patterns and predicates of the query language.

The three belong together: an expression may hold a pattern, a pattern
holds expressions for its properties, and both hold predicates. Equality
(`Expression.same`, `Predicate.same`) is equality of the trees, except
that constants are compared by `Literal.same`.
-/
import PropertyGraphQL.Cypher.Literal
import PropertyGraphQL.Direction

namespace PropertyGraphQL.Cypher

/-- `-[binder:relType]->` or `<-[binder:relType]-` -/
structure RelationshipPattern where
  binder : Option String
  relType : String
  direction : Direction
deriving DecidableEq, Repr

/-- How many elements of a list have to satisfy a condition. -/
inductive Quantifier where
  | any
  | none
  | all
  | single
deriving DecidableEq, Repr

/-- What two expressions are compared for. -/
inductive Comparison where
  | eq
  | neq
  | lt
  | lte
  | gt
  | gte
  /-- Whether the right side, a list, has the left side as an element. -/
  | member
  | contains
  | startsWith
  | endsWith
deriving DecidableEq, Repr

mutual

inductive Expression where
  | literal (value : Literal)
  /-- A parameter of the statement. -/
  | parameter (name : String)
  | var (name : String)
  | property (owner key : String)
  /-- A call of a function, whose name may have several parts. -/
  | call (function : String) (args : List Expression)
  | map (entries : List (String × Expression))
  /-- A map made of properties of an entity and of further entries. -/
  | projection (owner : String) (items : List MapItem)
  | list (elems : List Expression)
  /-- One element for every match of the pattern. -/
  | patternComprehension (pattern : Pattern) (condition : Predicate) (result : Expression)
  /-- One element for every element of `source` that satisfies the condition. -/
  | listComprehension (binder : String) (source : Expression) (condition : Predicate)
      (result : Option Expression)
  /-- The elements from `lower` to before `upper`; an absent bound is open. -/
  | slice (source : Expression) (lower upper : Option Int)
  | conditional (condition : Predicate) (yes no : Expression)
  /-- The number of rows. -/
  | countAll

inductive MapItem where
  /-- A property of the entity under its own name. -/
  | property (key : String)
  | entry (key : String) (value : Expression)

structure NodePattern where
  binder : Option String
  labels : List String
  properties : List (String × Expression)

/-- A node and relationships, each leading on to a further node. -/
structure Pattern where
  start : NodePattern
  hops : List (RelationshipPattern × NodePattern)

inductive Predicate where
  | always
  | never
  | compare (comparison : Comparison) (lhs rhs : Expression)
  | isNull (subject : Expression)
  | isNotNull (subject : Expression)
  | quantified (quantifier : Quantifier) (binder : String) (source : Expression)
      (condition : Predicate)
  | conj (lhs rhs : Predicate)
  | disj (lhs rhs : Predicate)
  | neg (inner : Predicate)

end

-- ============================================================ equality

mutual

/-- Equality of expressions. -/
def Expression.same : Expression → Expression → Bool
  | .literal a, .literal b => a.same b
  | .parameter a, .parameter b => a == b
  | .var a, .var b => a == b
  | .property a k, .property b l => a == b && k == l
  | .call f as, .call g bs => f == g && Expression.sameList as bs
  | .map a, .map b => Expression.sameEntries a b
  | .projection a is, .projection b js => a == b && MapItem.sameList is js
  | .list as, .list bs => Expression.sameList as bs
  | .patternComprehension p c r, .patternComprehension q d s =>
      Pattern.same p q && Predicate.same c d && Expression.same r s
  | .listComprehension x e c r, .listComprehension y f d s =>
      x == y && Expression.same e f && Predicate.same c d && Expression.sameOption r s
  | .slice e l u, .slice f m v => Expression.same e f && l == m && u == v
  | .conditional c a b, .conditional d e f =>
      Predicate.same c d && Expression.same a e && Expression.same b f
  | .countAll, .countAll => true
  | _, _ => false

def Expression.sameList : List Expression → List Expression → Bool
  | [], [] => true
  | a :: as, b :: bs => Expression.same a b && Expression.sameList as bs
  | _, _ => false

def Expression.sameOption : Option Expression → Option Expression → Bool
  | none, none => true
  | some a, some b => Expression.same a b
  | _, _ => false

def Expression.sameEntries :
    List (String × Expression) → List (String × Expression) → Bool
  | [], [] => true
  | (k, a) :: as, (l, b) :: bs =>
      k == l && Expression.same a b && Expression.sameEntries as bs
  | _, _ => false

def MapItem.same : MapItem → MapItem → Bool
  | .property a, .property b => a == b
  | .entry k a, .entry l b => k == l && Expression.same a b
  | _, _ => false

def MapItem.sameList : List MapItem → List MapItem → Bool
  | [], [] => true
  | a :: as, b :: bs => MapItem.same a b && MapItem.sameList as bs
  | _, _ => false

def NodePattern.same : NodePattern → NodePattern → Bool
  | ⟨x, ls, ps⟩, ⟨y, ms, qs⟩ => x == y && ls == ms && Expression.sameEntries ps qs

def NodePattern.sameHops :
    List (RelationshipPattern × NodePattern) → List (RelationshipPattern × NodePattern) → Bool
  | [], [] => true
  | (r, n) :: rest, (s, m) :: rest' =>
      r == s && NodePattern.same n m && NodePattern.sameHops rest rest'
  | _, _ => false

def Pattern.same : Pattern → Pattern → Bool
  | ⟨n, hs⟩, ⟨m, is⟩ => NodePattern.same n m && NodePattern.sameHops hs is

/-- Equality of predicates. -/
def Predicate.same : Predicate → Predicate → Bool
  | .always, .always => true
  | .never, .never => true
  | .compare c a b, .compare d e f => c == d && Expression.same a e && Expression.same b f
  | .isNull a, .isNull b => Expression.same a b
  | .isNotNull a, .isNotNull b => Expression.same a b
  | .quantified q x e c, .quantified r y f d =>
      q == r && x == y && Expression.same e f && Predicate.same c d
  | .conj a b, .conj c d => Predicate.same a c && Predicate.same b d
  | .disj a b, .disj c d => Predicate.same a c && Predicate.same b d
  | .neg a, .neg b => Predicate.same a b
  | _, _ => false

end

-- ======================================================== construction

namespace NodePattern

/-- A node without name, labels and properties. -/
def blank : NodePattern := ⟨none, [], []⟩

/-- A node with a name. -/
def named (name : String) : NodePattern := ⟨some name, [], []⟩

/-- A node with a name and a label. -/
def labelled (name label : String) : NodePattern := ⟨some name, [label], []⟩

end NodePattern

namespace Pattern

/-- A pattern of one node. -/
def node (start : NodePattern) : Pattern := ⟨start, []⟩

/-- The pattern continued by a relationship to a further node. -/
def related (p : Pattern) (relationship : RelationshipPattern) (next : NodePattern) : Pattern :=
  ⟨p.start, p.hops ++ [(relationship, next)]⟩

end Pattern

namespace Expression

/-- The first element of a list. -/
def head (e : Expression) : Expression := .call "head" [e]

/-- The values of all rows in a list. -/
def collect (e : Expression) : Expression := .call "collect" [e]

/-- The part of a list between two bounds: the list itself if both are open. -/
def sliced (e : Expression) : Option Int → Option Int → Expression
  | none, none => e
  | lower, upper => .slice e lower upper

end Expression

namespace Predicate

/-- Equality of two expressions. -/
def eq (lhs rhs : Expression) : Predicate := .compare .eq lhs rhs

/-- Whether the predicate is the constant truth. -/
def isAlways : Predicate → Bool
  | .always => true
  | _ => false

end Predicate

end PropertyGraphQL.Cypher
