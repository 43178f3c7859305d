/-
The traversals that a statement makes, read from its clauses alone.

Both kinds of statements are read by one reader, which does not know the
dialect. A nested comprehension is a traversal, whose list may be cut and
whose head may be taken (`Expression.traversals`). A traversal in clauses is
opened by an `OPTIONAL MATCH` or by the `UNWIND` of a list, and closed by the
`WITH` that collects it; those opened in between lie below it, so the clauses
are walked with a stack (`Walk`). In both cases a traversal comes before
those below it.

The function that sorts a list takes its keys as texts, those in ascending
order behind a caret. They are read as that says (`sortKeyOrder`).
-/
import PropertyGraphQL.Compile.Query
import PropertyGraphQL.Text.Affix

namespace PropertyGraphQL

open Cypher

/-- A traversal of a statement. -/
structure Emitted where
  /-- The variable of the related entities. -/
  entity : String
  /-- The pattern that the related entities match, or the list of them. -/
  origin : Pattern ⊕ Expression
  condition : Predicate
  order : OrderBy
  /-- The bounds of the part of the list that is kept. -/
  bounds : Option Int × Option Int
  /-- Whether the whole list is kept, or the first of it. -/
  multi : Bool
  /-- The names of what is read from the related entities. -/
  keys : List String

-- ========================================================== comprehensions

/-- The order that a key of the function that sorts stands for. -/
def sortKeyOrder (entity : String) : Expression → Expression × SortOrder
  | .literal (.string key) =>
      match Text.dropLead? key "^" with
      | some property => (.property entity property, .ascending)
      | none => (.property entity key, .descending)
  | other => (other, .ascending)

namespace Cypher.MapItem

/-- The name of an entry of a projection. -/
def key : MapItem → String
  | .property key => key
  | .entry key _ => key

end Cypher.MapItem

namespace Cypher.Expression

/-- Where entities come from that are listed as they are, and the condition on
them. -/
def listed : Expression → (Pattern ⊕ Expression) × Predicate
  | .patternComprehension pattern condition _ => (.inl pattern, condition)
  | .listComprehension _ source condition none => (.inr source, condition)
  | source => (.inr source, .always)

/-- A list without its bounds, and these. -/
def cut : Expression → Expression × (Option Int × Option Int)
  | .slice source lower upper => (source, lower, upper)
  | source => (source, none, none)

/-- The traversal of a comprehension over a list: one that is sorted first has
its bounds inside. -/
def listTraversal (binder : String) (source : Expression) (condition : Predicate)
    (bounds : Option Int × Option Int) (multi : Bool) (keys : List String) : Emitted :=
  match source.cut with
  | (.call _ [matching, .list sortKeys], inner) =>
      ⟨binder, matching.listed.1, matching.listed.2, sortKeys.map (sortKeyOrder binder), inner,
        multi, keys⟩
  | _ => ⟨binder, .inr source, condition, [], bounds, multi, keys⟩

/-- The entity of a projection. -/
def owner : Expression → String
  | .projection owner _ => owner
  | _ => ""

/-- The names of the entries of a projection, or of a map. -/
def keys : Expression → List String
  | .projection _ items => items.map MapItem.key
  | .map entries => entries.map Prod.fst
  | _ => []

mutual

/-- The traversals in an expression, of whose list the bounds and the head are
taken as told. -/
def traversals (multi : Bool) (bounds : Option Int × Option Int) : Expression → List Emitted
  | .call "head" [source] => traversals false bounds source
  | .slice source lower upper => traversals multi (lower, upper) source
  | .patternComprehension pattern condition result =>
      ⟨result.owner, .inl pattern, condition, [], bounds, multi, result.keys⟩
        :: traversals true (none, none) result
  | .listComprehension binder source condition (some result) =>
      listTraversal binder source condition bounds multi result.keys
        :: traversals true (none, none) result
  | .projection _ items => itemTraversals items
  | _ => []

def itemTraversals : List MapItem → List Emitted
  | [] => []
  | .property _ :: rest => itemTraversals rest
  | .entry _ value :: rest => traversals true (none, none) value ++ itemTraversals rest

end

end Cypher.Expression

-- ================================================================= clauses

namespace Cypher.Expression

/-- A list of which the head may be taken, and whether it is kept whole. -/
def whole : Expression → Expression × Bool
  | .call "head" [source] => (source, false)
  | source => (source, true)

/-- What a list of values collected from rows is made from: whether it is kept
whole, its bounds, and the names in the map that is collected. -/
def collected? (e : Expression) : Option (Bool × (Option Int × Option Int) × List String) :=
  match e.whole.1.cut with
  | (.call "collect" [.conditional _ _ result], bounds) => some (e.whole.2, bounds, result.keys)
  | _ => none

end Cypher.Expression

/-- A traversal that is opened and not yet closed. -/
structure Frame where
  /-- The traversals before it, beside it. -/
  before : List Emitted
  origin : Pattern ⊕ Expression
  condition : Predicate
  order : OrderBy

/-- How far clauses are read. -/
structure Walk where
  /-- The traversals that are open, the innermost first. -/
  frames : List Frame
  /-- The list that was named last. -/
  list : Expression
  /-- The closed traversals in the innermost open one. -/
  closed : List Emitted

namespace Walk

/-- Before any clause is read. -/
def start : Walk := ⟨[], .literal .null, []⟩

/-- Open a traversal. -/
def push (w : Walk) (origin : Pattern ⊕ Expression) (condition : Predicate) : Walk :=
  { w with frames := ⟨w.closed, origin, condition, []⟩ :: w.frames, closed := [] }

/-- Sort what the innermost traversal has. -/
def sort (w : Walk) (order : OrderBy) : Walk :=
  match w.frames with
  | [] => w
  | frame :: rest => { w with frames := { frame with order } :: rest }

/-- Close the innermost traversal. -/
def close (w : Walk) (entity : String) (multi : Bool) (bounds : Option Int × Option Int)
    (keys : List String) : Walk :=
  match w.frames with
  | [] => w
  | frame :: rest =>
      let emitted : Emitted :=
        ⟨entity, frame.origin, frame.condition, frame.order, bounds, multi, keys⟩
      { w with frames := rest, closed := frame.before ++ emitted :: w.closed }

/-- Read a column that a clause makes: a list of rows, or any other list. -/
def column (w : Walk) (e : Expression) (name : String) : Walk :=
  match e.collected? with
  | some (multi, bounds, keys) => w.close name multi bounds keys
  | none => { w with list := e }

/-- Read a clause. -/
def step (w : Walk) : Clause → Walk
  | .matching pattern true condition => w.push (.inl pattern) condition
  | .unwind _ _ => w.push w.list.listed.1 w.list.listed.2
  | .withItems _ (some order) => w.sort order
  | .withItems items none =>
      match items.getLast? with
      | some ⟨e, some name⟩ => w.column e name
      | _ => w
  | .returnItems items _ _ _ =>
      { w with closed :=
          w.closed ++ items.flatMap (·.expression.traversals true (none, none)) }
  | _ => w

end Walk

namespace Cypher

/-- The traversals that clauses make, each before those below it. -/
def Clause.traversals (clauses : List Clause) : List Emitted :=
  (clauses.foldl Walk.step Walk.start).closed

end Cypher

/-- The traversals that a statement makes; none are read from a statement that
is written by hand. -/
def StatementBody.traversals : StatementBody → List Emitted
  | .clauses statement => Clause.traversals statement.clauses
  | .written _ _ => []

end PropertyGraphQL
