/-
Closed statements: what is read is in scope.

Clauses are gone through in order with the variables in scope. A pattern
that leads on from its start reads the start and introduces the names
behind it; a pattern of one node introduces that node. `WITH` leaves the
names of its items in scope and no other. Inside an expression,
comprehensions and quantifiers bring names into scope for their own
parts. Of the parameters that are referred to, a property `P` is asked
along the way.
-/
import PropertyGraphQL.Cypher.Clause

namespace PropertyGraphQL.Cypher

-- ============================================================= patterns

namespace Pattern

/-- The names that a pattern introduces: those behind its start, or the start
if it is alone. -/
def introduced (p : Pattern) : List String :=
  if p.hops.isEmpty then p.start.binder.toList
  else p.hops.flatMap fun (relationship, node) =>
    relationship.binder.toList ++ node.binder.toList

/-- The name that a pattern leads on from. -/
def origin? (p : Pattern) : Option String :=
  if p.hops.isEmpty then none else p.start.binder

/-- All names in a pattern. -/
def names (p : Pattern) : List String :=
  p.start.binder.toList ++ p.hops.flatMap fun (relationship, node) =>
    relationship.binder.toList ++ node.binder.toList

end Pattern

-- ========================================================== expressions

variable (P : String → Prop)

mutual

/-- Every variable that an expression reads is in scope, and every parameter
has the property. -/
def Expression.ClosedIn (scope : List String) : Expression → Prop
  | .literal _ => True
  | .parameter name => P name
  | .var name => name ∈ scope
  | .property owner _ => owner ∈ scope
  | .call _ args => Expression.AllClosedIn scope args
  | .map entries => Expression.EntriesClosedIn scope entries
  | .projection owner items => owner ∈ scope ∧ MapItem.AllClosedIn scope items
  | .list elems => Expression.AllClosedIn scope elems
  | .patternComprehension pattern condition result =>
      Pattern.ClosedIn scope pattern
        ∧ Predicate.ClosedIn (scope ++ pattern.introduced) condition
        ∧ Expression.ClosedIn (scope ++ pattern.introduced) result
  | .listComprehension binder source condition result =>
      Expression.ClosedIn scope source ∧ Predicate.ClosedIn (scope ++ [binder]) condition
        ∧ Expression.ResultClosedIn (scope ++ [binder]) result
  | .slice source _ _ => Expression.ClosedIn scope source
  | .conditional condition yes no =>
      Predicate.ClosedIn scope condition ∧ Expression.ClosedIn scope yes
        ∧ Expression.ClosedIn scope no
  | .countAll => True

def Expression.ResultClosedIn (scope : List String) : Option Expression → Prop
  | none => True
  | some e => Expression.ClosedIn scope e

def Expression.AllClosedIn (scope : List String) : List Expression → Prop
  | [] => True
  | e :: rest => Expression.ClosedIn scope e ∧ Expression.AllClosedIn scope rest

def Expression.EntriesClosedIn (scope : List String) : List (String × Expression) → Prop
  | [] => True
  | (_, e) :: rest => Expression.ClosedIn scope e ∧ Expression.EntriesClosedIn scope rest

def MapItem.ClosedIn (scope : List String) : MapItem → Prop
  | .property _ => True
  | .entry _ value => Expression.ClosedIn scope value

def MapItem.AllClosedIn (scope : List String) : List MapItem → Prop
  | [] => True
  | item :: rest => MapItem.ClosedIn scope item ∧ MapItem.AllClosedIn scope rest

/-- The properties asked of a node are closed. -/
def NodePattern.ClosedIn (scope : List String) : NodePattern → Prop
  | ⟨_, _, properties⟩ => Expression.EntriesClosedIn scope properties

def NodePattern.HopsClosedIn (scope : List String) :
    List (RelationshipPattern × NodePattern) → Prop
  | [] => True
  | (_, node) :: rest => NodePattern.ClosedIn scope node ∧ NodePattern.HopsClosedIn scope rest

/-- A pattern leads on from a name in scope. -/
def Pattern.ClosedIn (scope : List String) : Pattern → Prop
  | ⟨start, hops⟩ =>
      (∀ name ∈ Pattern.origin? ⟨start, hops⟩, name ∈ scope)
        ∧ NodePattern.ClosedIn scope start ∧ NodePattern.HopsClosedIn scope hops

/-- Every variable that a predicate reads is in scope, and every parameter
has the property. -/
def Predicate.ClosedIn (scope : List String) : Predicate → Prop
  | .always => True
  | .never => True
  | .compare _ lhs rhs => Expression.ClosedIn scope lhs ∧ Expression.ClosedIn scope rhs
  | .isNull subject => Expression.ClosedIn scope subject
  | .isNotNull subject => Expression.ClosedIn scope subject
  | .quantified _ binder source condition =>
      Expression.ClosedIn scope source ∧ Predicate.ClosedIn (scope ++ [binder]) condition
  | .conj lhs rhs => Predicate.ClosedIn scope lhs ∧ Predicate.ClosedIn scope rhs
  | .disj lhs rhs => Predicate.ClosedIn scope lhs ∧ Predicate.ClosedIn scope rhs
  | .neg inner => Predicate.ClosedIn scope inner

end

-- ============================================================== clauses

namespace ReturnItem

/-- The name of a column: the one it is given, or that of the variable. -/
def name? (item : ReturnItem) : Option String :=
  match item.rename, item.expression with
  | some name, _ => some name
  | none, .var name => some name
  | none, _ => none

end ReturnItem

/-- What rows are sorted by is closed. -/
def OrderBy.ClosedIn (scope : List String) (orderBy : Option OrderBy) : Prop :=
  ∀ keys ∈ orderBy, ∀ key ∈ keys, Expression.ClosedIn P scope key.1

theorem OrderBy.closedIn_none (scope : List String) : OrderBy.ClosedIn P scope none := by
  intro keys hkeys
  cases hkeys

/-- A change is made to an entity in scope. -/
def SetItem.ClosedIn (scope : List String) : SetItem → Prop
  | .replace target value => target ∈ scope ∧ value.ClosedIn P scope
  | .merge target value => target ∈ scope ∧ value.ClosedIn P scope
  | .labels target _ => target ∈ scope

namespace Clause

/-- The variables in scope behind a clause. -/
def scopeAfter (scope : List String) : Clause → List String
  | .matching pattern _ _ => scope ++ pattern.introduced
  | .withItems items _ => items.filterMap ReturnItem.name?
  | .unwind _ binder => scope ++ [binder]
  | .create pattern => scope ++ pattern.introduced
  | _ => scope

/-- Everything that a clause reads is in scope. -/
def ClosedIn (scope : List String) : Clause → Prop
  | .matching pattern _ condition =>
      pattern.ClosedIn P scope ∧ condition.ClosedIn P (scope ++ pattern.introduced)
  | .withItems items orderBy =>
      (∀ item ∈ items, item.expression.ClosedIn P scope)
        ∧ OrderBy.ClosedIn P (items.filterMap ReturnItem.name?) orderBy
  | .unwind source _ => source.ClosedIn P scope
  | .create pattern => pattern.ClosedIn P scope
  | .merge pattern => pattern.ClosedIn P scope ∧ pattern.names ⊆ scope
  | .set items => ∀ item ∈ items, item.ClosedIn P scope
  | .delete targets _ => targets ⊆ scope
  | .returnItems items orderBy _ _ =>
      (∀ item ∈ items, item.expression.ClosedIn P scope) ∧ OrderBy.ClosedIn P scope orderBy

/-- Every clause of a list reads what is in scope behind those before it. -/
def AllClosedIn (scope : List String) : List Clause → Prop
  | [] => True
  | clause :: rest => clause.ClosedIn P scope ∧ AllClosedIn (clause.scopeAfter scope) rest

/-- The variables in scope behind a list of clauses. -/
def scopeAfterAll (scope : List String) (clauses : List Clause) : List String :=
  clauses.foldl scopeAfter scope

variable {P}

/-- Clauses one after another are closed if the second ones are in the scope the first ones
leave. -/
theorem allClosedIn_append {scope : List String} {first second : List Clause} :
    AllClosedIn P scope (first ++ second)
      ↔ AllClosedIn P scope first ∧ AllClosedIn P (scopeAfterAll scope first) second := by
  induction first generalizing scope with
  | nil => exact ⟨fun h => ⟨trivial, h⟩, fun h => h.2⟩
  | cons clause rest ih =>
    rw [List.cons_append, AllClosedIn, AllClosedIn, ih, and_assoc]
    rfl

/-- The scope behind clauses is made clause by clause. -/
theorem scopeAfterAll_append (scope : List String) (first second : List Clause) :
    scopeAfterAll scope (first ++ second)
      = scopeAfterAll (scopeAfterAll scope first) second :=
  List.foldl_append

end Clause

variable {P}

/-- A pattern of one node reads what its properties read. -/
theorem Pattern.closedIn_node {scope : List String} {node : NodePattern}
    (h : node.ClosedIn P scope) : (Pattern.node node).ClosedIn P scope :=
  ⟨fun _ hname => (by cases hname), h, trivial⟩

-- ========================================================= larger scopes

/-- Names added to two scopes leave the smaller one smaller. -/
theorem subset_append_right {scope scope' : List String} (h : scope ⊆ scope')
    (names : List String) : scope ++ names ⊆ scope' ++ names :=
  List.append_subset.mpr
    ⟨fun _ hmem => List.mem_append_left _ (h hmem), List.subset_append_right _ _⟩

mutual

/-- What is closed in a scope is closed in every larger one. -/
theorem Expression.ClosedIn.mono {scope scope' : List String} (hs : scope ⊆ scope')
    {e : Expression} (h : e.ClosedIn P scope) : e.ClosedIn P scope' := by
  cases e with
  | literal | countAll => exact trivial
  | parameter name => exact h
  | var name => exact hs h
  | property owner key => exact hs h
  | call function args => exact Expression.AllClosedIn.mono hs h
  | map entries => exact Expression.EntriesClosedIn.mono hs h
  | projection owner items => exact ⟨hs h.1, MapItem.AllClosedIn.mono hs h.2⟩
  | list elems => exact Expression.AllClosedIn.mono hs h
  | patternComprehension pattern condition result =>
    have hs' := subset_append_right hs pattern.introduced
    exact ⟨Pattern.ClosedIn.mono hs h.1, Predicate.ClosedIn.mono hs' h.2.1,
      Expression.ClosedIn.mono hs' h.2.2⟩
  | listComprehension binder source condition result =>
    have hs' := subset_append_right hs [binder]
    exact ⟨Expression.ClosedIn.mono hs h.1, Predicate.ClosedIn.mono hs' h.2.1,
      Expression.ResultClosedIn.mono hs' h.2.2⟩
  | slice source lower upper => exact Expression.ClosedIn.mono (e := source) hs h
  | conditional condition yes no =>
    exact ⟨Predicate.ClosedIn.mono hs h.1, Expression.ClosedIn.mono hs h.2.1,
      Expression.ClosedIn.mono hs h.2.2⟩

/-- An optional result that is closed in a scope is closed in a wider one. -/
theorem Expression.ResultClosedIn.mono {scope scope' : List String} (hs : scope ⊆ scope')
    {result : Option Expression} (h : Expression.ResultClosedIn P scope result) :
    Expression.ResultClosedIn P scope' result := by
  cases result with
  | none => exact trivial
  | some e => exact Expression.ClosedIn.mono (e := e) hs h

/-- Expressions that are closed in a scope are closed in a wider one. -/
theorem Expression.AllClosedIn.mono {scope scope' : List String} (hs : scope ⊆ scope')
    {es : List Expression} (h : Expression.AllClosedIn P scope es) :
    Expression.AllClosedIn P scope' es := by
  cases es with
  | nil => exact trivial
  | cons e rest => exact ⟨Expression.ClosedIn.mono hs h.1, Expression.AllClosedIn.mono hs h.2⟩

/-- Entries of a map that are closed in a scope are closed in a wider one. -/
theorem Expression.EntriesClosedIn.mono {scope scope' : List String} (hs : scope ⊆ scope')
    {entries : List (String × Expression)} (h : Expression.EntriesClosedIn P scope entries) :
    Expression.EntriesClosedIn P scope' entries := by
  match entries with
  | [] => exact trivial
  | (_, e) :: rest =>
    exact ⟨Expression.ClosedIn.mono hs h.1, Expression.EntriesClosedIn.mono hs h.2⟩

theorem MapItem.ClosedIn.mono {scope scope' : List String} (hs : scope ⊆ scope')
    {item : MapItem} (h : item.ClosedIn P scope) : item.ClosedIn P scope' := by
  cases item with
  | property key => exact trivial
  | entry key value => exact Expression.ClosedIn.mono (e := value) hs h

theorem MapItem.AllClosedIn.mono {scope scope' : List String} (hs : scope ⊆ scope')
    {items : List MapItem} (h : MapItem.AllClosedIn P scope items) :
    MapItem.AllClosedIn P scope' items := by
  cases items with
  | nil => exact trivial
  | cons item rest => exact ⟨MapItem.ClosedIn.mono hs h.1, MapItem.AllClosedIn.mono hs h.2⟩

/-- A node pattern that is closed in a scope is closed in a wider one. -/
theorem NodePattern.ClosedIn.mono {scope scope' : List String} (hs : scope ⊆ scope')
    {node : NodePattern} (h : node.ClosedIn P scope) : node.ClosedIn P scope' := by
  obtain ⟨_, _, properties⟩ := node
  have hproperties : Expression.EntriesClosedIn P scope properties := h
  exact Expression.EntriesClosedIn.mono hs hproperties

theorem NodePattern.HopsClosedIn.mono {scope scope' : List String} (hs : scope ⊆ scope')
    {hops : List (RelationshipPattern × NodePattern)}
    (h : NodePattern.HopsClosedIn P scope hops) : NodePattern.HopsClosedIn P scope' hops := by
  match hops with
  | [] => exact trivial
  | (_, node) :: rest =>
    exact ⟨NodePattern.ClosedIn.mono hs h.1, NodePattern.HopsClosedIn.mono hs h.2⟩

/-- A pattern that is closed in a scope is closed in a wider one. -/
theorem Pattern.ClosedIn.mono {scope scope' : List String} (hs : scope ⊆ scope')
    {pattern : Pattern} (h : pattern.ClosedIn P scope) : pattern.ClosedIn P scope' := by
  obtain ⟨start, hops⟩ := pattern
  exact ⟨fun name hname => hs (h.1 name hname), NodePattern.ClosedIn.mono hs h.2.1,
    NodePattern.HopsClosedIn.mono hs h.2.2⟩

/-- A predicate that is closed in a scope is closed in a wider one. -/
theorem Predicate.ClosedIn.mono {scope scope' : List String} (hs : scope ⊆ scope')
    {p : Predicate} (h : p.ClosedIn P scope) : p.ClosedIn P scope' := by
  cases p with
  | always | never => exact trivial
  | compare comparison lhs rhs =>
    exact ⟨Expression.ClosedIn.mono hs h.1, Expression.ClosedIn.mono hs h.2⟩
  | isNull subject | isNotNull subject => exact Expression.ClosedIn.mono (e := subject) hs h
  | quantified quantifier binder source condition =>
    exact ⟨Expression.ClosedIn.mono hs h.1,
      Predicate.ClosedIn.mono (subset_append_right hs [binder]) h.2⟩
  | conj lhs rhs | disj lhs rhs =>
    exact ⟨Predicate.ClosedIn.mono hs h.1, Predicate.ClosedIn.mono hs h.2⟩
  | neg inner => exact Predicate.ClosedIn.mono (p := inner) hs h

end

end PropertyGraphQL.Cypher
