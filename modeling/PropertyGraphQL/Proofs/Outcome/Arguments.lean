/-
What the arguments of a field come to.

Each kind of argument has a relation that says what it asks, given the
variables of the request and the parameters that the statement ends up
with. A value occurs in it as an expression that denotes it, or as the
data that it stands for. Whenever compiling succeeds, its result is so
related to the arguments (`yields_ofArguments`).
-/
import PropertyGraphQL.Compile.Arguments
import PropertyGraphQL.Proofs.Filter.Shape
import PropertyGraphQL.Proofs.Parameters.Denotation

namespace PropertyGraphQL

open Cypher Compiling

-- ========================================================= kinds of values

namespace Value

variable {vars : Dict Json}

/-- Whether the value is null, or a variable that is. -/
def IsNullIn (vars : Dict Json) : Value → Bool
  | .null => true
  | .var name => (vars.get? name).elim false Json.isNull
  | _ => false

/-- Whether the value is a list, or a variable that is one. -/
def IsListIn (vars : Dict Json) : Value → Bool
  | .list _ => true
  | .var name => (vars.get? name).elim false Json.isArray
  | _ => false

/-- Whether an argument is null is told by its value or that of its variable. -/
theorem yields_isNull (x : Value) : Yields vars x.isNull fun _ b => b = x.IsNullIn vars := by
  cases x with
  | var name =>
    refine (yields_valueOf name).bind fun v => .pure fun _ hv => ?_
    show v.isNull = (vars.get? name).elim false Json.isNull
    rw [hv]
    rfl
  | _ => exact .pure fun _ => rfl

/-- Whether an argument is a list is told by its value or that of its variable. -/
theorem yields_isList (x : Value) : Yields vars x.isList fun _ b => b = x.IsListIn vars := by
  cases x with
  | var name =>
    refine (yields_valueOf name).bind fun v => .pure fun _ hv => ?_
    show v.isArray = (vars.get? name).elim false Json.isArray
    rw [hv]
    rfl
  | _ => exact .pure fun _ => rfl

end Value

-- ====================================================== plain arguments

namespace Outcome

variable (catalog : Catalog) (vars parameters : Dict Json)

/-- The operand made from a value: none for null, and otherwise an expression
that denotes the value. -/
inductive Operand (x : Value) : Option Expression → Prop where
  | null (h : x.IsNullIn vars = true) : Operand x none
  | given {e : Expression} (h : x.IsNullIn vars = false) (he : e.Denotes vars parameters x) :
      Operand x (some e)

/-- An argument named after a property and an operator compares the property
with its value. -/
inductive Comparison (t : EntityType) (entity name : String) (x : Value) :
    Predicate → Prop where
  | intro {field : String} {op : Operator} {property : PropertyField}
      {rhs : Option Expression} {p : Predicate}
      (hresolve : Operator.resolve t.properties.contains name = (field, op))
      (hproperty : t.property? field = some property)
      (hrhs : Operand vars parameters x rhs)
      (hp : op.predicate property (.property entity field) rhs = .ok p) :
      Comparison t entity name x p

/-- An argument without a meaning of its own asks for one of several values,
or compares. -/
inductive Plain (t : EntityType) (entity name : String) (x : Value) : Predicate → Prop where
  | oneOf {singular : String} {e : Expression} (hplural : t.pluralOf? name = some singular)
      (hlist : x.IsListIn vars = true) (he : e.Denotes vars parameters x) :
      Plain t entity name x (.compare .member (.property entity singular) e)
  | comparison {p : Predicate} (hsingle : t.pluralOf? name = none ∨ x.IsListIn vars = false)
      (h : Comparison vars parameters t entity name x p) : Plain t entity name x p

-- ========================================================= all arguments

/-- What is asked before and after a further argument is taken into
account. -/
inductive Gathers (t : EntityType) (entity : String) :
    ScopeArguments.Gathered → String × Value → ScopeArguments.Gathered → Prop where
  | first {a : ScopeArguments} {conditions : List Predicate} {x : Value} {j : Json} {n : Int}
      (hj : x.StandsFor vars j) (hn : j.count "first" = .ok n) :
      Gathers t entity (a, conditions) ("first", x) ({ a with limit := some n }, conditions)
  | offset {a : ScopeArguments} {conditions : List Predicate} {x : Value} {j : Json} {n : Int}
      (hj : x.StandsFor vars j) (hn : j.count "offset" = .ok n) :
      Gathers t entity (a, conditions) ("offset", x) ({ a with skip := some n }, conditions)
  | orderBy {a : ScopeArguments} {conditions : List Predicate} {x : Value} {j : Json}
      {orderBy : List (String × SortOrder)} (hj : x.StandsFor vars j)
      (horder : t.orderings j = .ok orderBy) :
      Gathers t entity (a, conditions) ("orderBy", x) ({ a with orderBy }, conditions)
  | filter {a : ScopeArguments} {conditions : List Predicate} {x : Value} {j : Json}
      {p : Predicate} (hj : x.StandsFor vars j)
      (hp : j.filterPredicate catalog t entity = .ok p) :
      Gathers t entity (a, conditions) ("filter", x) (a, conditions ++ [p])
  | plain {a : ScopeArguments} {conditions : List Predicate} {name : String} {x : Value}
      {p : Predicate} (hname : name ∉ ["first", "offset", "orderBy", "filter"])
      (hp : Plain vars parameters t entity name x p) :
      Gathers t entity (a, conditions) (name, x) (a, conditions ++ [p])

/-- What is asked before and after a list of arguments. -/
inductive GathersAll (t : EntityType) (entity : String) :
    ScopeArguments.Gathered → List (String × Value) → ScopeArguments.Gathered → Prop where
  | nil {g : ScopeArguments.Gathered} : GathersAll t entity g [] g
  | cons {g g' g'' : ScopeArguments.Gathered} {argument : String × Value}
      {rest : List (String × Value)}
      (h : Gathers catalog vars parameters t entity g argument g')
      (hrest : GathersAll t entity g' rest g'') : GathersAll t entity g (argument :: rest) g''

/-- What the arguments of a field ask, those in `declared` left out: all their
conditions together. -/
inductive Arguments (t : EntityType) (entity : String) (declared : Dict DeclaredArgument)
    (arguments : Dict Value) : ScopeArguments → Prop where
  | intro {a : ScopeArguments} {conditions : List Predicate}
      (h : GathersAll catalog vars parameters t entity (.none, [])
        (arguments.filter fun (name, _) => !declared.contains name) (a, conditions)) :
      Arguments t entity declared arguments { a with condition := .all conditions }

end Outcome

-- ================================================================ success

namespace EntityType

variable {vars : Dict Json}

/-- What a comparison by an argument comes to. -/
theorem yields_comparisonArgument (t : EntityType) (entity name : String) (x : Value) :
    Yields vars (t.comparisonArgument entity name x)
      fun final p => Outcome.Comparison vars final t entity name x p := by
  unfold comparisonArgument
  generalize hresolve : Operator.resolve t.properties.contains name = resolved
  obtain ⟨field, op⟩ := resolved
  dsimp only
  cases hproperty : t.property? field with
  | none => exact .throw
  | some property =>
    have hlift (rhs : Option Expression) :
        Yields vars (liftM (op.predicate property (.property entity field) rhs))
          fun final p => Outcome.Operand vars final x rhs →
            Outcome.Comparison vars final t entity name x p :=
      (Yields.lift _).mono fun _ _ hp hrhs => .intro hresolve hproperty hrhs hp
    refine (Value.yields_isNull x).bind fun isNull => ?_
    cases isNull with
    | true =>
      exact (hlift none).mono fun final p hp hnull => hp (.null hnull.symm)
    | false =>
      rw [if_neg Bool.false_ne_true]
      have hrhs : Yields vars (some <$> x.expression) fun final rhs =>
          ∃ e, rhs = some e ∧ Expression.Denotes vars final x e :=
        (Value.yields_expression x).map fun _ e he => ⟨e, rfl, he⟩
      refine hrhs.bind fun rhs => (hlift rhs).mono ?_
      rintro final p hp ⟨e, rfl, he⟩ hnull
      exact hp (.given hnull.symm he)

/-- What a comparison by the plain name of a field comes to. -/
theorem yields_plainArgument (t : EntityType) (entity name : String) (x : Value) :
    Yields vars (t.plainArgument entity name x)
      fun final p => Outcome.Plain vars final t entity name x p := by
  unfold plainArgument
  have hcomparison : Yields vars _ _ := yields_comparisonArgument t entity name x
  cases hplural : t.pluralOf? name with
  | none => exact hcomparison.mono fun _ _ h => .comparison (.inl hplural) h
  | some singular =>
    refine (Value.yields_isList x).bind fun isList => ?_
    cases isList with
    | true =>
      refine (Value.yields_expression x).bind fun e => .pure fun final he hlist => ?_
      exact .oneOf hplural hlist.symm he
    | false =>
      rw [if_neg Bool.false_ne_true]
      exact hcomparison.mono fun _ _ h hlist => .comparison (.inr hlist.symm) h

end EntityType

namespace ScopeArguments

variable {vars : Dict Json} (catalog : Catalog) (t : EntityType) (entity : String)

/-- What one more argument adds to those gathered. -/
theorem yields_gather (g : Gathered) (argument : String × Value) :
    Yields vars (gather catalog t entity g argument)
      fun final g' => Outcome.Gathers catalog vars final t entity g argument g' := by
  obtain ⟨a, conditions⟩ := g
  obtain ⟨name, x⟩ := argument
  unfold gather
  dsimp only
  split
  · refine (yields_resolve x).bind fun j => (Yields.lift _).bind fun n => .pure fun _ hn hj => ?_
    exact .first hj hn
  · refine (yields_resolve x).bind fun j => (Yields.lift _).bind fun n => .pure fun _ hn hj => ?_
    exact .offset hj hn
  · refine (yields_resolve x).bind fun j => (Yields.lift _).bind fun orderBy =>
      .pure fun _ horder hj => ?_
    exact .orderBy hj horder
  · refine (yields_resolve x).bind fun j => (Yields.lift _).bind fun p => .pure fun _ hp hj => ?_
    exact .filter hj hp
  · next hfirst hoffset horder hfilter =>
    refine (t.yields_plainArgument entity name x).bind fun p => .pure fun _ hp => .plain ?_ hp
    simp only [List.mem_cons, List.not_mem_nil, or_false]
    rintro (h | h | h | h)
    · exact hfirst h
    · exact hoffset h
    · exact horder h
    · exact hfilter h

/-- What all arguments come to, by induction on them. -/
theorem yields_foldlM (arguments : List (String × Value)) (g : Gathered) :
    Yields vars (arguments.foldlM (gather catalog t entity) g)
      fun final g' => Outcome.GathersAll catalog vars final t entity g arguments g' := by
  induction arguments generalizing g with
  | nil =>
    rw [List.foldlM_nil]
    exact .pure fun _ => .nil
  | cons argument rest ih =>
    rw [List.foldlM_cons]
    refine (yields_gather catalog t entity g argument).bind fun g' => (ih g').mono ?_
    exact fun _ _ hrest h => .cons h hrest

/-- What is asked is what the arguments ask, in the order in which they
stand. -/
theorem yields_ofArguments (declared : Dict DeclaredArgument) (arguments : Dict Value) :
    Yields vars (ofArguments catalog t entity declared arguments)
      fun final a => Outcome.Arguments catalog vars final t entity declared arguments a := by
  unfold ofArguments
  refine (yields_foldlM catalog t entity _ _).bind fun g => ?_
  obtain ⟨a, conditions⟩ := g
  exact .pure fun _ h => .intro h

end ScopeArguments

-- ================================================= form of the conditions

namespace Outcome

variable {catalog : Catalog} {vars parameters : Dict Json} {t : EntityType} {entity : String}

/-- The condition of an argument compares properties of the entity with
expressions that denote data. -/
theorem Plain.filtering {name : String} {x : Value} {p : Predicate}
    (h : Plain vars parameters t entity name x p) :
    p.Filtering (Expression.Ground parameters) entity := by
  cases h with
  | oneOf _ _ he => exact .compare he.ground
  | comparison _ h =>
    obtain ⟨_, _, hrhs, hp⟩ := h
    refine Operator.filtering_predicate ?_ hp
    cases hrhs with
    | null => exact .literal
    | given _ he => exact he.ground

/-- One more argument adds conditions on the entity. -/
theorem Gathers.filtering {g g' : ScopeArguments.Gathered} {argument : String × Value}
    (h : Gathers catalog vars parameters t entity g argument g')
    (hg : ∀ p ∈ g.2, p.Filtering (Expression.Ground parameters) entity) :
    ∀ p ∈ g'.2, p.Filtering (Expression.Ground parameters) entity := by
  cases h with
  | first | offset | orderBy => exact hg
  | filter _ hp =>
    intro q hq
    rcases List.mem_append.mp hq with hq | hq
    · exact hg q hq
    · rw [List.mem_singleton.mp hq]
      exact Json.filtering_filterPredicate
        (fun _ => .literal) hp
  | plain _ hp =>
    intro q hq
    rcases List.mem_append.mp hq with hq | hq
    · exact hg q hq
    · rw [List.mem_singleton.mp hq]
      exact hp.filtering

/-- All that arguments ask for are conditions on the entity. -/
theorem GathersAll.filtering {g g' : ScopeArguments.Gathered}
    {arguments : List (String × Value)}
    (h : GathersAll catalog vars parameters t entity g arguments g')
    (hg : ∀ p ∈ g.2, p.Filtering (Expression.Ground parameters) entity) :
    ∀ p ∈ g'.2, p.Filtering (Expression.Ground parameters) entity := by
  induction h with
  | nil => exact hg
  | cons h _ ih => exact ih (h.filtering hg)

/-- All that is asked of the entities of a field is a condition on them. -/
theorem Arguments.filtering {declared : Dict DeclaredArgument} {arguments : Dict Value}
    {a : ScopeArguments} (h : Arguments catalog vars parameters t entity declared arguments a) :
    a.condition.Filtering (Expression.Ground parameters) entity := by
  obtain ⟨h⟩ := h
  exact .all (h.filtering (List.forall_mem_nil _))

end Outcome

end PropertyGraphQL
