/-
The value of an expression, and the truth of a predicate, on a graph.

A variable stands for what the environment binds it to. A pattern is
matched by walking from its start over its relationships, each used once
at most; what is bound already has to agree. A comprehension and a
quantifier bind their variable for every element anew.

With the law that inequality is the negation of equality, the truth of
predicates is a valuation (`Database.valuation`), so all the simplifying
connectives keep it.
-/
import PropertyGraphQL.Proofs.Semantics.Graph
import PropertyGraphQL.Proofs.Semantics.Valuation

namespace PropertyGraphQL.Cypher

-- ======================================================= environments

/-- What the variables in scope are bound to. -/
abbrev Environment := String → Option Datum

namespace Environment

/-- No variable is bound. -/
def unbound : Environment := fun _ => none

/-- The environment with a variable bound to a value. -/
def bind (env : Environment) (name : String) (d : Datum) : Environment :=
  fun other => if other = name then some d else env other

/-- The environment with a value bound if it has a name. -/
def bind? (env : Environment) (name : Option String) (d : Datum) : Environment :=
  name.elim env (env.bind · d)

/-- The value of a variable. -/
def value (env : Environment) (name : String) : Datum := (env name).getD .null

/-- Whether a name may stand for an entity: it is not bound yet, or bound to
that entity. -/
def admits (env : Environment) (name : Option String) (isEntity : Datum → Bool) : Bool :=
  ((name.bind env).map isEntity).getD true

theorem bind_self (env : Environment) (name : String) (d : Datum) :
    env.bind name d name = some d := by
  unfold bind
  exact if_pos rfl

/-- Other variables keep what they are bound to. -/
theorem bind_other (env : Environment) {name other : String} (h : other ≠ name)
    (d : Datum) : env.bind name d other = env other := by
  unfold bind
  exact if_neg h

end Environment

/-- The nodes that a pattern may start from: the one that its first name is
bound to, or any. -/
def Graph.starts (g : Graph) (env : Environment) (name : Option String) : List Nat :=
  match name.bind env with
  | none => g.nodes
  | some (.node n) => [n]
  | some _ => []

-- ========================================================= evaluation

variable (db : Database)

mutual

/-- The value of an expression. The number of rows is no value of a row. -/
def Expression.eval (env : Environment) : Expression → Datum
  | .literal value => .ofLiteral value
  | .parameter name => db.parameter name
  | .var name => env.value name
  | .property owner key => db.graph.propertyOf (env.value owner) key
  | .call function args => db.call function (Expression.evalList env args)
  | .map entries => .map (Expression.evalEntries env entries)
  | .projection owner items =>
      if (env.value owner).isNull then .null
      else .map (MapItem.evalList env (env.value owner) items)
  | .list elems => .list (Expression.evalList env elems)
  | .patternComprehension pattern condition result =>
      .list (((Pattern.matchings env pattern).filter fun env =>
        Predicate.eval env condition = .yes).map fun env => Expression.eval env result)
  | .listComprehension binder source condition result =>
      .list (((Expression.eval env source).elements.filter fun d =>
        Predicate.eval (env.bind binder d) condition = .yes).map fun d =>
          Expression.evalResult (env.bind binder d) d result)
  | .slice source lower upper => (Expression.eval env source).sliced lower upper
  | .conditional condition yes no =>
      if Predicate.eval env condition = .yes then Expression.eval env yes
      else Expression.eval env no
  | .countAll => .null

/-- The value of the result of a list comprehension: without one, the
element. -/
def Expression.evalResult (env : Environment) (element : Datum) : Option Expression → Datum
  | none => element
  | some e => Expression.eval env e

def Expression.evalList (env : Environment) : List Expression → List Datum
  | [] => []
  | e :: rest => Expression.eval env e :: Expression.evalList env rest

def Expression.evalEntries (env : Environment) :
    List (String × Expression) → List (String × Datum)
  | [] => []
  | (k, e) :: rest => (k, Expression.eval env e) :: Expression.evalEntries env rest

/-- An entry of the projection of an entity. -/
def MapItem.eval (env : Environment) (owner : Datum) : MapItem → String × Datum
  | .property key => (key, db.graph.propertyOf owner key)
  | .entry key value => (key, Expression.eval env value)

def MapItem.evalList (env : Environment) (owner : Datum) :
    List MapItem → List (String × Datum)
  | [] => []
  | item :: rest => MapItem.eval env owner item :: MapItem.evalList env owner rest

/-- Whether a node matches a node pattern. -/
def NodePattern.matchedBy (env : Environment) (node : Nat) : NodePattern → Bool
  | ⟨name, labels, properties⟩ =>
      env.admits name (Datum.isNode node)
        && labels.all (fun label => label ∈ db.graph.labels node)
        && (Expression.evalEntries env properties).all fun (key, d) =>
          db.compare .eq (db.graph.property node key) d = .yes

/-- The environments in which a path goes on from a node, none of its
relationships being among those used before. -/
def NodePattern.walks (env : Environment) (node : Nat) (used : List Nat) :
    List (RelationshipPattern × NodePattern) → List Environment
  | [] => [env]
  | (r, ⟨name, labels, properties⟩) :: rest =>
      ((db.graph.steps r.relType r.direction node).filter fun (id, other) =>
        !used.contains id && env.admits r.binder (Datum.isRelationship id)
          && NodePattern.matchedBy env other ⟨name, labels, properties⟩).flatMap
        fun (id, other) =>
          NodePattern.walks ((env.bind? r.binder (.relationship id)).bind? name (.node other))
            other (id :: used) rest

/-- The environments in which a pattern is matched. -/
def Pattern.matchings (env : Environment) : Pattern → List Environment
  | ⟨⟨name, labels, properties⟩, hops⟩ =>
      ((db.graph.starts env name).filter fun n =>
        NodePattern.matchedBy env n ⟨name, labels, properties⟩).flatMap fun n =>
          NodePattern.walks (env.bind? name (.node n)) n [] hops

/-- The truth of a predicate. A quantifier over what is no list is
unknown. -/
def Predicate.eval (env : Environment) : Predicate → Truth
  | .always => .yes
  | .never => .no
  | .compare comparison lhs rhs =>
      db.compare comparison (Expression.eval env lhs) (Expression.eval env rhs)
  | .isNull subject => .ofBool (Expression.eval env subject).isNull
  | .isNotNull subject => .ofBool !(Expression.eval env subject).isNull
  | .quantified quantifier binder source condition =>
      match Expression.eval env source with
      | .list elems =>
          quantifier.truth (elems.map fun d => Predicate.eval (env.bind binder d) condition)
      | _ => .unknown
  | .conj lhs rhs => (Predicate.eval env lhs).and (Predicate.eval env rhs)
  | .disj lhs rhs => (Predicate.eval env lhs).or (Predicate.eval env rhs)
  | .neg inner => (Predicate.eval env inner).not

end

variable {db}

/-- In every environment the truth of predicates is a valuation. -/
theorem Database.valuation (lawful : db.Lawful) (env : Environment) :
    Valuation (Predicate.eval db env) where
  always := rfl
  never := rfl
  conj p q := by rw [Predicate.eval]
  disj p q := by rw [Predicate.eval]
  neg p := by rw [Predicate.eval]
  neq a b := by rw [Predicate.eval, Predicate.eval, lawful.neq]
  isNotNull e := by
    rw [Predicate.eval, Predicate.eval]
    cases (Expression.eval db env e).isNull with
    | true => rfl
    | false => rfl
  none x e p := by
    rw [Predicate.eval, Predicate.eval]
    cases Expression.eval db env e with
    | list elems => rfl
    | _ => rfl

end PropertyGraphQL.Cypher
