/-
One tree for all that are written alike.

Two things about a tree leave no trace in its text: how conjunctions that
stand directly in one another are grouped, and disjunctions likewise; and
whether a list or map of constants is itself a constant. The canonical form
groups to the right and takes lists and maps apart into their members. It is
written like the tree itself (`Predicate.lexemes_canonical`), and it changes
no value and no truth (`Predicate.eval_canonical`).
-/
import PropertyGraphQL.Cypher.Writer
import PropertyGraphQL.Proofs.Semantics.Evaluation

namespace PropertyGraphQL.Cypher

-- ============================================================== grouping

namespace Predicate

/-- The conjunction of two predicates that are grouped to the right. -/
def conjoin : Predicate → Predicate → Predicate
  | .conj a b, q => .conj a (conjoin b q)
  | p, q => .conj p q

/-- The disjunction of two predicates that are grouped to the right. -/
def disjoin : Predicate → Predicate → Predicate
  | .disj a b, q => .disj a (disjoin b q)
  | p, q => .disj p q

/-- Conjunctions that are regrouped to the left are so in whatever order they are joined. -/
theorem conjoin_assoc (p q r : Predicate) : conjoin (conjoin p q) r = conjoin p (conjoin q r) := by
  fun_induction conjoin p q with
  | case1 q a b ih => rw [conjoin, conjoin, ih]
  | case2 p q hp => rw [conjoin, conjoin.eq_2 p _ hp]

/-- Alternatives that are regrouped to the left are so in whatever order they are joined. -/
theorem disjoin_assoc (p q r : Predicate) : disjoin (disjoin p q) r = disjoin p (disjoin q r) := by
  fun_induction disjoin p q with
  | case1 q a b ih => rw [disjoin, disjoin, ih]
  | case2 p q hp => rw [disjoin, disjoin.eq_2 p _ hp]

end Predicate

-- ========================================================= canonical form

namespace Literal

mutual

/-- The constant, taken apart into its members if it has any. -/
def canonical : Literal → Expression
  | .list elems => .list (elemCanonicals elems)
  | .map entries => .map (entryCanonicals entries)
  | other => .literal other

def elemCanonicals : List Literal → List Expression
  | [] => []
  | l :: rest => canonical l :: elemCanonicals rest

def entryCanonicals : List (String × Literal) → List (String × Expression)
  | [] => []
  | (k, l) :: rest => (k, canonical l) :: entryCanonicals rest

end

end Literal

mutual

/-- The expression with constant lists and maps taken apart and all
conditions grouped to the right. -/
def Expression.canonical : Expression → Expression
  | .literal value => value.canonical
  | .parameter name => .parameter name
  | .var name => .var name
  | .property owner key => .property owner key
  | .call function args => .call function (Expression.listCanonicals args)
  | .map entries => .map (Expression.entriesCanonicals entries)
  | .projection owner items => .projection owner (MapItem.listCanonicals items)
  | .list elems => .list (Expression.listCanonicals elems)
  | .patternComprehension pattern condition result =>
      .patternComprehension (Pattern.canonical pattern) (Predicate.canonical condition)
        (Expression.canonical result)
  | .listComprehension binder source condition result =>
      .listComprehension binder (Expression.canonical source) (Predicate.canonical condition)
        (Expression.resultCanonical result)
  | .slice source lower upper => .slice (Expression.canonical source) lower upper
  | .conditional condition yes no =>
      .conditional (Predicate.canonical condition) (Expression.canonical yes)
        (Expression.canonical no)
  | .countAll => .countAll

def Expression.resultCanonical : Option Expression → Option Expression
  | none => none
  | some e => some (Expression.canonical e)

def Expression.listCanonicals : List Expression → List Expression
  | [] => []
  | e :: rest => Expression.canonical e :: Expression.listCanonicals rest

def Expression.entriesCanonicals : List (String × Expression) → List (String × Expression)
  | [] => []
  | (key, e) :: rest => (key, Expression.canonical e) :: Expression.entriesCanonicals rest

def MapItem.canonical : MapItem → MapItem
  | .property key => .property key
  | .entry key value => .entry key (Expression.canonical value)

def MapItem.listCanonicals : List MapItem → List MapItem
  | [] => []
  | item :: rest => MapItem.canonical item :: MapItem.listCanonicals rest

def NodePattern.canonical : NodePattern → NodePattern
  | ⟨binder, labels, properties⟩ =>
      ⟨binder, labels, Expression.entriesCanonicals properties⟩

def NodePattern.hopsCanonicals :
    List (RelationshipPattern × NodePattern) → List (RelationshipPattern × NodePattern)
  | [] => []
  | (relationship, node) :: rest =>
      (relationship, NodePattern.canonical node) :: NodePattern.hopsCanonicals rest

def Pattern.canonical : Pattern → Pattern
  | ⟨start, hops⟩ => ⟨NodePattern.canonical start, NodePattern.hopsCanonicals hops⟩

/-- The predicate with conjunctions and disjunctions grouped to the right,
and its expressions canonical. -/
def Predicate.canonical : Predicate → Predicate
  | .always => .always
  | .never => .never
  | .compare comparison lhs rhs =>
      .compare comparison (Expression.canonical lhs) (Expression.canonical rhs)
  | .isNull subject => .isNull (Expression.canonical subject)
  | .isNotNull subject => .isNotNull (Expression.canonical subject)
  | .quantified quantifier binder source condition =>
      .quantified quantifier binder (Expression.canonical source) (Predicate.canonical condition)
  | .conj lhs rhs => (Predicate.canonical lhs).conjoin (Predicate.canonical rhs)
  | .disj lhs rhs => (Predicate.canonical lhs).disjoin (Predicate.canonical rhs)
  | .neg inner => .neg (Predicate.canonical inner)

end

-- ==================================================================== text

namespace Predicate

theorem looseInOr_conjoin (p q : Predicate) : (p.conjoin q).looseInOr = true := by
  cases p <;> rfl

theorem looseInAnd_conjoin (p q : Predicate) : (p.conjoin q).looseInAnd = false := by
  cases p <;> rfl

theorem looseInAnd_disjoin (p q : Predicate) : (p.disjoin q).looseInAnd = true := by
  cases p <;> rfl

theorem looseInOr_disjoin (p q : Predicate) : (p.disjoin q).looseInOr = false := by
  cases p <;> rfl

/-- Regrouping does not change whether there are parentheses inside `AND`. -/
theorem looseInAnd_canonical (p : Predicate) : p.canonical.looseInAnd = p.looseInAnd := by
  cases p with
  | conj lhs rhs =>
    rw [Predicate.canonical]
    exact looseInAnd_conjoin _ _
  | disj lhs rhs =>
    rw [Predicate.canonical]
    exact looseInAnd_disjoin _ _
  | _ => rfl

/-- Regrouping does not change whether there are parentheses inside `OR`. -/
theorem looseInOr_canonical (p : Predicate) : p.canonical.looseInOr = p.looseInOr := by
  cases p with
  | conj lhs rhs =>
    rw [Predicate.canonical]
    exact looseInOr_conjoin _ _
  | disj lhs rhs =>
    rw [Predicate.canonical]
    exact looseInOr_disjoin _ _
  | _ => rfl

/-- Regrouping does not change whether there is a condition at all. -/
theorem isAlways_canonical (p : Predicate) : p.canonical.isAlways = p.isAlways := by
  cases p with
  | conj lhs rhs =>
    rw [Predicate.canonical]
    cases lhs.canonical <;> rfl
  | disj lhs rhs =>
    rw [Predicate.canonical]
    cases lhs.canonical <;> rfl
  | _ => rfl

/-- How a conjunction is grouped leaves no trace in its lexemes. -/
theorem lexemes_conjoin (p q : Predicate) : (p.conjoin q).lexemes = (conj p q).lexemes := by
  fun_induction conjoin p q with
  | case1 q a b ih =>
    rw [Predicate.lexemes, ih, looseInAnd_conjoin, Predicate.lexemes, Predicate.lexemes]
    show _ ++ _ :: (_ ++ _ :: _) = (_ ++ _ :: _) ++ _ :: _
    rw [List.append_assoc, List.cons_append]
  | case2 p q hp => rfl

/-- Alternatives are written alike however they are grouped. -/
theorem lexemes_disjoin (p q : Predicate) : (p.disjoin q).lexemes = (disj p q).lexemes := by
  fun_induction disjoin p q with
  | case1 q a b ih =>
    rw [Predicate.lexemes, ih, looseInOr_disjoin, Predicate.lexemes, Predicate.lexemes]
    show _ ++ _ :: (_ ++ _ :: _) = (_ ++ _ :: _) ++ _ :: _
    rw [List.append_assoc, List.cons_append]
  | case2 p q hp => rfl

end Predicate

namespace Literal

mutual

/-- A literal that is taken apart is written alike. -/
theorem lexemes_canonical (l : Literal) : l.canonical.lexemes = l.lexemes := by
  cases l with
  | list elems => rw [canonical, Expression.lexemes, lexemes, listLexemes_elemCanonicals elems]
  | map entries =>
    rw [canonical, Expression.lexemes, lexemes, entriesLexemes_entryCanonicals entries]
  | null | boolean _ | int _ | float _ | string _ => rfl

/-- Literal elements that are taken apart are written alike. -/
theorem listLexemes_elemCanonicals (elems : List Literal) :
    Expression.listLexemes (elemCanonicals elems) = elemLexemes elems := by
  match elems with
  | [] => rfl
  | l :: rest =>
    rw [elemCanonicals, Expression.listLexemes, elemLexemes, lexemes_canonical l,
      listLexemes_elemCanonicals rest]

/-- Literal entries that are taken apart are written alike. -/
theorem entriesLexemes_entryCanonicals (entries : List (String × Literal)) :
    Expression.entriesLexemes (entryCanonicals entries) = entryListLexemes entries := by
  match entries with
  | [] => rfl
  | (k, l) :: rest =>
    rw [entryCanonicals, Expression.entriesLexemes, entryListLexemes, lexemes_canonical l,
      entriesLexemes_entryCanonicals rest]

end

end Literal

mutual

/-- The canonical form of an expression is written like it. -/
theorem Expression.lexemes_canonical (e : Expression) : e.canonical.lexemes = e.lexemes := by
  cases e with
  | literal l => exact l.lexemes_canonical
  | parameter _ | var _ | property _ _ | countAll => rfl
  | call function args =>
    rw [Expression.canonical, Expression.lexemes, Expression.lexemes,
      Expression.listLexemes_canonicals args]
  | map entries =>
    rw [Expression.canonical, Expression.lexemes, Expression.lexemes,
      Expression.entriesLexemes_canonicals entries]
  | projection owner items =>
    rw [Expression.canonical, Expression.lexemes, Expression.lexemes,
      MapItem.listLexemes_canonicals items]
  | list elems =>
    rw [Expression.canonical, Expression.lexemes, Expression.lexemes,
      Expression.listLexemes_canonicals elems]
  -- a condition is left out if it always holds, which its canonical form does not change
  | patternComprehension pattern condition result =>
    rw [Expression.canonical, Expression.lexemes, Expression.lexemes,
      Pattern.lexemes_canonical pattern, Predicate.lexemes_canonical condition,
      Expression.lexemes_canonical result, whereLexemes, whereLexemes,
      condition.isAlways_canonical]
  | listComprehension binder source condition result =>
    rw [Expression.canonical, Expression.lexemes, Expression.lexemes,
      Expression.lexemes_canonical source, Predicate.lexemes_canonical condition,
      Expression.resultLexemes_canonical result, whereLexemes, whereLexemes,
      condition.isAlways_canonical]
  | slice source lower upper =>
    rw [Expression.canonical, Expression.lexemes, Expression.lexemes,
      Expression.lexemes_canonical source]
  | conditional condition yes no =>
    rw [Expression.canonical, Expression.lexemes, Expression.lexemes,
      Predicate.lexemes_canonical condition, Expression.lexemes_canonical yes,
      Expression.lexemes_canonical no]

/-- The canonical form of a result is written alike. -/
theorem Expression.resultLexemes_canonical (result : Option Expression) :
    Expression.resultLexemes (Expression.resultCanonical result)
      = Expression.resultLexemes result := by
  cases result with
  | none => rfl
  | some e =>
    rw [Expression.resultCanonical, Expression.resultLexemes, Expression.resultLexemes,
      Expression.lexemes_canonical e]

/-- The canonical forms of expressions are written alike. -/
theorem Expression.listLexemes_canonicals (es : List Expression) :
    Expression.listLexemes (Expression.listCanonicals es) = Expression.listLexemes es := by
  match es with
  | [] => rfl
  | e :: rest =>
    rw [Expression.listCanonicals, Expression.listLexemes, Expression.listLexemes,
      Expression.lexemes_canonical e, Expression.listLexemes_canonicals rest]

/-- The canonical forms of entries are written alike. -/
theorem Expression.entriesLexemes_canonicals (entries : List (String × Expression)) :
    Expression.entriesLexemes (Expression.entriesCanonicals entries)
      = Expression.entriesLexemes entries := by
  match entries with
  | [] => rfl
  | (key, e) :: rest =>
    rw [Expression.entriesCanonicals, Expression.entriesLexemes, Expression.entriesLexemes,
      Expression.lexemes_canonical e, Expression.entriesLexemes_canonicals rest]

/-- The canonical form of an item is written alike. -/
theorem MapItem.lexemes_canonical (item : MapItem) : item.canonical.lexemes = item.lexemes := by
  cases item with
  | property key => rfl
  | entry key value =>
    rw [MapItem.canonical, MapItem.lexemes, MapItem.lexemes, Expression.lexemes_canonical value]

theorem MapItem.listLexemes_canonicals (items : List MapItem) :
    MapItem.listLexemes (MapItem.listCanonicals items) = MapItem.listLexemes items := by
  match items with
  | [] => rfl
  | item :: rest =>
    rw [MapItem.listCanonicals, MapItem.listLexemes, MapItem.listLexemes,
      MapItem.lexemes_canonical item, MapItem.listLexemes_canonicals rest]

/-- The canonical form of a node is written alike. -/
theorem NodePattern.lexemes_canonical (node : NodePattern) :
    node.canonical.lexemes = node.lexemes := by
  obtain ⟨binder, labels, properties⟩ := node
  have hempty : (Expression.entriesCanonicals properties).isEmpty = properties.isEmpty := by
    cases properties <;> rfl
  rw [NodePattern.canonical, NodePattern.lexemes, NodePattern.lexemes, hempty,
    Expression.entriesLexemes_canonicals properties]

theorem NodePattern.hopsLexemes_canonicals (hops : List (RelationshipPattern × NodePattern)) :
    NodePattern.hopsLexemes (NodePattern.hopsCanonicals hops) = NodePattern.hopsLexemes hops := by
  match hops with
  | [] => rfl
  | (r, node) :: rest =>
    rw [NodePattern.hopsCanonicals, NodePattern.hopsLexemes, NodePattern.hopsLexemes,
      NodePattern.lexemes_canonical node, NodePattern.hopsLexemes_canonicals rest]

/-- The canonical form of a pattern is written alike. -/
theorem Pattern.lexemes_canonical (pattern : Pattern) :
    pattern.canonical.lexemes = pattern.lexemes := by
  obtain ⟨start, hops⟩ := pattern
  rw [Pattern.canonical, Pattern.lexemes, Pattern.lexemes, NodePattern.lexemes_canonical start,
    NodePattern.hopsLexemes_canonicals hops]

/-- The canonical form of a predicate is written like it. -/
theorem Predicate.lexemes_canonical (p : Predicate) : p.canonical.lexemes = p.lexemes := by
  cases p with
  | always | never => rfl
  | compare comparison lhs rhs =>
    rw [Predicate.canonical, Predicate.lexemes, Predicate.lexemes,
      Expression.lexemes_canonical lhs, Expression.lexemes_canonical rhs]
  | isNull subject | isNotNull subject =>
    rw [Predicate.canonical, Predicate.lexemes, Predicate.lexemes,
      Expression.lexemes_canonical subject]
  | quantified quantifier binder source condition =>
    rw [Predicate.canonical, Predicate.lexemes, Predicate.lexemes,
      Expression.lexemes_canonical source, Predicate.lexemes_canonical condition]
  | conj lhs rhs =>
    rw [Predicate.canonical, Predicate.lexemes_conjoin, Predicate.lexemes, Predicate.lexemes,
      lhs.looseInAnd_canonical, rhs.looseInAnd_canonical, Predicate.lexemes_canonical lhs,
      Predicate.lexemes_canonical rhs]
  | disj lhs rhs =>
    rw [Predicate.canonical, Predicate.lexemes_disjoin, Predicate.lexemes, Predicate.lexemes,
      lhs.looseInOr_canonical, rhs.looseInOr_canonical, Predicate.lexemes_canonical lhs,
      Predicate.lexemes_canonical rhs]
  | neg inner =>
    rw [Predicate.canonical, Predicate.lexemes, Predicate.lexemes,
      Predicate.lexemes_canonical inner]

end

-- ================================================================ meaning

variable {db : Database}

/-- Regrouping a conjunction keeps its truth. -/
theorem Predicate.eval_conjoin (env : Environment) (p q : Predicate) :
    (p.conjoin q).eval db env = (p.eval db env).and (q.eval db env) := by
  fun_induction Predicate.conjoin p q with
  | case1 q a b ih =>
    rw [Predicate.eval, ih, Predicate.eval, Truth.and_assoc]
  | case2 p q hp => rw [Predicate.eval]

/-- Regrouping alternatives keeps their truth. -/
theorem Predicate.eval_disjoin (env : Environment) (p q : Predicate) :
    (p.disjoin q).eval db env = (p.eval db env).or (q.eval db env) := by
  fun_induction Predicate.disjoin p q with
  | case1 q a b ih =>
    rw [Predicate.eval, ih, Predicate.eval, Truth.or_assoc]
  | case2 p q hp => rw [Predicate.eval]

namespace Literal

mutual

/-- A literal that is taken apart has its value. -/
theorem eval_canonical (env : Environment) (l : Literal) :
    l.canonical.eval db env = .ofLiteral l := by
  cases l with
  | list elems =>
    rw [canonical, Expression.eval, Datum.ofLiteral, evalList_elemCanonicals env elems]
  | map entries =>
    rw [canonical, Expression.eval, Datum.ofLiteral, evalEntries_entryCanonicals env entries]
  | null | boolean _ | int _ | float _ | string _ => rfl

/-- Literal elements that are taken apart have their values. -/
theorem evalList_elemCanonicals (env : Environment) (elems : List Literal) :
    Expression.evalList db env (elemCanonicals elems) = Datum.ofElems elems := by
  match elems with
  | [] => rfl
  | l :: rest =>
    rw [elemCanonicals, Expression.evalList, Datum.ofElems, eval_canonical env l,
      evalList_elemCanonicals env rest]

/-- Literal entries that are taken apart have their values. -/
theorem evalEntries_entryCanonicals (env : Environment) (entries : List (String × Literal)) :
    Expression.evalEntries db env (entryCanonicals entries) = Datum.ofEntries entries := by
  match entries with
  | [] => rfl
  | (k, l) :: rest =>
    rw [entryCanonicals, Expression.evalEntries, Datum.ofEntries, eval_canonical env l,
      evalEntries_entryCanonicals env rest]

end

end Literal

mutual

/-- The canonical form of an expression has its value. -/
theorem Expression.eval_canonical (env : Environment) (e : Expression) :
    e.canonical.eval db env = e.eval db env := by
  cases e with
  | literal value => exact value.eval_canonical env
  | parameter _ | var _ | property _ _ | countAll => rfl
  | call function args =>
    rw [Expression.canonical, Expression.eval, Expression.eval,
      Expression.evalList_canonicals env args]
  | map entries =>
    rw [Expression.canonical, Expression.eval, Expression.eval,
      Expression.evalEntries_canonicals env entries]
  | projection owner items =>
    rw [Expression.canonical, Expression.eval, Expression.eval,
      MapItem.evalList_canonicals env _ items]
  | list elems =>
    rw [Expression.canonical, Expression.eval, Expression.eval,
      Expression.evalList_canonicals env elems]
  | patternComprehension pattern condition result =>
    -- the parts are read in other environments than this one
    have hcondition := fun env => Predicate.eval_canonical env condition
    have hresult := fun env => Expression.eval_canonical env result
    rw [Expression.canonical, Expression.eval, Expression.eval,
      Pattern.matchings_canonical env pattern]
    simp only [hcondition, hresult]
  | listComprehension binder source condition result =>
    have hcondition := fun env => Predicate.eval_canonical env condition
    have hresult := fun env d => Expression.evalResult_canonical env d result
    rw [Expression.canonical, Expression.eval, Expression.eval,
      Expression.eval_canonical env source]
    simp only [hcondition, hresult]
  | slice source lower upper =>
    rw [Expression.canonical, Expression.eval, Expression.eval,
      Expression.eval_canonical env source]
  | conditional condition yes no =>
    rw [Expression.canonical, Expression.eval, Expression.eval,
      Predicate.eval_canonical env condition, Expression.eval_canonical env yes,
      Expression.eval_canonical env no]

/-- The canonical form of a result has its value. -/
theorem Expression.evalResult_canonical (env : Environment) (element : Datum)
    (result : Option Expression) :
    Expression.evalResult db env element (Expression.resultCanonical result)
      = Expression.evalResult db env element result := by
  cases result with
  | none => rfl
  | some e =>
    rw [Expression.resultCanonical, Expression.evalResult, Expression.evalResult,
      Expression.eval_canonical env e]

/-- The canonical forms of expressions have their values. -/
theorem Expression.evalList_canonicals (env : Environment) (es : List Expression) :
    Expression.evalList db env (Expression.listCanonicals es)
      = Expression.evalList db env es := by
  match es with
  | [] => rfl
  | e :: rest =>
    rw [Expression.listCanonicals, Expression.evalList, Expression.evalList,
      Expression.eval_canonical env e, Expression.evalList_canonicals env rest]

/-- The canonical forms of entries have their values. -/
theorem Expression.evalEntries_canonicals (env : Environment)
    (entries : List (String × Expression)) :
    Expression.evalEntries db env (Expression.entriesCanonicals entries)
      = Expression.evalEntries db env entries := by
  match entries with
  | [] => rfl
  | (key, e) :: rest =>
    rw [Expression.entriesCanonicals, Expression.evalEntries, Expression.evalEntries,
      Expression.eval_canonical env e, Expression.evalEntries_canonicals env rest]

/-- The canonical form of an item has its value. -/
theorem MapItem.eval_canonical (env : Environment) (owner : Datum) (item : MapItem) :
    item.canonical.eval db env owner = item.eval db env owner := by
  cases item with
  | property key => rfl
  | entry key value =>
    rw [MapItem.canonical, MapItem.eval, MapItem.eval, Expression.eval_canonical env value]

theorem MapItem.evalList_canonicals (env : Environment) (owner : Datum) (items : List MapItem) :
    MapItem.evalList db env owner (MapItem.listCanonicals items)
      = MapItem.evalList db env owner items := by
  match items with
  | [] => rfl
  | item :: rest =>
    rw [MapItem.listCanonicals, MapItem.evalList, MapItem.evalList,
      MapItem.eval_canonical env owner item, MapItem.evalList_canonicals env owner rest]

/-- The canonical form of a node is matched by the same nodes. -/
theorem NodePattern.matchedBy_canonical (env : Environment) (id : Nat) (node : NodePattern) :
    node.canonical.matchedBy db env id = node.matchedBy db env id := by
  obtain ⟨binder, labels, properties⟩ := node
  rw [NodePattern.canonical, NodePattern.matchedBy, NodePattern.matchedBy,
    Expression.evalEntries_canonicals env properties]

/-- The canonical forms of hops are walked in the same ways. -/
theorem NodePattern.walks_canonicals (env : Environment) (id : Nat) (used : List Nat)
    (hops : List (RelationshipPattern × NodePattern)) :
    NodePattern.walks db env id used (NodePattern.hopsCanonicals hops)
      = NodePattern.walks db env id used hops := by
  match hops with
  | [] => rfl
  | (r, ⟨name, labels, properties⟩) :: rest =>
    have hnode := fun env id =>
      NodePattern.matchedBy_canonical env id ⟨name, labels, properties⟩
    have hrest := fun env id used => NodePattern.walks_canonicals env id used rest
    rw [NodePattern.hopsCanonicals, NodePattern.canonical, NodePattern.walks, NodePattern.walks]
    simp only [NodePattern.canonical] at hnode
    simp only [hnode, hrest]

/-- The canonical form of a pattern is matched in the same ways. -/
theorem Pattern.matchings_canonical (env : Environment) (pattern : Pattern) :
    pattern.canonical.matchings db env = pattern.matchings db env := by
  obtain ⟨⟨name, labels, properties⟩, hops⟩ := pattern
  have hnode := fun env id =>
    NodePattern.matchedBy_canonical env id ⟨name, labels, properties⟩
  have hhops := fun env id used => NodePattern.walks_canonicals env id used hops
  rw [Pattern.canonical, NodePattern.canonical, Pattern.matchings, Pattern.matchings]
  simp only [NodePattern.canonical] at hnode
  simp only [hnode, hhops]

/-- The canonical form of a predicate has its truth. -/
theorem Predicate.eval_canonical (env : Environment) (p : Predicate) :
    p.canonical.eval db env = p.eval db env := by
  cases p with
  | always | never => rfl
  | compare comparison lhs rhs =>
    rw [Predicate.canonical, Predicate.eval, Predicate.eval, Expression.eval_canonical env lhs,
      Expression.eval_canonical env rhs]
  | isNull subject | isNotNull subject =>
    rw [Predicate.canonical, Predicate.eval, Predicate.eval,
      Expression.eval_canonical env subject]
  | quantified quantifier binder source condition =>
    have hcondition := fun env => Predicate.eval_canonical env condition
    rw [Predicate.canonical, Predicate.eval, Predicate.eval,
      Expression.eval_canonical env source]
    simp only [hcondition]
  | conj lhs rhs =>
    rw [Predicate.canonical, Predicate.eval_conjoin, Predicate.eval,
      Predicate.eval_canonical env lhs, Predicate.eval_canonical env rhs]
  | disj lhs rhs =>
    rw [Predicate.canonical, Predicate.eval_disjoin, Predicate.eval,
      Predicate.eval_canonical env lhs, Predicate.eval_canonical env rhs]
  | neg inner =>
    rw [Predicate.canonical, Predicate.eval, Predicate.eval, Predicate.eval_canonical env inner]

end

end PropertyGraphQL.Cypher
