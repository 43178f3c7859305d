/-
The parameters that a statement refers to.

The text of a statement refers to a parameter only where an expression in it
does. So if the clauses are closed with a property of parameters, every
parameter in the text has the property (`refersTo_lexemes`). For a
translation the property is that the parameter has a value, and what each
expression denotes under these values is said by the outcome.
-/
import PropertyGraphQL.Cypher.Writer
import PropertyGraphQL.Proofs.Scope.Statement

namespace PropertyGraphQL

namespace Cypher

-- ================================================================ lexemes

variable {P : String → Prop}

/-- The lexemes refer only to parameters with the property. -/
def RefersTo (P : String → Prop) (lexemes : List Lexeme) : Prop :=
  ∀ name, Lexeme.parameter name ∈ lexemes → P name

namespace RefersTo

variable {a b : List Lexeme}

theorem nil : RefersTo P [] :=
  fun _ h => absurd h List.not_mem_nil

/-- A text refers to such parameters if its parts do. -/
theorem append (ha : RefersTo P a) (hb : RefersTo P b) : RefersTo P (a ++ b) := by
  intro name hname
  rcases List.mem_append.mp hname with hname | hname
  · exact ha name hname
  · exact hb name hname

/-- A lexeme that is no parameter may stand in front. -/
theorem cons {l : Lexeme} (hl : l.parameter? = none) (h : RefersTo P a) :
    RefersTo P (l :: a) := by
  intro name hname
  rcases List.mem_cons.mp hname with rfl | hname
  · cases hl
  · exact h name hname

theorem plain (text : String) (h : RefersTo P a) : RefersTo P (.plain text :: a) :=
  h.cons rfl

theorem identifier (name : String) (h : RefersTo P a) : RefersTo P (.identifier name :: a) :=
  h.cons rfl

/-- Lexemes closed off by a piece of plain text. -/
theorem closed (h : RefersTo P a) (text : String) : RefersTo P (a ++ [.plain text]) :=
  h.append (nil.plain text)

/-- Texts with separators refer to such parameters if each of them does. -/
theorem separated {separator : String} {groups : List (List Lexeme)}
    (h : ∀ group ∈ groups, RefersTo P group) : RefersTo P (separated separator groups) := by
  induction groups with
  | nil => exact nil
  | cons group rest ih =>
    have hgroup := h group List.mem_cons_self
    have hrest := ih fun g hg => h g (List.mem_cons_of_mem group hg)
    cases rest with
    | nil => exact hgroup
    | cons next rest => exact hgroup.append (hrest.plain separator)

theorem parenthesized (needed : Bool) (h : RefersTo P a) :
    RefersTo P (parenthesized needed a) := by
  unfold Cypher.parenthesized
  split
  · exact (h.closed _).plain _
  · exact h

/-- A condition refers to such parameters, whether there is a keyword for it or not. -/
theorem whereLexemes (keyword : String) (condition : Predicate) (h : RefersTo P a) :
    RefersTo P (whereLexemes keyword condition a) := by
  unfold Cypher.whereLexemes
  split
  · exact nil
  · exact h.plain _

theorem entryLexemes (key : String) (h : RefersTo P a) : RefersTo P (entryLexemes key a) :=
  (h.plain _).identifier key

theorem binderLexemes (name? : Option String) : RefersTo P (binderLexemes name?) := by
  cases name? with
  | none => exact nil
  | some name => exact nil.identifier name

theorem boundLexemes (bound : Option Int) : RefersTo P (boundLexemes bound) := by
  cases bound with
  | none => exact nil
  | some n => exact nil.plain _

theorem labelLexemes (labels : List String) : RefersTo P (labelLexemes labels) := by
  induction labels with
  | nil => exact nil
  | cons label rest ih => exact ((nil.identifier label).plain ":").append ih

theorem relationship (r : RelationshipPattern) : RefersTo P r.lexemes := by
  unfold RelationshipPattern.lexemes
  exact ((binderLexemes r.binder).append (((nil.plain _).identifier _).plain _)).plain _

/-- A line of its own refers to such parameters, if anything is on it. -/
theorem onOwnLine {lexemes? : Option (List Lexeme)} (h : ∀ a ∈ lexemes?, RefersTo P a) :
    RefersTo P (onOwnLine lexemes?) := by
  cases lexemes? with
  | none => exact nil
  | some a => exact (h a rfl).plain _

end RefersTo

-- ============================================================== constants

namespace Literal

mutual

/-- Constants refer to no parameter. -/
theorem refersTo_lexemes (l : Literal) : RefersTo P l.lexemes := by
  cases l with
  | string s =>
    rw [lexemes]
    exact RefersTo.nil.cons rfl
  | list elems =>
    rw [lexemes]
    exact ((RefersTo.separated (refersTo_elemLexemes elems)).closed _).plain _
  | map entries =>
    rw [lexemes]
    exact ((RefersTo.separated (refersTo_entryListLexemes entries)).closed _).plain _
  | _ =>
    rw [lexemes]
    exact RefersTo.nil.plain _

/-- Literal elements refer to no parameters. -/
theorem refersTo_elemLexemes (elems : List Literal) :
    ∀ group ∈ elemLexemes elems, RefersTo P group := by
  match elems with
  | [] =>
    rw [elemLexemes]
    exact List.forall_mem_nil _
  | l :: rest =>
    rw [elemLexemes]
    exact List.forall_mem_cons.mpr ⟨refersTo_lexemes l, refersTo_elemLexemes rest⟩

/-- Literal entries refer to no parameters. -/
theorem refersTo_entryListLexemes (entries : List (String × Literal)) :
    ∀ group ∈ entryListLexemes entries, RefersTo P group := by
  match entries with
  | [] =>
    rw [entryListLexemes]
    exact List.forall_mem_nil _
  | (key, l) :: rest =>
    rw [entryListLexemes]
    exact List.forall_mem_cons.mpr
      ⟨(refersTo_lexemes l).entryLexemes key, refersTo_entryListLexemes rest⟩

end

end Literal

-- ============================================================ expressions

mutual

/-- The text of a closed expression refers to parameters with the property
alone. -/
theorem Expression.refersTo_lexemes {scope : List String} {e : Expression}
    (h : e.ClosedIn P scope) : RefersTo P e.lexemes := by
  cases e with
  | literal l => exact l.refersTo_lexemes
  | parameter name =>
    -- the one lexeme that refers to a parameter
    intro other hother
    rw [Expression.lexemes, List.mem_singleton] at hother
    cases hother
    exact h
  | var name => exact RefersTo.nil.identifier name
  | property owner key =>
    exact ((RefersTo.nil.identifier key).plain _).identifier owner
  | call function args =>
    exact (((RefersTo.separated (Expression.refersTo_listLexemes h)).closed _).plain _).plain _
  | map entries =>
    exact ((RefersTo.separated (Expression.refersTo_entriesLexemes h)).closed _).plain _
  | projection owner items =>
    have hitems := MapItem.refersTo_listLexemes h.2
    exact (((RefersTo.separated hitems).closed _).plain _).identifier _
  | list elems =>
    exact ((RefersTo.separated (Expression.refersTo_listLexemes h)).closed _).plain _
  | patternComprehension pattern condition result =>
    have hpattern := Pattern.refersTo_lexemes h.1
    have hcondition := Predicate.refersTo_lexemes h.2.1
    have hresult := Expression.refersTo_lexemes h.2.2
    exact (((hpattern.append (hcondition.whereLexemes _ condition)).append
      (hresult.plain _)).closed _).plain _
  | listComprehension binder source condition result =>
    have hsource := Expression.refersTo_lexemes h.1
    have hcondition := Predicate.refersTo_lexemes h.2.1
    have hresult := Expression.refersTo_resultLexemes h.2.2
    exact (((((hsource.plain _).identifier _).append
      (hcondition.whereLexemes _ condition)).append hresult).closed _).plain _
  | slice source lower upper =>
    have hsource := Expression.refersTo_lexemes (e := source) h
    have hlower := RefersTo.boundLexemes (P := P) lower
    have hupper := RefersTo.boundLexemes (P := P) upper
    exact ((hsource.append (hlower.plain _)).append (hupper.plain _)).closed _
  | conditional condition yes no =>
    have hcondition := Predicate.refersTo_lexemes h.1
    have hyes := Expression.refersTo_lexemes h.2.1
    have hno := Expression.refersTo_lexemes h.2.2
    exact (((hcondition.append (hyes.plain _)).append (hno.plain _)).closed _).plain _
  | countAll => exact RefersTo.nil.plain _

/-- Expressions that are closed refer to parameters that may be used. -/
theorem Expression.refersTo_listLexemes {scope : List String} {es : List Expression}
    (h : Expression.AllClosedIn P scope es) :
    ∀ group ∈ Expression.listLexemes es, RefersTo P group := by
  cases es with
  | nil => exact List.forall_mem_nil _
  | cons e rest =>
    rw [Expression.listLexemes]
    exact List.forall_mem_cons.mpr
      ⟨Expression.refersTo_lexemes h.1, Expression.refersTo_listLexemes h.2⟩

/-- Entries that are closed refer to parameters that may be used. -/
theorem Expression.refersTo_entriesLexemes {scope : List String}
    {entries : List (String × Expression)} (h : Expression.EntriesClosedIn P scope entries) :
    ∀ group ∈ Expression.entriesLexemes entries, RefersTo P group := by
  match entries with
  | [] => exact List.forall_mem_nil _
  | (key, e) :: rest =>
    rw [Expression.entriesLexemes]
    exact List.forall_mem_cons.mpr
      ⟨(Expression.refersTo_lexemes h.1).entryLexemes key, Expression.refersTo_entriesLexemes h.2⟩

/-- The result of a comprehension refers to parameters that may be used, if there is one. -/
theorem Expression.refersTo_resultLexemes {scope : List String} {result : Option Expression}
    (h : Expression.ResultClosedIn P scope result) :
    RefersTo P (Expression.resultLexemes result) := by
  cases result with
  | none => exact RefersTo.nil
  | some e => exact (Expression.refersTo_lexemes (e := e) h).plain _

/-- Items that are closed refer to parameters that may be used. -/
theorem MapItem.refersTo_lexemes {scope : List String} {item : MapItem}
    (h : item.ClosedIn P scope) : RefersTo P item.lexemes := by
  cases item with
  | property key => exact (RefersTo.nil.identifier key).plain _
  | entry key value => exact (Expression.refersTo_lexemes (e := value) h).entryLexemes key

theorem MapItem.refersTo_listLexemes {scope : List String} {items : List MapItem}
    (h : MapItem.AllClosedIn P scope items) :
    ∀ group ∈ MapItem.listLexemes items, RefersTo P group := by
  cases items with
  | nil => exact List.forall_mem_nil _
  | cons item rest =>
    rw [MapItem.listLexemes]
    exact List.forall_mem_cons.mpr
      ⟨MapItem.refersTo_lexemes h.1, MapItem.refersTo_listLexemes h.2⟩

/-- Nodes that are closed refer to parameters that may be used. -/
theorem NodePattern.refersTo_lexemes {scope : List String} {node : NodePattern}
    (h : node.ClosedIn P scope) : RefersTo P node.lexemes := by
  obtain ⟨binder, labels, properties⟩ := node
  have hclosed : Expression.EntriesClosedIn P scope properties := h
  have hproperties := Expression.refersTo_entriesLexemes hclosed
  rw [NodePattern.lexemes]
  refine ((((RefersTo.binderLexemes binder).append (RefersTo.labelLexemes labels)).append
    ?_).closed _).plain _
  split
  · exact RefersTo.nil
  · exact ((RefersTo.separated hproperties).closed _).plain _

/-- Hops that are closed refer to parameters that may be used. -/
theorem NodePattern.refersTo_hopsLexemes {scope : List String}
    {hops : List (RelationshipPattern × NodePattern)} (h : NodePattern.HopsClosedIn P scope hops) :
    RefersTo P (NodePattern.hopsLexemes hops) := by
  match hops with
  | [] => exact RefersTo.nil
  | (r, node) :: rest =>
    rw [NodePattern.hopsLexemes]
    exact ((RefersTo.relationship r).append (NodePattern.refersTo_lexemes h.1)).append
      (NodePattern.refersTo_hopsLexemes h.2)

/-- Patterns that are closed refer to parameters that may be used. -/
theorem Pattern.refersTo_lexemes {scope : List String} {pattern : Pattern}
    (h : pattern.ClosedIn P scope) : RefersTo P pattern.lexemes := by
  obtain ⟨start, hops⟩ := pattern
  rw [Pattern.lexemes]
  exact (NodePattern.refersTo_lexemes h.2.1).append (NodePattern.refersTo_hopsLexemes h.2.2)

/-- Conditions that are closed refer to parameters that may be used. -/
theorem Predicate.refersTo_lexemes {scope : List String} {p : Predicate}
    (h : p.ClosedIn P scope) : RefersTo P p.lexemes := by
  cases p with
  | always | never => exact RefersTo.nil.plain _
  | compare comparison lhs rhs =>
    exact (Expression.refersTo_lexemes h.1).append
      ((((Expression.refersTo_lexemes h.2).plain _).plain _).plain _)
  | isNull subject | isNotNull subject =>
    exact (Expression.refersTo_lexemes (e := subject) h).closed _
  | quantified quantifier binder source condition =>
    have hsource := Expression.refersTo_lexemes h.1
    have hcondition := Predicate.refersTo_lexemes h.2
    exact ((((((hsource.append (hcondition.plain _)).closed _).plain _).identifier _).plain
      _).plain _)
  | conj lhs rhs | disj lhs rhs =>
    exact ((Predicate.refersTo_lexemes h.1).parenthesized _).append
      (((Predicate.refersTo_lexemes h.2).parenthesized _).plain _)
  | neg inner => exact ((Predicate.refersTo_lexemes (p := inner) h).closed _).plain _

end

-- ================================================================= clauses

/-- Columns that are closed refer to parameters that may be used. -/
theorem ReturnItem.refersTo_lexemes {scope : List String} {item : ReturnItem}
    (h : item.expression.ClosedIn P scope) : RefersTo P item.lexemes := by
  unfold ReturnItem.lexemes
  split
  · exact (Expression.refersTo_lexemes h).append ((RefersTo.nil.identifier _).plain _)
  · exact Expression.refersTo_lexemes h

theorem refersTo_itemsLexemes {scope : List String} {items : List ReturnItem}
    (h : ∀ item ∈ items, item.expression.ClosedIn P scope) :
    RefersTo P (itemsLexemes items) := by
  refine RefersTo.separated fun group hgroup => ?_
  obtain ⟨item, hitem, rfl⟩ := List.mem_map.mp hgroup
  exact ReturnItem.refersTo_lexemes (h item hitem)

/-- An order that is closed refers to parameters that may be used. -/
theorem OrderBy.refersTo_lexemes {scope : List String} {orderBy : Option OrderBy}
    (h : OrderBy.ClosedIn P scope orderBy) :
    RefersTo P (onOwnLine (orderBy.map OrderBy.lexemes)) := by
  refine RefersTo.onOwnLine fun a ha => ?_
  obtain ⟨keys, hkeys, rfl⟩ := Option.map_eq_some_iff.mp ha
  refine (RefersTo.separated fun group hgroup => ?_).plain _
  obtain ⟨⟨e, ordering⟩, hkey, rfl⟩ := List.mem_map.mp hgroup
  exact (Expression.refersTo_lexemes (h keys hkeys _ hkey)).append
    ((RefersTo.nil.plain _).plain _)

/-- What is set refers to parameters that may be used. -/
theorem SetItem.refersTo_lexemes {scope : List String} {item : SetItem}
    (h : item.ClosedIn P scope) : RefersTo P item.lexemes := by
  cases item with
  | replace target value | merge target value =>
    exact ((Expression.refersTo_lexemes h.2).plain _).identifier _
  | labels target names => exact (RefersTo.labelLexemes names).identifier _

/-- The text of a closed clause refers to parameters with the property
alone. -/
theorem Clause.refersTo_lexemes {scope : List String} {clause : Clause}
    (h : clause.ClosedIn P scope) : RefersTo P clause.lexemes := by
  have hnumber : ∀ (keyword : String) (n? : Option Int), RefersTo P
      (onOwnLine (n?.map fun n => [.plain keyword, .plain (Json.integerText n)])) := by
    intro keyword n?
    refine RefersTo.onOwnLine fun a ha => ?_
    obtain ⟨n, -, rfl⟩ := Option.map_eq_some_iff.mp ha
    exact (RefersTo.nil.plain _).plain _
  cases clause with
  | matching pattern optional condition =>
    exact ((Pattern.refersTo_lexemes h.1).plain _).append
      ((Predicate.refersTo_lexemes h.2).whereLexemes _ condition)
  | withItems items orderBy =>
    exact ((refersTo_itemsLexemes h.1).plain _).append (OrderBy.refersTo_lexemes h.2)
  | unwind source binder =>
    exact ((Expression.refersTo_lexemes (e := source) h).plain _).append
      ((RefersTo.nil.identifier _).plain _)
  | create pattern =>
    have hpattern : pattern.ClosedIn P scope := h
    exact (Pattern.refersTo_lexemes hpattern).plain _
  | merge pattern => exact (Pattern.refersTo_lexemes h.1).plain _
  | set items =>
    refine (RefersTo.separated fun group hgroup => ?_).plain _
    obtain ⟨item, hitem, rfl⟩ := List.mem_map.mp hgroup
    exact SetItem.refersTo_lexemes (h item hitem)
  | delete targets detach =>
    refine (RefersTo.separated fun group hgroup => ?_).plain _
    obtain ⟨target, -, rfl⟩ := List.mem_map.mp hgroup
    exact RefersTo.nil.identifier target
  | returnItems items orderBy skip limit =>
    exact ((((refersTo_itemsLexemes h.1).plain _).append (OrderBy.refersTo_lexemes h.2)).append
      (hnumber _ skip)).append (hnumber _ limit)

/-- Clauses that are closed one after the other refer to parameters that may be used. -/
theorem Clause.refersTo_of_allClosedIn {scope : List String} {clauses : List Clause}
    (h : Clause.AllClosedIn P scope clauses) :
    ∀ group ∈ clauses.map Clause.lexemes, RefersTo P group := by
  induction clauses generalizing scope with
  | nil => exact List.forall_mem_nil _
  | cons clause rest ih =>
    exact List.forall_mem_cons.mpr ⟨Clause.refersTo_lexemes h.1, ih h.2⟩

/-- Every parameter that a closed statement refers to has the property. -/
theorem Statement.parameters_of_closed {s : Statement}
    (h : Clause.AllClosedIn P [] s.clauses) : ∀ name ∈ s.parameters, P name := by
  have hclauses : RefersTo P (separated "\n" (s.clauses.map Clause.lexemes)) :=
    RefersTo.separated (Clause.refersTo_of_allClosedIn h)
  have hall : RefersTo P s.lexemes := by
    unfold Statement.lexemes
    cases s.report with
    | none => exact hclauses
    | some report => exact hclauses.plain report.text
  intro name hname
  unfold Statement.parameters parametersOf at hname
  obtain ⟨l, hl, hparameter⟩ := List.mem_filterMap.mp (List.mem_eraseDups.mp hname)
  cases l with
  | parameter other =>
    cases hparameter
    exact hall name hl
  | _ => cases hparameter

end Cypher

-- ============================================================ translations

open Cypher

namespace Compiler

variable {c : Compiler} {vars : Dict Json} {f : RootField}

/-- Parameters keep their meaning over a translation. Every parameter in the
statement has a value, and under the values returned with it the clauses
are what the field comes to: an expression made from a value denotes what
the value stands for, and a parameter bound for a generated value has that
value, whatever else was bound before and behind. -/
theorem parameters_of_translates {purpose : Purpose} {compiled : Compiled}
    (h : c.Translates f vars purpose compiled) :
    ∃ s, compiled.body = .clauses s
      ∧ (∀ name ∈ s.parameters, name ∈ compiled.parameters.keys)
      ∧ Outcome.Clauses c vars compiled.parameters f purpose s.clauses := by
  obtain ⟨clauses, hbody, hclauses⟩ := clauses_of_translates h
  exact ⟨_, hbody, Statement.parameters_of_closed hclauses.closedIn, hclauses⟩

/-- The parameters of the staged statement for people and their movies. -/
theorem parameters_people :
    ∃ compiled s, (Compiler.movies .staged).Translates .people RootField.peopleVars
        (.select .person) compiled
      ∧ compiled.body = .clauses s
      ∧ (∀ name ∈ s.parameters, name ∈ compiled.parameters.keys)
      ∧ Outcome.Clauses (Compiler.movies .staged) RootField.peopleVars compiled.parameters
        .people (.select .person) s.clauses := by
  obtain ⟨compiled, h⟩ := translates_people .staged
  obtain ⟨s, hbody, hparameters, hclauses⟩ := parameters_of_translates h
  exact ⟨compiled, s, h, hbody, hparameters, hclauses⟩

end Compiler

end PropertyGraphQL
