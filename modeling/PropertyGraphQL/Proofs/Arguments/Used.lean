/-
What becomes of the arguments of one field.

The arguments of a field for entities are gathered one after the other, and
none undoes what another asked: a condition stays among the conditions, and the
number, the first place and the order are each set by the one argument of that
name (`GathersAll.asked`). A statement takes the arguments that are declared with
it and hands each on under its name (`Call.passed`). So wherever planning a field
leads to entities or runs a statement, all arguments of the field are used, or it
fails (`Field.used`). A field that is read off the node takes neither way, and
nothing is said of its arguments.
-/
import PropertyGraphQL.Proofs.Data.Dict
import PropertyGraphQL.Proofs.Selection.Reads

namespace PropertyGraphQL

open Cypher

/-- What is read for a field is not read off the node: the field leads to entities or
has a statement. -/
def Collected.Leads (catalog : Catalog) (f : Collected) : Prop :=
  f.statement? ≠ none ∨ f.traversed? catalog ≠ none

namespace Outcome

variable (catalog : Catalog) (c : Compiler) (vars parameters : Dict Json)

-- ============================================================= definitions

/-- An argument is used in what is asked of entities: as their number, as the place
of the first of them, as their order, or as one of the conditions on them. -/
inductive Asked (t : EntityType) (entity : String) (a : ScopeArguments)
    (conditions : List Predicate) : String × Value → Prop where
  | first {x : Value} {j : Json} {n : Int} (hj : x.StandsFor vars j)
      (hn : j.count "first" = .ok n) (ha : a.limit = some n) :
      Asked t entity a conditions ("first", x)
  | offset {x : Value} {j : Json} {n : Int} (hj : x.StandsFor vars j)
      (hn : j.count "offset" = .ok n) (ha : a.skip = some n) :
      Asked t entity a conditions ("offset", x)
  | orderBy {x : Value} {j : Json} (hj : x.StandsFor vars j)
      (horder : t.orderings j = .ok a.orderBy) : Asked t entity a conditions ("orderBy", x)
  | filter {x : Value} {j : Json} {p : Predicate} (hj : x.StandsFor vars j)
      (hp : j.filterPredicate catalog t entity = .ok p) (hmem : p ∈ conditions) :
      Asked t entity a conditions ("filter", x)
  | plain {name : String} {x : Value} {p : Predicate}
      (hname : name ∉ ["first", "offset", "orderBy", "filter"])
      (hp : Plain vars parameters t entity name x p) (hmem : p ∈ conditions) :
      Asked t entity a conditions (name, x)

/-- An argument is handed on to a statement under its name. -/
inductive Passed (custom : CustomStatement) (argument : String × Value) : Expression → Prop where
  | call {entries : List (String × Expression)} {list : Bool} {e : Expression}
      (hmem : (argument.1, e) ∈ entries) (he : e.Denotes vars parameters argument.2) :
      Passed custom argument (.call c.options.runFunction
        [.literal (.string custom.statement), .map entries, .literal (.boolean list)])
  | head {e : Expression} (h : Passed custom argument e) : Passed custom argument e.head

/-- An argument of a field is used in what is read for it: it is handed on to the
statement that gives the result or the list of entities, or is asked of them. -/
inductive Used (f : Collected) : Plan → String × Value → Prop where
  | result {custom : CustomStatement} {declared : Dict DeclaredArgument} {e : Expression}
      {argument : String × Value} (hstatement : f.statement? = some (custom, declared))
      (hdeclared : declared.contains argument.1 = true)
      (h : Passed c vars parameters custom argument e) : Used f (.value e) argument
  | source {custom : CustomStatement} {declared : Dict DeclaredArgument} {e : Expression}
      {traversal : Traversal} {below : List (String × Plan)} {argument : String × Value}
      (hstatement : f.statement? = some (custom, declared))
      (hdeclared : declared.contains argument.1 = true) (hsource : traversal.source = some e)
      (h : Passed c vars parameters custom argument e) :
      Used f (.traversal traversal below) argument
  | asked {target : EntityType} {traversal : Traversal} {below : List (String × Plan)}
      {conditions : List Predicate} {argument : String × Value}
      (htarget : f.traversed? c.catalog = some target)
      (hcondition : traversal.arguments.condition = .all conditions)
      (h : Asked c.catalog vars parameters target traversal.entity traversal.arguments
        conditions argument) :
      Used f (.traversal traversal below) argument

-- =============================================================== gathering

variable {catalog vars parameters} {t : EntityType} {entity : String}

/-- An argument without a meaning of its own is a condition. -/
theorem Asked.exists_plain {a : ScopeArguments} {conditions : List Predicate}
    {argument : String × Value}
    (h : Asked catalog vars parameters t entity a conditions argument)
    (hname : argument.1 ∉ ["first", "offset", "orderBy", "filter"]) :
    ∃ p ∈ conditions, Plain vars parameters t entity argument.1 argument.2 p := by
  cases h with
  | plain _ hp hmem => exact ⟨_, hmem, hp⟩
  | _ => exact absurd (by simp) hname

/-- The argument that is taken into account is used. -/
theorem Gathers.asked {g g' : ScopeArguments.Gathered} {argument : String × Value}
    (h : Gathers catalog vars parameters t entity g argument g') :
    Asked catalog vars parameters t entity g'.1 g'.2 argument := by
  cases h with
  | first hj hn => exact .first hj hn rfl
  | offset hj hn => exact .offset hj hn rfl
  | orderBy hj horder => exact .orderBy hj horder
  | filter hj hp => exact .filter hj hp (List.mem_append_right _ List.mem_cons_self)
  | plain hname hp => exact .plain hname hp (List.mem_append_right _ List.mem_cons_self)

/-- What another argument does not set stays, and so do all conditions. -/
theorem Gathers.keeps {g g' : ScopeArguments.Gathered} {other : String × Value}
    (h : Gathers catalog vars parameters t entity g other g') :
    (other.1 ≠ "first" → g'.1.limit = g.1.limit) ∧ (other.1 ≠ "offset" → g'.1.skip = g.1.skip)
      ∧ (other.1 ≠ "orderBy" → g'.1.orderBy = g.1.orderBy) ∧ g.2 ⊆ g'.2 := by
  cases h with
  | first => exact ⟨fun h => absurd rfl h, fun _ => rfl, fun _ => rfl, List.Subset.refl _⟩
  | offset => exact ⟨fun _ => rfl, fun h => absurd rfl h, fun _ => rfl, List.Subset.refl _⟩
  | orderBy => exact ⟨fun _ => rfl, fun _ => rfl, fun h => absurd rfl h, List.Subset.refl _⟩
  | filter | plain =>
    exact ⟨fun _ => rfl, fun _ => rfl, fun _ => rfl, List.subset_append_left _ _⟩

/-- An argument that is used stays so when one with another name is taken into
account. -/
theorem Asked.gathers {g g' : ScopeArguments.Gathered} {argument other : String × Value}
    (hasked : Asked catalog vars parameters t entity g.1 g.2 argument)
    (h : Gathers catalog vars parameters t entity g other g') (hname : other.1 ≠ argument.1) :
    Asked catalog vars parameters t entity g'.1 g'.2 argument := by
  obtain ⟨hlimit, hskip, horder, hconditions⟩ := h.keeps
  cases hasked with
  | first hj hn ha => exact .first hj hn ((hlimit hname).trans ha)
  | offset hj hn ha => exact .offset hj hn ((hskip hname).trans ha)
  | orderBy hj ha => exact .orderBy hj ((horder hname).symm ▸ ha)
  | filter hj hp hmem => exact .filter hj hp (hconditions hmem)
  | plain hplain hp hmem => exact .plain hplain hp (hconditions hmem)

/-- What an argument asks for is still asked for when others have been gathered, none of which
has its name. -/
theorem Asked.gathersAll {g g' : ScopeArguments.Gathered} {argument : String × Value}
    {others : List (String × Value)}
    (hasked : Asked catalog vars parameters t entity g.1 g.2 argument)
    (h : GathersAll catalog vars parameters t entity g others g')
    (hname : argument.1 ∉ Dict.keys others) :
    Asked catalog vars parameters t entity g'.1 g'.2 argument := by
  induction h with
  | nil => exact hasked
  | cons hother _ ih =>
    obtain ⟨hfirst, hrest⟩ := not_or.mp (mt List.mem_cons.mpr hname)
    exact ih (hasked.gathers hother (Ne.symm hfirst)) hrest

/-- Of arguments with distinct names all are used. -/
theorem GathersAll.asked {g g' : ScopeArguments.Gathered} {arguments : List (String × Value)}
    (h : GathersAll catalog vars parameters t entity g arguments g')
    (hkeys : (Dict.keys arguments).Nodup) :
    ∀ argument ∈ arguments, Asked catalog vars parameters t entity g'.1 g'.2 argument := by
  induction h with
  | nil => exact List.forall_mem_nil _
  | cons hfirst hrest ih =>
    obtain ⟨hname, hnodup⟩ := List.nodup_cons.mp hkeys
    exact List.forall_mem_cons.mpr ⟨hfirst.asked.gathersAll hrest hname, ih hnodup⟩

/-- All arguments but the declared ones are used in what is asked of entities. -/
theorem Arguments.asked {declared : Dict DeclaredArgument} {arguments : Dict Value}
    {a : ScopeArguments} (h : Arguments catalog vars parameters t entity declared arguments a)
    (hkeys : arguments.keys.Nodup) :
    ∃ conditions, a.condition = .all conditions
      ∧ ∀ argument ∈ arguments, declared.contains argument.1 = false →
        Asked catalog vars parameters t entity a conditions argument := by
  obtain @⟨_, conditions, hgathers⟩ := h
  refine ⟨conditions, rfl, fun argument hargument hdeclared => ?_⟩
  have hasked := hgathers.asked (hkeys.sublist (List.filter_sublist.map Prod.fst)) argument
    (List.mem_filter.mpr ⟨hargument, by simp [hdeclared]⟩)
  cases hasked with
  | first hj hn ha => exact .first hj hn ha
  | offset hj hn ha => exact .offset hj hn ha
  | orderBy hj ha => exact .orderBy hj ha
  | filter hj hp hmem => exact .filter hj hp hmem
  | plain hplain hp hmem => exact .plain hplain hp hmem

-- ============================================================== statements

variable {c}

/-- A given argument that is declared is handed on as what denotes it. -/
theorem Declared.denotes {head : FieldHead} {name : String} {declared : DeclaredArgument}
    {e : Expression} {x : Value} (h : Declared vars parameters head name declared e)
    (hx : head.arguments.get? name = some x) : e.Denotes vars parameters x := by
  cases h with
  | given hx' he =>
    cases hx'.symm.trans hx
    exact he
  | default hx' | missing hx' =>
    rw [hx] at hx'
    cases hx'

/-- The call of a statement hands on every argument that is declared. -/
theorem Call.passed {custom : CustomStatement} {declared : Dict DeclaredArgument}
    {head : FieldHead} {this : String} {list : Bool} {e : Expression}
    (h : Call c vars parameters custom declared head this list e)
    (hkeys : head.arguments.keys.Nodup) {argument : String × Value}
    (hargument : argument ∈ head.arguments) (hdeclared : declared.contains argument.1 = true) :
    Passed c vars parameters custom argument e := by
  obtain @⟨given, hgiven⟩ := h
  have hx := (Dict.get?_eq_some_iff hkeys).mpr hargument
  obtain ⟨entry, hentry, hname⟩ := List.mem_map.mp (Dict.contains_iff.mp hdeclared)
  have hmem : ∃ e, (argument.1, e) ∈ given ∧ e.Denotes vars parameters argument.2 := by
    clear hdeclared
    induction hgiven with
    | nil => cases hentry
    | @cons d g _ given hfirst _ ih =>
      rcases List.mem_cons.mp hentry with rfl | hentry
      · obtain ⟨hgname, hg⟩ := hfirst
        rw [hname] at hgname hg
        exact ⟨g.2, hgname ▸ List.mem_cons_self, hg.denotes hx⟩
      · obtain ⟨e, hmem, he⟩ := ih hentry
        exact ⟨e, List.mem_cons_of_mem _ hmem, he⟩
  obtain ⟨e, hmem, he⟩ := hmem
  exact .call (List.mem_append_right _ hmem) he

-- ================================================================== fields

variable {f : Collected} {read : Expression ⊕ Traversal × EntityType}

/-- What is read for a field, with what is read below it. -/
def readPlan (read : Expression ⊕ Traversal × EntityType) (below : List (String × Plan)) : Plan :=
  read.elim .value fun t => .traversal t.1 below

/-- The arguments of a computed property are used in its statement. -/
theorem Property.used {property : PropertyField} {e : Expression}
    (h : Property c vars parameters f property entity e) (hproperty : f.property? = some property)
    (hkeys : f.head.arguments.keys.Nodup) (hstatement : f.statement? ≠ none) :
    ∀ argument ∈ f.head.arguments, Used c vars parameters f (.value e) argument := by
  have hsome := Collected.statement?_of_property hproperty
  cases h with
  | stored hcustom =>
    rw [hcustom] at hsome
    exact absurd hsome hstatement
  | computed hcustom hdeclared hcall =>
    rw [hcustom] at hsome
    intro argument hargument
    have hname := hdeclared argument.1 (List.mem_map_of_mem hargument)
    have hpassed := hcall.passed hkeys hargument hname
    refine .result hsome hname ?_
    split
    · exact hpassed
    · exact .head hpassed

/-- The arguments of a relationship are used in its statement or by its traversal. -/
theorem Relationship.used {r : RelationshipField}
    (h : Relationship c vars parameters f r entity read) (hr : f.relationship? = some r)
    (hkeys : f.head.arguments.keys.Nodup) (below : List (String × Plan)) :
    ∀ argument ∈ f.head.arguments, Used c vars parameters f (readPlan read below) argument := by
  have hsome := Collected.statement?_of_relationship hr
  have htraversed := h.traversed? hr
  intro argument hargument
  cases h with
  | plain htarget hcustom ha =>
    obtain ⟨conditions, hcondition, hasked⟩ := ha.asked hkeys
    exact .asked htraversed hcondition (hasked argument hargument rfl)
  | passThrough htarget hcustom hpass hdeclared hcall =>
    rw [hcustom] at hsome
    have hname := hdeclared argument.1 (List.mem_map_of_mem hargument)
    exact .result hsome hname (hcall.passed hkeys hargument hname)
  | listed htarget hcustom hpass hsource ha =>
    rw [hcustom] at hsome
    obtain ⟨conditions, hcondition, hasked⟩ := ha.asked hkeys
    cases hname : Dict.contains r.arguments argument.1 with
    | true => exact .source hsome hname rfl (hsource.passed hkeys hargument hname)
    | false => exact .asked htraversed hcondition (hasked argument hargument hname)

/-- All arguments of a field that is not read off the node are used in what is read for
it. -/
theorem Field.used (h : Field c vars parameters f entity read)
    (hkeys : f.head.arguments.keys.Nodup) (hleads : f.Leads c.catalog)
    (below : List (String × Plan)) :
    ∀ argument ∈ f.head.arguments, Used c vars parameters f (readPlan read below) argument := by
  have hnode (hname : f.head.name ∈ ["_id", "_labels", "__typename"]) : False := by
    simp [Collected.Leads, Collected.statement?, Collected.property?, Collected.traversed?,
      Collected.relationship?, hname] at hleads
  cases h with
  | id hname | labels hname | typeName hname => exact (hnode (by simp [hname])).elim
  | property hname hproperty h =>
    have hnone : f.relationship? = none := by
      simp [Collected.relationship?, hproperty]
    refine h.used (Collected.property?_eq_some_iff.mpr ⟨hname, hproperty⟩) hkeys ?_
    simpa [Collected.Leads, Collected.traversed?, hnone] using hleads
  | relationship hname hproperty hr h =>
    exact h.used (Collected.relationship?_eq_some_iff.mpr ⟨hname, hproperty, hr⟩) hkeys below

end Outcome

end PropertyGraphQL
