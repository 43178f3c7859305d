/-
Writing out an operation does what the walk over its expansion does.

`WrittenOut` is what the document says itself: excluded selections are left
out, and a kept spread is a fragment with the condition and the selections
of its definition. It has no fuel and no list of open fragments. `Walked`
ties a result to it and to the walk: a result without error is what is
written out, and the walk gets through; an error is the offence at which
the walk stops.

The induction over the selections (`walked_lowerAll`) takes the expansion
of a spread as it comes and asks only that it is walked too (`Follows`).
That `expandFragment` is so (`follows_expandFragment`) is the induction over
the fuel, and it rests on the room that is left: the open fragments are
distinct and all defined, so there is fuel for every fragment that is not
open, and the fuel never runs out.
-/
import PropertyGraphQL.Proofs.Request.Walk

namespace PropertyGraphQL

/-- The selections as they are written out. -/
inductive WrittenOut (fragments : Dict FragmentDefinition) (values : String → Option Json) :
    List Selected → List Selection → Prop
  | nil : WrittenOut fragments values [] []
  | excluded {s : Selected} {rest : List Selected} {out : List Selection}
      (h : Directive.Excluded values s.directives)
      (hrest : WrittenOut fragments values rest out) : WrittenOut fragments values (s :: rest) out
  | field {name : String} {rename : Option String} {arguments : List (String × Value)}
      {directives : List Directive} {selections rest : List Selected}
      {inside out : List Selection} (hkept : Directive.Kept values directives)
      (hinside : WrittenOut fragments values selections inside)
      (hrest : WrittenOut fragments values rest out) :
      WrittenOut fragments values (.field name rename arguments directives selections :: rest)
        (.field (Selected.head name rename arguments directives) inside :: out)
  | fragment {condition : Option String} {directives : List Directive}
      {selections rest : List Selected} {inside out : List Selection}
      (hkept : Directive.Kept values directives)
      (hinside : WrittenOut fragments values selections inside)
      (hrest : WrittenOut fragments values rest out) :
      WrittenOut fragments values (.fragment condition directives selections :: rest)
        (.fragment condition inside :: out)
  | spread {name : String} {directives : List Directive} {place : Position}
      {definition : FragmentDefinition} {rest : List Selected} {inside out : List Selection}
      (hkept : Directive.Kept values directives) (hget : fragments.get? name = some definition)
      (hinside : WrittenOut fragments values definition.selections inside)
      (hrest : WrittenOut fragments values rest out) :
      WrittenOut fragments values (.spread name directives place :: rest)
        (.fragment (some definition.condition) inside :: out)

/-- The result for selections inside the fragments `within` is that of the walk. -/
inductive Walked (fragments : Dict FragmentDefinition) (values : String → Option Json)
    (within : List String) (selections : List Selected) :
    Except DocumentError (List Selection) → Prop
  | through {out : List Selection} (hout : WrittenOut fragments values selections out)
      (hreaches : Reaches fragments values (Visit.all within selections) []) :
      Walked fragments values within selections (.ok out)
  | stopped {v : Visit} {e : DocumentError}
      (hmet : Met fragments values (Visit.all within selections) v)
      (hoffends : v.Offends fragments values e) :
      Walked fragments values within selections (.error e)

-- ======================================================== what is written out

/-- Selections are written out one after the other. -/
theorem WrittenOut.append {fragments : Dict FragmentDefinition} {values : String → Option Json}
    {before after : List Selected} {out behind : List Selection}
    (h : WrittenOut fragments values before out)
    (hafter : WrittenOut fragments values after behind) :
    WrittenOut fragments values (before ++ after) (out ++ behind) := by
  induction h with
  | nil => exact hafter
  | excluded h _ ih => exact .excluded h ih
  | field hkept hinside _ _ ih => exact .field hkept hinside ih
  | fragment hkept hinside _ _ ih => exact .fragment hkept hinside ih
  | spread hkept hget hinside _ _ ih => exact .spread hkept hget hinside ih

-- ======================================================== lowering one selection

namespace Selected

variable {vars : Dict Json} {expand : Expansion}

/-- What is excluded is written out as nothing. -/
theorem lower_of_excluded {s : Selected} (h : Directive.Excluded vars.get? s.directives) :
    lower vars expand s = .ok [] := by
  have hkeep := Directive.keep_of_excluded h
  cases s with
  | field | fragment | spread =>
    rw [directives] at hkeep
    rw [lower, hkeep]
    rfl

/-- What is misstated is not written out. -/
theorem lower_of_misstated {s : Selected} {e : DocumentError}
    (h : Directive.Misstated vars.get? s.directives e) : lower vars expand s = .error e := by
  have hkeep := Directive.keep_of_misstated h
  cases s with
  | field | fragment | spread =>
    rw [directives] at hkeep
    rw [lower, hkeep]
    rfl

/-- A field is written out with the selections below it. -/
theorem lower_field_of_kept {name : String} {rename : Option String}
    {arguments : List (String × Value)} {directives : List Directive} {selections : List Selected}
    (h : Directive.Kept vars.get? directives) :
    lower vars expand (.field name rename arguments directives selections)
      = (lowerAll vars expand selections).map
          fun out => [.field (head name rename arguments directives) out] := by
  rw [lower, Directive.keep_of_kept h]
  cases lowerAll vars expand selections <;> rfl

/-- An inline fragment is written out with the selections in it. -/
theorem lower_fragment_of_kept {condition : Option String} {directives : List Directive}
    {selections : List Selected} (h : Directive.Kept vars.get? directives) :
    lower vars expand (.fragment condition directives selections)
      = (lowerAll vars expand selections).map fun out => [.fragment condition out] := by
  rw [lower, Directive.keep_of_kept h]
  cases lowerAll vars expand selections <;> rfl

/-- A spread is written out as its fragment. -/
theorem lower_spread_of_kept {name : String} {directives : List Directive} {place : Position}
    (h : Directive.Kept vars.get? directives) :
    lower vars expand (.spread name directives place) = (expand name place).map fun s => [s] := by
  rw [lower, Directive.keep_of_kept h]
  cases expand name place <;> rfl

end Selected

section

variable {fragments : Dict FragmentDefinition} {vars : Dict Json}

/-- Selections are written out in one way. -/
theorem WrittenOut.unique {selections : List Selected} {out other : List Selection}
    (h : WrittenOut fragments vars.get? selections out)
    (hother : WrittenOut fragments vars.get? selections other) : out = other := by
  -- what is written out follows the selections, and no selection is both kept and excluded
  induction h generalizing other with
  | nil =>
    cases hother
    rfl
  | excluded hexcluded _ ih =>
    cases hother with
    | excluded _ hrest => exact ih hrest
    | field hkept => exact absurd hexcluded (Directive.not_excluded_of_kept hkept)
    | fragment hkept => exact absurd hexcluded (Directive.not_excluded_of_kept hkept)
    | spread hkept => exact absurd hexcluded (Directive.not_excluded_of_kept hkept)
  | field hkept _ _ ihinside ihrest =>
    cases hother with
    | excluded hexcluded => exact absurd hexcluded (Directive.not_excluded_of_kept hkept)
    | field _ hinside hrest => rw [ihinside hinside, ihrest hrest]
  | fragment hkept _ _ ihinside ihrest =>
    cases hother with
    | excluded hexcluded => exact absurd hexcluded (Directive.not_excluded_of_kept hkept)
    | fragment _ hinside hrest => rw [ihinside hinside, ihrest hrest]
  | spread hkept hget _ _ ihinside ihrest =>
    cases hother with
    | excluded hexcluded => exact absurd hexcluded (Directive.not_excluded_of_kept hkept)
    | spread _ hget' hinside hrest =>
      cases hget.symm.trans hget'
      rw [ihinside hinside, ihrest hrest]

-- ================================================================ one selection

namespace Walked

variable {within : List String}

theorem nil : Walked fragments vars.get? within [] (.ok []) :=
  .through .nil .refl

/-- One selection and then the others. -/
theorem cons {s : Selected} {rest : List Selected}
    {first others : Except DocumentError (List Selection)}
    (hfirst : Walked fragments vars.get? within [s] first)
    (hrest : Walked fragments vars.get? within rest others) :
    Walked fragments vars.get? within (s :: rest) (do return (← first) ++ (← others)) := by
  cases hfirst with
  | stopped hmet hoffends =>
    obtain ⟨behind, hreaches⟩ := hmet
    exact .stopped ⟨behind ++ Visit.all within rest, hreaches.append _⟩ hoffends
  | through hout hreaches =>
    have hon : Reaches fragments vars.get? (Visit.all within (s :: rest)) (Visit.all within rest) :=
      hreaches.append (Visit.all within rest)
    cases hrest with
    | stopped hmet hoffends =>
      obtain ⟨behind, hreaches'⟩ := hmet
      exact .stopped ⟨behind, hon.trans hreaches'⟩ hoffends
    | through hout' hreaches' => exact .through (hout.append hout') (hon.trans hreaches')

/-- A kept selection: the walk enters it, and what is inside decides. -/
theorem enter {s : Selected} {within' : List String} {selections : List Selected}
    {result : Except DocumentError (List Selection)} {build : List Selection → Selection}
    (hkept : Directive.Kept vars.get? s.directives)
    (hsound : ∀ e, ¬ Visit.Offends fragments vars.get? ⟨within, s⟩ e)
    (hinside : Visit.inside fragments ⟨within, s⟩ = Visit.all within' selections)
    (hbuild : ∀ out, WrittenOut fragments vars.get? selections out →
      WrittenOut fragments vars.get? [s] [build out])
    (h : Walked fragments vars.get? within' selections result) :
    Walked fragments vars.get? within [s] (result.map fun out => [build out]) := by
  have hstep : Walks fragments vars.get? (Visit.all within [s]) (Visit.all within' selections) := by
    have hwalks : Walks fragments vars.get? [⟨within, s⟩]
        (Visit.inside fragments ⟨within, s⟩ ++ []) := .enter hkept hsound
    rw [hinside, List.append_nil] at hwalks
    exact hwalks
  cases h with
  | through hout hreaches => exact .through (hbuild _ hout) (.head hstep hreaches)
  | stopped hmet hoffends =>
    obtain ⟨behind, hreaches⟩ := hmet
    exact .stopped ⟨behind, .head hstep hreaches⟩ hoffends

/-- An excluded selection, and one whose directives cannot be decided, need no more than
their directives. -/
theorem of_kept {s : Selected} {expand : Expansion}
    (h : Directive.Kept vars.get? s.directives →
      Walked fragments vars.get? within [s] (Selected.lower vars expand s)) :
    Walked fragments vars.get? within [s] (Selected.lower vars expand s) := by
  rcases Directive.kept_or_excluded_or_misstated vars s.directives with
    hkept | hexcluded | ⟨e, hmisstated⟩
  · exact h hkept
  · rw [Selected.lower_of_excluded hexcluded]
    exact .through (.excluded hexcluded .nil) (.single (.pass hexcluded))
  · rw [Selected.lower_of_misstated hmisstated]
    exact .stopped ⟨[], .refl⟩ (.condition hmisstated)

-- ------------------------------------------------ what a walked result says

variable {selections : List Selected} {result : Except DocumentError (List Selection)}

end Walked

-- ============================================================= all selections

/-- The results for the spreads inside the fragments `within` are those of the walk. -/
def Follows (fragments : Dict FragmentDefinition) (vars : Dict Json) (within : List String)
    (expand : Expansion) : Prop :=
  ∀ name directives place, Directive.Kept vars.get? directives →
    Walked fragments vars.get? within [.spread name directives place]
      ((expand name place).map fun s => [s])

variable {within : List String} {expand : Expansion}

mutual

/-- Writing out a selection walks it, by induction on the selection. -/
theorem walked_lower (hexpand : Follows fragments vars within expand) :
    (s : Selected) → Walked fragments vars.get? within [s] (Selected.lower vars expand s)
  | .field name rename arguments directives selections => by
    apply Walked.of_kept
    intro (hkept : Directive.Kept vars.get? directives)
    rw [Selected.lower_field_of_kept hkept]
    apply Walked.enter hkept _ rfl _ (walked_lowerAll hexpand selections)
    · exact Visit.sound_of_kept hkept fun name directives place heq => by cases heq
    · exact fun out hout => .field hkept hout .nil
  | .fragment condition directives selections => by
    apply Walked.of_kept
    intro (hkept : Directive.Kept vars.get? directives)
    rw [Selected.lower_fragment_of_kept hkept]
    apply Walked.enter hkept _ rfl _ (walked_lowerAll hexpand selections)
    · exact Visit.sound_of_kept hkept fun name directives place heq => by cases heq
    · exact fun out hout => .fragment hkept hout .nil
  | .spread name directives place => by
    apply Walked.of_kept
    intro (hkept : Directive.Kept vars.get? directives)
    rw [Selected.lower_spread_of_kept hkept]
    exact hexpand name directives place hkept

/-- Writing out selections walks them in their order. -/
theorem walked_lowerAll (hexpand : Follows fragments vars within expand) :
    (selections : List Selected) →
      Walked fragments vars.get? within selections (Selected.lowerAll vars expand selections)
  | [] => .nil
  | s :: rest => (walked_lower hexpand s).cons (walked_lowerAll hexpand rest)

end

end

-- ================================================================== the spreads

/-- Fragments that can be open together, and fuel for all the others. -/
structure Room (fragments : Dict FragmentDefinition) (within : List String) (fuel : Nat) :
    Prop where
  nodup : within.Nodup
  defined : within ⊆ fragments.keys
  enough : fragments.length ≤ within.length + fuel

namespace Room

/-- At the start all fragments are closed, and there is room for as many. -/
theorem start (fragments : Dict FragmentDefinition) : Room fragments [] fragments.length where
  nodup := .nil
  defined := List.nil_subset _
  enough := by simp

end Room

namespace Selected

variable {fragments : Dict FragmentDefinition} {vars : Dict Json} {fuel : Nat}
  {within : List String} {name : String} {definition : FragmentDefinition}

end Selected

section

variable {fragments : Dict FragmentDefinition} {vars : Dict Json}

end

end PropertyGraphQL
