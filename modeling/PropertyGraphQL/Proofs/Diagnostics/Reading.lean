/-
What is read from a text stands at places of the text.

Reading goes through a text from its beginning, and a tree is placed where
its reading began; so all places in a tree are places of the text
(`Grammar.everywhere_of_parse`). The faults found in a tree are at places in
it, and a fault of the grammar is a number of characters into the text: in
whatever way a text is no document, it is so at a place of the text
(`SourceTree.faultAt_of_read`).

A document takes its places from the tree (`SchemaDocument.placed_of_parse`).
-/
import PropertyGraphQL.Model.Schema
import PropertyGraphQL.Proofs.Text.Place

namespace PropertyGraphQL

-- ================================================================== cursors

/-- The cursor is behind a beginning of the text. -/
def Cursor.At (text : List Char) (c : Cursor) : Prop :=
  ∃ before, before ++ c.rest = text ∧ c.place = Position.ofPrefix before

namespace Cursor

variable {text : List Char} {c c' : Cursor}

theorem at_start (text : List Char) : (start text).At text := ⟨[], rfl, rfl⟩

/-- A cursor that is moved on stays in the text, and its place is kept in step. -/
theorem At.forward (h : c.At text) (n : Nat) : (c.forward n).At text := by
  induction n generalizing c with
  | zero => exact h
  | succ n ih =>
    obtain ⟨offset, place, rest⟩ := c
    cases rest with
    | nil => exact h
    | cons x rest =>
      obtain ⟨before, htext, hplace⟩ := h
      refine ih ⟨before ++ [x], ?_, ?_⟩
      · rw [List.append_assoc]
        exact htext
      · show place.advance x = _
        rw [show place = _ from hplace]
        exact (List.foldl_concat _ _ _ _).symm

theorem At.eat (h : c.At text) {cs : List Char} (heat : c.eat? cs = some c') : c'.At text := by
  obtain ⟨_, -, rfl⟩ := Option.map_eq_some_iff.mp heat
  exact h.forward _

/-- A cursor that has read one character of a class is behind it in the text. -/
theorem At.eatOne (h : c.At text) {accepts : Char → Bool} (heat : c.eatOne? accepts = some c') :
    c'.At text := by
  unfold eatOne? at heat
  split at heat
  · cases heat
  · split at heat
    · cases heat
      exact h.forward 1
    · cases heat

/-- The place of a cursor stands in the text. -/
theorem At.standsIn (h : c.At text) : c.place.StandsIn text := by
  obtain ⟨before, htext, hplace⟩ := h
  rw [hplace]
  exact Position.standsIn_ofPrefix ⟨c.rest, htext⟩

end Cursor

-- ==================================================================== trees

namespace Tree

variable {R : Type} {holds : Position → Prop}

mutual

/-- Something holds of every place in a tree. -/
def Everywhere (holds : Position → Prop) : Tree R → Prop
  | node _ place _ children => holds place ∧ EverywhereIn holds children

def EverywhereIn (holds : Position → Prop) : List (Tree R) → Prop
  | [] => True
  | t :: rest => Everywhere holds t ∧ EverywhereIn holds rest

end

/-- Something holds everywhere in trees if it does in each of them. -/
theorem everywhereIn_iff {ts : List (Tree R)} :
    EverywhereIn holds ts ↔ ∀ t ∈ ts, t.Everywhere holds := by
  induction ts with
  | nil => exact iff_of_true trivial (List.forall_mem_nil _)
  | cons t rest ih => rw [EverywhereIn, ih, List.forall_mem_cons]

theorem everywhereIn_append {ts us : List (Tree R)} :
    EverywhereIn holds (ts ++ us) ↔ EverywhereIn holds ts ∧ EverywhereIn holds us := by
  simp only [everywhereIn_iff, List.forall_mem_append]

variable {t : Tree R} {ts : List (Tree R)}

theorem Everywhere.place (h : t.Everywhere holds) : holds t.place := by
  cases t
  exact h.1

theorem Everywhere.children (h : t.Everywhere holds) : EverywhereIn holds t.children := by
  cases t
  exact h.2

variable [DecidableEq R] {r : R}

theorem EverywhereIn.first (h : EverywhereIn holds ts) (hfirst : first? r ts = some t) :
    t.Everywhere holds :=
  everywhereIn_iff.mp h t (List.mem_of_find?_eq_some hfirst)

/-- The children of all trees of a rule are among the trees below. -/
theorem EverywhereIn.within (h : EverywhereIn holds ts) (r : R) :
    EverywhereIn holds (within r ts) := by
  unfold Tree.within
  cases hfirst : first? r ts with
  | none => trivial
  | some t => exact (h.first hfirst).children

end Tree

-- ================================================================== reading

namespace Grammar

variable {R : Type} {text : List Char}

/-- What was read ends at a place of the text, and its trees are placed in the text. -/
def Reaches (text : List Char) (a : Attempt R) : Prop :=
  ∀ c ts, a.outcome = some (c, ts) → c.At text ∧ Tree.EverywhereIn (·.StandsIn text) ts

theorem reaches_none {farthest : Nat} : Reaches text (⟨none, farthest⟩ : Attempt R) := nofun

/-- An attempt that succeeds reaches a cursor in the text, with trees whose places all stand in
it. -/
theorem reaches_some {c : Cursor} {ts : List (Tree R)} {farthest : Nat} :
    Reaches text ⟨some (c, ts), farthest⟩
      ↔ c.At text ∧ Tree.EverywhereIn (·.StandsIn text) ts :=
  ⟨fun h => h c ts rfl, fun h _ _ heq => by cases heq; exact h⟩

/-- What is skipped between tokens leaves the cursor in the text. -/
theorem at_skip (g : Grammar R) (around : Surroundings) {c : Cursor} (h : c.At text) :
    (g.skip around c).At text := by
  unfold skip
  split
  · exact h.forward _
  · exact h

/-- What is read from a place of the text ends at one and is placed in between. -/
theorem reaches_run (g : Grammar R) (fuel : Nat) (e : Peg R) (around : Surroundings)
    {c : Cursor} (farthest : Nat) (h : c.At text) :
    Reaches text (g.run fuel e around c farthest) := by
  induction fuel generalizing e around c farthest with
  | zero => exact reaches_none
  | succ fuel ih =>
    cases e with
    | chars cs =>
      rintro c' ts hrun
      obtain ⟨c'', heat, heq⟩ := Option.map_eq_some_iff.mp hrun
      cases heq
      exact ⟨h.eat heat, trivial⟩
    | one accepts =>
      rintro c' ts hrun
      obtain ⟨c'', heat, heq⟩ := Option.map_eq_some_iff.mp hrun
      cases heq
      exact ⟨h.eatOne heat, trivial⟩
    | ending =>
      rw [run]
      split
      · exact reaches_some.mpr ⟨h, trivial⟩
      · exact reaches_none
    | seq a b =>
      -- the second half starts behind the blanks that follow the first
      have hfirst := ih a around farthest h
      simp only [run]
      split
      · exact reaches_none
      · next c₁ ts far hrun =>
        rw [hrun, reaches_some] at hfirst
        have hsecond := ih b around far (g.at_skip around hfirst.1)
        split
        · exact reaches_none
        · next c₂ us far' hrun' =>
          rw [hrun', reaches_some] at hsecond
          exact reaches_some.mpr
            ⟨hsecond.1, Tree.everywhereIn_append.mpr ⟨hfirst.2, hsecond.2⟩⟩
    | alt a b =>
      simp only [run]
      split
      · exact ih b around _ h
      · exact ih a around farthest h
    | opt a =>
      simp only [run]
      split
      · exact reaches_some.mpr ⟨h, trivial⟩
      · exact ih a around farthest h
    | many a =>
      have hfirst := ih a around farthest h
      simp only [run]
      split
      · exact reaches_some.mpr ⟨h, trivial⟩
      · next c₁ ts far hrun =>
        rw [hrun, reaches_some] at hfirst
        -- what is repeated is read with less fuel, by the same expression
        have hmore := ih a.many around far (g.at_skip around hfirst.1)
        split
        · exact reaches_none
        · next c₂ us far' hrun' =>
          rw [hrun', reaches_some] at hmore
          exact reaches_some.mpr
            ⟨hmore.1, Tree.everywhereIn_append.mpr ⟨hfirst.2, hmore.2⟩⟩
    | absent a =>
      simp only [run]
      split
      · exact reaches_some.mpr ⟨h, trivial⟩
      · exact reaches_none
    | call r =>
      rintro c' ts hrun
      -- the one place where a tree is made: it begins at the cursor of the call
      obtain ⟨⟨last, children⟩, hbody, heq⟩ := Option.map_eq_some_iff.mp hrun
      cases heq
      obtain ⟨hlast, hchildren⟩ := ih (g.body r) _ farthest h _ children hbody
      exact ⟨hlast, ⟨h.standsIn, hchildren⟩, trivial⟩

/-- All places in the tree of a text stand in the text, whatever the grammar. -/
theorem everywhere_of_parse {g : Grammar R} {start : R} {text : String} {t : Tree R}
    (h : g.parse start text = .ok t) : t.Everywhere (·.StandsIn text.toList) := by
  simp only [parse] at h
  have hreaches := g.reaches_run ((text.toList.length + 1) * g.stepsPerCharacter) (.call start)
    ⟨.free, false⟩ 0 (Cursor.at_start text.toList)
  split at h
  · next hrun =>
    cases h
    rw [hrun, reaches_some] at hreaches
    exact hreaches.2.1
  · cases h

end Grammar

-- =================================================================== faults

namespace SourceTree

variable {holds : Position → Prop} {t : SourceTree} {ts : List SourceTree} {fault : DocumentFault}

/-- The fault is at a place where something holds, if it is at one at all. -/
def FaultAt (holds : Position → Prop) (fault : DocumentFault) : Prop :=
  ∀ p, fault.place? = some p → holds p

/-- A fault is found at its own place. -/
theorem faultAt_of_eq_some {p : Position} (h : fault.place? = some p) (hp : holds p) :
    FaultAt holds fault := by
  intro q hq
  cases h.symm.trans hq
  exact hp

/-- Of two checks, the fault of the first counts if there is one. -/
theorem faultAt_orElse {first second : Option DocumentFault}
    (hfirst : first = some fault → FaultAt holds fault)
    (hsecond : second = some fault → FaultAt holds fault)
    (h : (first <|> second) = some fault) : FaultAt holds fault := by
  cases first with
  | none => exact hsecond h
  | some f => exact hfirst h

/-- A root that is given twice is reported at a place of the definition. -/
theorem faultAt_repeatedRoot (h : Tree.EverywhereIn holds ts) {seen : List OperationType}
    (hfault : repeatedRoot? seen ts = some fault) : FaultAt holds fault := by
  induction ts generalizing seen with
  | nil => cases hfault
  | cons t rest ih =>
    unfold repeatedRoot? at hfault
    split at hfault
    · split at hfault
      · cases hfault
        exact faultAt_of_eq_some rfl h.1.place
      · exact ih h.2 hfault
    · exact ih h.2 hfault

/-- Faults of the definition of the roots are reported at its place or further in. -/
theorem faultAt_rootFault {p : Position} (hp : holds p) (h : Tree.EverywhereIn holds ts)
    (hfault : rootFault? p ts = some fault) : FaultAt holds fault := by
  refine faultAt_orElse (faultAt_repeatedRoot h) (fun hmissing => ?_) hfault
  split at hmissing
  · cases hmissing
    exact faultAt_of_eq_some rfl hp
  · cases hmissing

mutual

/-- A fault in a tree is reported at a place of the tree. -/
theorem faultAt_fault {left : Option Nat} {t : SourceTree} (h : t.Everywhere holds)
    (hfault : fault? left t = some fault) : FaultAt holds fault := by
  rw [fault?.eq_def] at hfault
  split at hfault
  · split at hfault
    · cases hfault
    · cases hfault
      exact faultAt_of_eq_some rfl h.1
  · exact faultAt_orElse (faultAt_faultIn h.2) (faultAt_rootFault h.1 h.2) hfault
  · split at hfault
    · exact faultAt_faultIn h.2 hfault
    · cases hfault
      exact nofun
    · exact faultAt_faultIn h.2 hfault
  · exact faultAt_faultIn h.2 hfault

/-- The first fault in several trees is reported at a place of one of them. -/
theorem faultAt_faultIn {left : Option Nat} {ts : List SourceTree}
    (h : Tree.EverywhereIn holds ts) (hfault : faultIn? left ts = some fault) :
    FaultAt holds fault := by
  cases ts with
  | nil => cases hfault
  | cons t rest =>
    rw [faultIn?] at hfault
    exact faultAt_orElse (faultAt_fault h.1) (faultAt_faultIn h.2) hfault

end

/-- A text that cannot be read has its fault at a place of it, and one that can has a
tree that is placed in it. -/
theorem faultAt_of_read {start : Rule} {text : String} (h : read start text = .error fault) :
    FaultAt (·.StandsIn text.toList) fault := by
  unfold read at h
  split at h
  · cases h
    exact faultAt_of_eq_some rfl (Position.standsIn_ofOffsetCrLf _ _)
  · next t hparse =>
    split at h
    · next hfault =>
      cases h
      exact faultAt_fault (Grammar.everywhere_of_parse hparse) hfault
    · cases h

/-- All places in a tree that is read stand in its text. -/
theorem everywhere_of_read {start : Rule} {text : String} (h : read start text = .ok t) :
    t.Everywhere (·.StandsIn text.toList) := by
  unfold read at h
  split at h
  · cases h
  · next hparse =>
    split at h
    · cases h
    · cases h
      exact Grammar.everywhere_of_parse hparse

end SourceTree

-- ================================================================ documents

section

variable (holds : Position → Prop)

/-- Something holds of the places of a directive and its arguments. -/
structure Directive.Placed (d : Directive) : Prop where
  place : holds d.place
  arguments : ∀ a ∈ d.arguments, holds a.place

structure FieldDefinition.Placed (f : FieldDefinition) : Prop where
  place : holds f.place
  directives : ∀ d ∈ f.directives, d.Placed holds

/-- The fields that the body of a type declares. -/
def TypeBody.fields : TypeBody → List FieldDefinition
  | .object _ fields => fields
  | .interface _ fields => fields
  | _ => []

structure TypeDefinition.Placed (d : TypeDefinition) : Prop where
  place : holds d.place
  fields : ∀ f ∈ d.body.fields, f.Placed holds

/-- Something holds of every place that a definition keeps. -/
def SchemaItem.Placed : SchemaItem → Prop
  | .type d => d.Placed holds
  | _ => True

end

namespace SourceTree

variable {holds : Position → Prop} {t : SourceTree} {ts : List SourceTree}

/-- An argument has a place of its tree. -/
theorem place_directiveArgument (h : t.Everywhere holds) : holds (directiveArgument t).place := by
  obtain ⟨rule, place, text, children⟩ := t
  simp only [directiveArgument]
  split
  · exact h.2.2.1.place
  · exact h.1

/-- A directive and its arguments have places of their tree. -/
theorem placed_directive (h : t.Everywhere holds) : (directive t).Placed holds where
  place := h.place
  arguments a ha := by
    obtain ⟨u, hu, rfl⟩ := List.mem_map.mp ha
    have hchildren := Tree.everywhereIn_append.mpr
      ⟨h.children.within .arguments, h.children.within .constArguments⟩
    exact place_directiveArgument (Tree.everywhereIn_iff.mp hchildren u hu)

/-- All directives among some trees have places of these. -/
theorem placed_directivesIn (h : Tree.EverywhereIn holds ts) :
    ∀ d ∈ directivesIn ts, d.Placed holds := by
  intro d hd
  obtain ⟨u, hu, rfl⟩ := List.mem_map.mp hd
  have hchildren := Tree.everywhereIn_append.mpr
    ⟨h.within .directives, h.within .constDirectives⟩
  exact placed_directive (Tree.everywhereIn_iff.mp hchildren u hu)

theorem placed_fieldDefinition (h : t.Everywhere holds) : (fieldDefinition t).Placed holds :=
  ⟨h.place, placed_directivesIn h.children⟩

/-- A type and its fields have places of its tree. -/
theorem placed_typeDefinition (h : t.Everywhere holds) : (typeDefinition t).Placed holds where
  place := h.place
  fields f hf := by
    have hfields : f ∈ (Tree.within .fieldsDefinition t.children).map fieldDefinition := by
      change f ∈ (typeBody t).fields at hf
      unfold typeBody at hf
      split at hf
      · cases hf
      · exact hf
      · exact hf
      · cases hf
      · cases hf
    obtain ⟨u, hu, rfl⟩ := List.mem_map.mp hfields
    exact placed_fieldDefinition
      (Tree.everywhereIn_iff.mp (h.children.within .fieldsDefinition) u hu)

/-- Whatever a schema document defines has places of its tree. -/
theorem placed_schemaItem (h : t.Everywhere holds) {item : SchemaItem}
    (hitem : schemaItem? t = some item) : item.Placed holds := by
  unfold schemaItem? at hitem
  split at hitem
  · next definition _ =>
    cases hitem
    have hdefinition : definition.Everywhere holds := h.2.1
    split
    · trivial
    · exact placed_typeDefinition hdefinition.2.1
    · trivial
  · cases hitem

end SourceTree

/-- A document that is read is placed in its text. -/
theorem SchemaDocument.placed_of_parse {text : String} {d : SchemaDocument}
    (h : SchemaDocument.parse text = .ok d) :
    ∀ item ∈ d, item.Placed (·.StandsIn text.toList) := by
  unfold SchemaDocument.parse at h
  cases hread : SourceTree.read .serviceDocument text with
  | error fault =>
    rw [hread] at h
    cases h
  | ok t =>
    rw [hread] at h
    cases h
    intro item hitem
    obtain ⟨u, hu, hitem⟩ := List.mem_filterMap.mp hitem
    have hchildren := (SourceTree.everywhere_of_read hread).children
    exact SourceTree.placed_schemaItem (Tree.everywhereIn_iff.mp hchildren u hu) hitem

/-- A text that is no schema document has its fault at a place of it. -/
theorem SchemaDocument.faultAt_of_parse {text : String} {fault : DocumentFault}
    (h : SchemaDocument.parse text = .error fault) :
    SourceTree.FaultAt (·.StandsIn text.toList) fault := by
  unfold SchemaDocument.parse at h
  cases hread : SourceTree.read .serviceDocument text with
  | error fault' =>
    rw [hread] at h
    cases h
    exact SourceTree.faultAt_of_read hread
  | ok t =>
    rw [hread] at h
    cases h

end PropertyGraphQL
