/-
What is read for a selection, at every depth.

A collected field stands for data that every node has, for a property or for a
relationship of its type, and the last two may have a statement of their own.
Planning goes on below a field just where entities are traversed to: nothing is
read below a value, and nothing below a relationship whose statement gives the
result as it is. What is read so hangs on the catalog and the selection alone
(`Reads`), whatever the arguments are. At the top it is read of a type of the
catalog, if anything is (`Compiler.type?_of_purpose?`).
-/
import PropertyGraphQL.Proofs.Outcome.Statement
import PropertyGraphQL.Proofs.Selection.Occurrences

namespace PropertyGraphQL

open Cypher

namespace Collected

variable (catalog : Catalog) (f : Collected)

/-- The property that a field stands for. -/
def property? : Option PropertyField :=
  if f.head.name ∈ ["_id", "_labels", "__typename"] then none
  else f.scope.property? f.head.name

/-- The relationship that a field stands for. -/
def relationship? : Option RelationshipField :=
  if f.head.name ∈ ["_id", "_labels", "__typename"] ∨ (f.scope.property? f.head.name).isSome then
    none
  else f.scope.relationship? f.head.name

/-- The statement that is run for a field, and the arguments that it declares. -/
def statement? : Option (CustomStatement × Dict DeclaredArgument) :=
  (f.property?.bind fun p => p.custom.map fun custom => (custom, p.arguments)).or
    (f.relationship?.bind fun r => r.custom.map fun custom => (custom, r.arguments))

/-- The type of the entities that are read below a field. -/
def traversed? : Option EntityType :=
  f.relationship?.bind fun r =>
    if r.custom.any (·.passThrough) then none else catalog.type? r.shape.targetType

/-- A field is read for collected ones: it is one of them, or it is read below
one. -/
inductive Reads : List Collected → Collected → Prop where
  | here {fields : List Collected} {f : Collected} (h : f ∈ fields) : Reads fields f
  | inside {fields : List Collected} {g f : Collected} {target : EntityType} (hg : g ∈ fields)
      (htarget : g.traversed? catalog = some target)
      (h : Reads (collect catalog target g.selections) f) : Reads fields f

variable {catalog f}

/-- A field reads a property exactly if it is not built in and the type has one of the name. -/
theorem property?_eq_some_iff {p : PropertyField} : f.property? = some p
    ↔ f.head.name ∉ ["_id", "_labels", "__typename"] ∧ f.scope.property? f.head.name = some p := by
  unfold property?
  split
  · next hname => simp [hname]
  · next hname => simp [hname]

/-- A field follows a relationship exactly if no built-in name and no property come first. -/
theorem relationship?_eq_some_iff {r : RelationshipField} : f.relationship? = some r
    ↔ f.head.name ∉ ["_id", "_labels", "__typename"] ∧ f.scope.property? f.head.name = none
      ∧ f.scope.relationship? f.head.name = some r := by
  unfold relationship?
  split
  · next h =>
    have hnone : ¬ none = some r := by simp
    refine iff_of_false hnone ?_
    rintro ⟨hname, hproperty, -⟩
    rcases h with h | h
    · exact hname h
    · rw [hproperty] at h
      cases h
  · next h =>
    obtain ⟨hname, hproperty⟩ := not_or.mp h
    simp [hname, Option.not_isSome_iff_eq_none.mp hproperty]

/-- A property has the statement that its type says. -/
theorem statement?_of_property {p : PropertyField} (h : f.property? = some p) :
    f.statement? = p.custom.map fun custom => (custom, p.arguments) := by
  have hproperty := (property?_eq_some_iff.mp h).2
  have hnone : f.relationship? = none := by
    simp [relationship?, hproperty]
  simp [statement?, h, hnone]

/-- A relationship has the statement that its type says. -/
theorem statement?_of_relationship {r : RelationshipField} (h : f.relationship? = some r) :
    f.statement? = r.custom.map fun custom => (custom, r.arguments) := by
  have hproperty := (relationship?_eq_some_iff.mp h).2.1
  have hnone : f.property? = none := by
    simp [property?, hproperty]
  simp [statement?, h, hnone]

/-- Nothing is read of no fields. -/
theorem forall_reads_nil {P : Collected → Prop} (f : Collected) (h : Reads catalog [] f) :
    P f := by
  cases h with
  | here h => cases h
  | inside hg => cases hg

/-- What is read for collected fields is the first of them, what is read below that,
and what is read for the others. -/
theorem forall_reads_cons {P : Collected → Prop} {f : Collected} {rest : List Collected} :
    (∀ g, Reads catalog (f :: rest) g → P g) ↔ P f
      ∧ (∀ target, f.traversed? catalog = some target →
        ∀ g, Reads catalog (collect catalog target f.selections) g → P g)
      ∧ ∀ g, Reads catalog rest g → P g := by
  constructor
  · intro h
    refine ⟨h f (.here List.mem_cons_self), fun target htarget g hg => ?_, fun g hg => ?_⟩
    · exact h g (.inside List.mem_cons_self htarget hg)
    · cases hg with
      | here hg => exact h g (.here (List.mem_cons_of_mem _ hg))
      | inside hmem htarget hg => exact h g (.inside (List.mem_cons_of_mem _ hmem) htarget hg)
  · rintro ⟨hfirst, hbelow, hrest⟩ g hg
    cases hg with
    | here hg =>
      rcases List.mem_cons.mp hg with rfl | hg
      · exact hfirst
      · exact hrest g (.here hg)
    | inside hmem htarget hg =>
      rcases List.mem_cons.mp hmem with rfl | hmem
      · exact hbelow _ htarget g hg
      · exact hrest g (.inside hmem htarget hg)

end Collected

-- ================================================================ outcomes

namespace Outcome

variable {c : Compiler} {vars parameters : Dict Json} {f : Collected} {entity : String}
  {read : Expression ⊕ Traversal × EntityType}

/-- What is read for a relationship leads to entities, unless its statement gives
the result as it is. -/
theorem Relationship.traversed? {r : RelationshipField} (hr : f.relationship? = some r)
    (h : Relationship c vars parameters f r entity read) :
    f.traversed? c.catalog = read.elim (fun _ => none) fun t => some t.2 := by
  unfold Collected.traversed?
  rw [hr, Option.bind_some]
  cases h with
  | plain htarget hcustom => simp [hcustom, htarget]
  | passThrough htarget hcustom hpass => simp [hcustom, hpass]
  | listed htarget hcustom hpass => simp [hcustom, hpass, htarget]

/-- A traversal is what is read for a field that leads to entities, and a value what
is read for any other. -/
theorem Field.traversed? (h : Field c vars parameters f entity read) :
    f.traversed? c.catalog = read.elim (fun _ => none) fun t => some t.2 := by
  cases h with
  | id hname | labels hname | typeName hname =>
    simp [Collected.traversed?, Collected.relationship?, hname]
  | property hname hproperty =>
    simp [Collected.traversed?, Collected.relationship?, hproperty]
  | relationship hname hproperty hr h =>
    exact h.traversed? (Collected.relationship?_eq_some_iff.mpr ⟨hname, hproperty, hr⟩)

end Outcome

/-- What the plan of a field traverses is what the field traverses. -/
theorem Compiler.traversed?_of_fieldPlan {c : Compiler} {f : Collected} {entity : String}
    {read : Expression ⊕ Traversal × EntityType} {p q : Parameters}
    (h : (c.fieldPlan f entity).run p = .ok (read, q)) :
    f.traversed? c.catalog = read.elim (fun _ => none) fun t => some t.2 := by
  obtain ⟨-, -, hfield⟩ := c.yields_fieldPlan f entity rfl h
  exact (hfield (.refl _)).traversed?

-- ================================================================== heads

namespace Selection

mutual

/-- All fields of an element of a selection, at any depth, have heads of a kind. -/
def Every (P : FieldHead → Prop) : Selection → Prop
  | .field head selections => P head ∧ EveryIn P selections
  | .fragment _ selections => EveryIn P selections

def EveryIn (P : FieldHead → Prop) : List Selection → Prop
  | [] => True
  | s :: rest => Every P s ∧ EveryIn P rest

end

/-- A condition holds of all fields in selections exactly if it does in each of them. -/
theorem everyIn_iff {P : FieldHead → Prop} (ss : List Selection) :
    EveryIn P ss ↔ ∀ s ∈ ss, s.Every P := by
  induction ss with
  | nil => simp [EveryIn]
  | cons s rest ih => simp [EveryIn, ih]

end Selection

/-- The field and all fields below it have heads of a kind. -/
def RootField.Every (P : FieldHead → Prop) (f : RootField) : Prop :=
  P f.head ∧ Selection.EveryIn P f.selections

namespace Collected

variable {catalog : Catalog} {P : FieldHead → Prop} {Q : EntityType → Prop}

/-- The type that a fragment belongs to is the one it stands on or of the catalog. -/
theorem fragmentScope?_of_types (htypes : ∀ ⦃name t⦄, catalog.type? name = some t → Q t)
    {t u : EntityType} (ht : Q t) {condition : Option String}
    (h : catalog.fragmentScope? t condition = some u) : Q u := by
  unfold Catalog.fragmentScope? at h
  split at h
  · cases h
    exact ht
  · split at h
    · next other hother =>
      split at h
      · cases h
        exact htypes hother
      · cases h
    · split at h
      · cases h
        exact ht
      · cases h

mutual

/-- What holds of every field of a selection and of every type holds of its occurrences. -/
theorem every_occurrencesOne (htypes : ∀ ⦃name t⦄, catalog.type? name = some t → Q t)
    {t : EntityType} (ht : Q t) {s : Selection} (hs : s.Every P) :
    ∀ o ∈ occurrencesOne catalog t s,
      P o.head ∧ Q o.scope ∧ Selection.EveryIn P o.selections := by
  cases s with
  | field head selections =>
    rw [occurrencesOne]
    intro o ho
    rw [List.mem_singleton.mp ho]
    exact ⟨hs.1, ht, hs.2⟩
  | fragment condition selections =>
    rw [occurrencesOne]
    cases hscope : catalog.fragmentScope? t condition with
    | none => exact List.forall_mem_nil _
    | some u => exact every_occurrences htypes (fragmentScope?_of_types htypes ht hscope) hs

/-- What holds of all heads of a selection, and of all types, holds of the
occurrences of fields in it. -/
theorem every_occurrences (htypes : ∀ ⦃name t⦄, catalog.type? name = some t → Q t)
    {t : EntityType} (ht : Q t) {ss : List Selection} (hss : Selection.EveryIn P ss) :
    ∀ o ∈ occurrences catalog t ss,
      P o.head ∧ Q o.scope ∧ Selection.EveryIn P o.selections := by
  cases ss with
  | nil =>
    rw [occurrences]
    exact List.forall_mem_nil _
  | cons s rest =>
    rw [occurrences]
    exact List.forall_mem_append.mpr
      ⟨every_occurrencesOne htypes ht hss.1, every_occurrences htypes ht hss.2⟩

end

/-- What holds of all fields below the occurrences holds of all fields merged. -/
theorem everyIn_merged (key : String) {os : List Collected}
    (h : ∀ o ∈ os, Selection.EveryIn P o.selections) : Selection.EveryIn P (merged key os) := by
  refine (Selection.everyIn_iff _).mpr fun s hs => ?_
  obtain ⟨o, ho, hs⟩ := List.mem_flatMap.mp hs
  exact (Selection.everyIn_iff _).mp (h o (List.mem_of_mem_filter ho)) s hs

end Collected

-- ================================================================== the top

/-- The type of the entities that are read for a purpose. -/
def Purpose.read? : Purpose → Option EntityType
  | .select t => some t
  | .change (.create t) => some t
  | .change (.update t) => some t
  | .change _ => none

/-- The fields that are collected for a purpose. -/
def Compiler.collected (c : Compiler) (f : RootField) (purpose : Purpose) : List Collected :=
  purpose.read?.elim [] fun t => Collected.collect c.catalog t f.selections

/-- Nodes are made and changed of known types only. -/
theorem Catalog.type?_of_mutationNamed? {catalog : Catalog} {name : String}
    {mutation : GeneratedMutation} {t : EntityType}
    (h : catalog.mutationNamed? name = some mutation)
    (ht : (Purpose.change mutation).read? = some t) :
    ∃ name, catalog.type? name = some t := by
  unfold mutationNamed? at h
  split at h
  · next rest _ =>
    obtain ⟨t', ht', rfl⟩ := Option.map_eq_some_iff.mp h
    cases ht
    exact ⟨rest, ht'⟩
  · split at h
    · next rest _ =>
      obtain ⟨t', ht', rfl⟩ := Option.map_eq_some_iff.mp h
      cases ht
      exact ⟨rest, ht'⟩
    · split at h
      · split at h
        · cases h
          cases ht
        · obtain ⟨_, _, rfl⟩ := Option.map_eq_some_iff.mp h
          cases ht
      · split at h
        · obtain ⟨_, _, rfl⟩ := Option.map_eq_some_iff.mp h
          cases ht
        · cases h

/-- What a field of an operation reads is of a type of the catalog. -/
theorem Compiler.type?_of_purpose? {c : Compiler} {isMutation : Bool} {f : RootField}
    {purpose : Purpose} (h : c.purpose? isMutation f = some purpose) {t : EntityType}
    (ht : purpose.read? = some t) : ∃ name, c.catalog.type? name = some t := by
  have hselect (name : String) (h : (c.catalog.type? name).map .select = some purpose) :
      ∃ name, c.catalog.type? name = some t := by
    obtain ⟨t', ht', rfl⟩ := Option.map_eq_some_iff.mp h
    cases ht
    exact ⟨name, ht'⟩
  unfold purpose? at h
  split at h
  · split at h
    · cases h
    · obtain ⟨mutation, hmutation, rfl⟩ := Option.map_eq_some_iff.mp h
      exact Catalog.type?_of_mutationNamed? hmutation ht
  · split at h
    · split at h
      · cases h
      · exact hselect _ h
    · exact hselect _ h

end PropertyGraphQL
