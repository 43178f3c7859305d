/-
Selections that are written differently and read the same.

Three rewritings are considered (`Rewritten`): a fragment that applies to the
type it stands on is replaced by its selection, one that cannot apply is left
out, and the next occurrence of a response key is left out for what it selects
is put behind the selection of the occurrence before. They may take place
anywhere: among fields and inside fragments (`Place`), and in what is selected
below a field. There selections stand on the type that the first occurrence of
the field leads to, and all occurrences count as one selection.

The first two do not change which fields occur, and the third is undone by
merging. Below a field nothing is read but what is collected there, so it is
enough that the collected fields agree in all but their selections, and these
again, level by level (`AlikeFields`).
-/
import PropertyGraphQL.Proofs.Outcome.Statement
import PropertyGraphQL.Proofs.Selection.Occurrences

namespace PropertyGraphQL

open Cypher Compiling

variable {catalog : Catalog} {t u v : EntityType}

-- ================================================================= scopes

/-- A type, or a label without a type, has no label that entities of another
type have. -/
def Catalog.SharesNoLabel (catalog : Catalog) (name : String) (t : EntityType) : Prop :=
  match catalog.type? name with
  | some other => ∀ label ∈ other.allLabels, label ∉ t.allLabels
  | none => name ∉ t.allLabels

/-- A fragment on a type that shares no label with the node's does not apply. -/
theorem Catalog.fragmentScope?_eq_none {name : String} (h : catalog.SharesNoLabel name t) :
    catalog.fragmentScope? t (some name) = none := by
  unfold SharesNoLabel at h
  unfold fragmentScope?
  cases htype : catalog.type? name with
  | some other =>
    rw [htype] at h
    have hincompatible : ¬other.isCompatibleWith t = true := by
      intro hcompatible
      obtain ⟨label, hlabel, hother⟩ := List.any_eq_true.mp hcompatible
      exact h label (by simpa using hother) hlabel
    dsimp only
    rw [htype]
    exact if_neg hincompatible
  | none =>
    rw [htype] at h
    dsimp only
    rw [htype]
    exact if_neg (by simpa using h)

theorem EntityType.isCompatibleWith_self (t : EntityType) : t.isCompatibleWith t = true := by
  have hname : t.name ∈ t.allLabels := List.mem_eraseDups.mpr List.mem_cons_self
  exact List.any_eq_true.mpr ⟨t.name, hname, by simpa using hname⟩

/-- A fragment without a type, or with the type it stands on, is read on that
type. -/
theorem Catalog.fragmentScope?_self {condition : Option String}
    (h : ∀ name ∈ condition, catalog.type? name = some t) :
    catalog.fragmentScope? t condition = some t := by
  cases condition with
  | none => rfl
  | some name =>
    unfold fragmentScope?
    dsimp only
    rw [h name rfl]
    exact if_pos t.isCompatibleWith_self

namespace Collected

/-- The type of the entities that a field leads to, if it is a relationship. -/
def target? (catalog : Catalog) (f : Collected) : Option EntityType :=
  if f.head.name ∈ ["_id", "_labels", "__typename"] then none
  else
    match f.scope.property? f.head.name with
    | some _ => none
    | none => (f.scope.relationship? f.head.name).bind fun r => catalog.type? r.shape.targetType

/-- The field with nothing selected below it, if it has a response key. -/
def without (key : String) (o : Collected) : Collected :=
  if o.key = key then { o with selections := [] } else o

end Collected

open Collected

-- ============================================================= rewritings

/-- A place in a selection on a type, as what the selection becomes with
others in that place: among fields and fragments, and inside fragments that may
apply. There selections are read on a type of their own. Given are also the
fields that occur before and behind the place. -/
inductive Place (catalog : Catalog) : (t u : EntityType) →
    (List Selection → List Selection) → (before after : List Collected) → Prop where
  | here {t : EntityType} (a b : List Selection) :
      Place catalog t t (fun ss => a ++ ss ++ b) (occurrences catalog t a)
        (occurrences catalog t b)
  | fragment {t u v : EntityType} {condition : Option String}
      {place : List Selection → List Selection} {before after : List Collected}
      (a b : List Selection) (happlies : catalog.fragmentScope? t condition = some u)
      (h : Place catalog u v place before after) :
      Place catalog t v (fun ss => a ++ .fragment condition (place ss) :: b)
        (occurrences catalog t a ++ before) (after ++ occurrences catalog t b)

/-- A selection on a type before and after it is rewritten. -/
inductive Rewritten (catalog : Catalog) :
    EntityType → List Selection → List Selection → Prop where
  /-- A fragment without a type, or with the type it stands on, is replaced by
  its selection. -/
  | spread {t u : EntityType} {place : List Selection → List Selection}
      {before after : List Collected} {condition : Option String} {ss : List Selection}
      (hplace : Place catalog t u place before after)
      (hsame : ∀ name ∈ condition, catalog.type? name = some u) :
      Rewritten catalog t (place [.fragment condition ss]) (place ss)
  /-- A fragment whose type shares no label with the type it stands on is left
  out. -/
  | drop {t u : EntityType} {place : List Selection → List Selection}
      {before after : List Collected} {name : String} {ss : List Selection}
      (hplace : Place catalog t u place before after) (hnone : catalog.SharesNoLabel name u) :
      Rewritten catalog t (place [.fragment (some name) ss]) (place [])
  /-- The next field with a response key is left out, and what it selects put
  behind the selection of the one before. The two may stand in fragments. -/
  | merge {t u v w : EntityType} {place first second : List Selection → List Selection}
      {before after firstBefore firstAfter secondBefore secondAfter : List Collected}
      {head next : FieldHead} {ss more : List Selection}
      (hplace : Place catalog t u place before after)
      (hfirst : Place catalog u v first firstBefore firstAfter)
      (hsecond : Place catalog u w second secondBefore secondAfter)
      (hkey : next.responseKey = head.responseKey)
      (hnext : ∀ o ∈ firstAfter ++ secondBefore, o.key ≠ head.responseKey) :
      Rewritten catalog t (place (first [.field head ss] ++ second [.field next more]))
        (place (first [.field head (ss ++ more)] ++ second []))
  /-- What is selected below a response key is rewritten on the type that it
  leads to, and all else stays. -/
  | nested {t u : EntityType} {ss ss' : List Selection} {first : Collected} {key : String}
      (hrest : (occurrences catalog t ss).map (without key)
        = (occurrences catalog t ss').map (without key))
      (hfirst : (occurrences catalog t ss).find? (fun o => o.key = key) = some first)
      (htarget : first.target? catalog = some u)
      (h : Rewritten catalog u (merged key (occurrences catalog t ss))
        (merged key (occurrences catalog t ss'))) :
      Rewritten catalog t ss ss'
  /-- What is selected below a response key is rewritten in any way, where it
  leads to no type. -/
  | unread {t : EntityType} {ss ss' : List Selection} {first : Collected} {key : String}
      (hrest : (occurrences catalog t ss).map (without key)
        = (occurrences catalog t ss').map (without key))
      (hfirst : (occurrences catalog t ss).find? (fun o => o.key = key) = some first)
      (htarget : first.target? catalog = none) : Rewritten catalog t ss ss'
  /-- A fragment that cannot apply is rewritten in any way. -/
  | skipped {t u : EntityType} {place : List Selection → List Selection}
      {before after : List Collected} {name : String} {ss ss' : List Selection}
      (hplace : Place catalog t u place before after) (hnone : catalog.SharesNoLabel name u) :
      Rewritten catalog t (place [.fragment (some name) ss]) (place [.fragment (some name) ss'])

/-- In a place there are the fields before it, those of the selection that stands
there and those behind it. -/
theorem Place.occurrences_eq {place : List Selection → List Selection}
    {before after : List Collected} (h : Place catalog t u place before after)
    (ss : List Selection) :
    occurrences catalog t (place ss) = before ++ occurrences catalog u ss ++ after := by
  induction h with
  | here a b => rw [occurrences_append, occurrences_append]
  | fragment a b happlies _ ih =>
    rw [occurrences_append, occurrences, occurrencesOne_fragment happlies, ih]
    simp only [List.append_assoc]

/-- Below a field whose response key no other has, its own selection is
rewritten. -/
theorem Rewritten.field {place : List Selection → List Selection}
    {before after : List Collected} {head : FieldHead} {ss ss' : List Selection}
    (hplace : Place catalog t u place before after)
    (hkey : ∀ o ∈ before ++ after, o.key ≠ head.responseKey)
    (htarget : target? catalog ⟨head.responseKey, head, u, ss⟩ = some v)
    (h : Rewritten catalog v ss ss') :
    Rewritten catalog t (place [.field head ss]) (place [.field head ss']) := by
  obtain ⟨hbefore, hafter⟩ := List.forall_mem_append.mp hkey
  have hoccurrences (ss : List Selection) : occurrences catalog t (place [.field head ss])
      = before ++ ⟨head.responseKey, head, u, ss⟩ :: after := by
    rw [hplace.occurrences_eq, occurrences_singleton, occurrencesOne_field, List.append_assoc]
    rfl
  have hnone {os : List Collected} (hos : ∀ o ∈ os, o.key ≠ head.responseKey) :
      (os.filter fun o => o.key = head.responseKey) = [] :=
    List.filter_eq_nil_iff.mpr fun o ho => by simpa using hos o ho
  -- no other field has the response key, so what is merged is the field's own
  have hmerged (ss : List Selection) :
      merged head.responseKey (before ++ ⟨head.responseKey, head, u, ss⟩ :: after) = ss := by
    simp [merged, List.filter_append, hnone hbefore, hnone hafter]
  have hfirst : (occurrences catalog t (place [.field head ss])).find?
      (fun o => o.key = head.responseKey) = some ⟨head.responseKey, head, u, ss⟩ := by
    rw [hoccurrences, List.find?_append, List.find?_eq_none.mpr fun o ho => by
      simpa using hbefore o ho]
    simp
  refine .nested ?_ hfirst htarget ?_
  · rw [hoccurrences, hoccurrences]
    simp [without]
  · rw [hoccurrences, hoccurrences, hmerged, hmerged]
    exact h

-- ================================================================== alike

/-- Collected fields that are read the same: they agree in all but what is selected
below them, and where they lead to a type, what is collected there is alike. -/
inductive AlikeFields (catalog : Catalog) : List Collected → List Collected → Prop where
  | nil : AlikeFields catalog [] []
  | cons {key : String} {head : FieldHead} {scope : EntityType} {ss ss' : List Selection}
      {rest rest' : List Collected}
      (hbelow : ∀ u, target? catalog ⟨key, head, scope, ss⟩ = some u →
        AlikeFields catalog (collect catalog u ss) (collect catalog u ss'))
      (hrest : AlikeFields catalog rest rest') :
      AlikeFields catalog (⟨key, head, scope, ss⟩ :: rest) (⟨key, head, scope, ss'⟩ :: rest')

/-- Fields are like themselves. -/
theorem AlikeFields.refl (catalog : Catalog) (fields : List Collected) :
    AlikeFields catalog fields fields := by
  match fields with
  | [] => exact .nil
  | ⟨key, head, scope, ss⟩ :: rest =>
    exact .cons (fun u _ => AlikeFields.refl catalog (collect catalog u ss))
      (AlikeFields.refl catalog rest)
termination_by weight fields
decreasing_by
  · refine Nat.lt_of_le_of_lt (weight_collect_le ..) ?_
    simp only [weight]
    omega
  · simp only [weight]
    omega

/-- The field with nothing selected below it. -/
def Collected.bare (o : Collected) : Collected := { o with selections := [] }

/-- Occurrences that agree in all but their selections are merged to fields that
are alike, if that holds of all that is selected below each key. -/
theorem alike_foldl_add {os os' : List Collected} (hbare : os.map bare = os'.map bare)
    (hbelow : ∀ key first, os.find? (fun o => o.key = key) = some first →
      ∀ u, first.target? catalog = some u →
        AlikeFields catalog (collect catalog u (merged key os))
          (collect catalog u (merged key os'))) :
    AlikeFields catalog (os.foldl add []) (os'.foldl add []) := by
  induction os using merging_induction generalizing os' with
  | nil =>
    rw [List.map_nil] at hbare
    rw [List.map_eq_nil_iff.mp hbare.symm]
    exact .nil
  | cons o rest ih =>
    obtain ⟨o', rest', rfl⟩ : ∃ o' rest', os' = o' :: rest' := by
      cases os' with
      | nil => cases hbare
      | cons o' rest' => exact ⟨o', rest', rfl⟩
    obtain ⟨key, head, scope, ss⟩ := o
    obtain ⟨key', head', scope', ss'⟩ := o'
    -- the first occurrences are of one field; they differ only in what is selected below
    obtain ⟨hhead, hrest⟩ := List.cons.inj hbare
    cases hhead
    rw [foldl_add_cons_nil, foldl_add_cons_nil]
    refine .cons (fun u htarget => ?_) (ih ?_ ?_)
    · have hown := hbelow key ⟨key, head, scope, ss⟩ (by simp) u htarget
      rw [merged_cons_self ⟨key, head, scope, ss⟩, merged_cons_self ⟨key, head, scope, ss'⟩] at hown
      exact hown
    -- the rest without this key is what `merging_induction` goes on with
    · have hfilter (os : List Collected) :
          (os.filter fun o => o.key ≠ key).map bare
            = (os.map bare).filter fun o => o.key ≠ key := by
        rw [List.filter_map]
        rfl
      rw [hfilter, hfilter, hrest]
    · intro other first hfirst u htarget
      obtain ⟨hother, hfirst⟩ := find?_cons_of_filter (o := ⟨key, head, scope, ss⟩) hfirst
      have hne : key ≠ other := hother.symm
      have hwhole := hbelow other first hfirst u htarget
      rw [merged_cons_other hne, merged_cons_other hne] at hwhole
      rw [merged_filter_other hother, merged_filter_other hother]
      exact hwhole

section

variable {os os' : List Collected} {key : String}

/-- Leaving out what is selected below one key leaves all else. -/
theorem map_bare_of_without (h : os.map (without key) = os'.map (without key)) :
    os.map bare = os'.map bare := by
  have hbare (os : List Collected) : os.map bare = (os.map (without key)).map bare := by
    rw [List.map_map]
    refine List.map_congr_left fun o _ => ?_
    unfold Function.comp without
    split
    · rfl
    · rfl
  rw [hbare, h, ← hbare]

/-- Lists of occurrences alike but for one key merge to the same under every other. -/
theorem merged_of_without (h : os.map (without key) = os'.map (without key)) {other : String}
    (hother : other ≠ key) : merged other os = merged other os' := by
  have hmerged (os : List Collected) : merged other os = merged other (os.map (without key)) := by
    induction os with
    | nil => rfl
    | cons o rest ih =>
      by_cases hkey : o.key = key
      · have hne : o.key ≠ other := by
          intro heq
          exact hother (heq.symm.trans hkey)
        have hbare : (without key o).key ≠ other := by
          simpa [without, hkey] using hne
        rw [List.map_cons, merged_cons_other hne, merged_cons_other hbare, ih]
      · have hsame : without key o = o := if_neg hkey
        rw [List.map_cons, hsame]
        by_cases hne : o.key = other
        · rw [← hne] at ih ⊢
          rw [merged_cons_self, merged_cons_self, ih]
        · rw [merged_cons_other hne, merged_cons_other hne, ih]
  rw [hmerged os, hmerged os', h]

/-- It is enough that what is selected below one key is alike. -/
theorem alike_of_without (h : os.map (without key) = os'.map (without key))
    (hbelow : ∀ first, os.find? (fun o => o.key = key) = some first →
      ∀ u, first.target? catalog = some u →
        AlikeFields catalog (collect catalog u (merged key os))
          (collect catalog u (merged key os'))) :
    AlikeFields catalog (os.foldl add []) (os'.foldl add []) := by
  refine alike_foldl_add (map_bare_of_without h) fun other first hfirst u htarget => ?_
  by_cases hother : other = key
  · subst hother
    exact hbelow first hfirst u htarget
  · rw [merged_of_without h hother]
    exact .refl _ _

end

/-- A rewriting does not change what is collected, at any depth. -/
theorem Rewritten.alike {ss ss' : List Selection} (h : Rewritten catalog t ss ss') :
    AlikeFields catalog (collect catalog t ss) (collect catalog t ss') := by
  have hsame {t : EntityType} {ss ss' : List Selection}
      (h : occurrences catalog t ss = occurrences catalog t ss') :
      AlikeFields catalog (collect catalog t ss) (collect catalog t ss') := by
    rw [collect_eq_foldl, collect_eq_foldl, h]
    exact .refl _ _
  induction h with
  | spread hplace hcondition =>
    refine hsame ?_
    rw [hplace.occurrences_eq, hplace.occurrences_eq, occurrences_singleton,
      occurrencesOne_fragment (Catalog.fragmentScope?_self hcondition)]
  | drop hplace hnone =>
    refine hsame ?_
    rw [hplace.occurrences_eq, hplace.occurrences_eq, occurrences_singleton,
      occurrencesOne_skipped (Catalog.fragmentScope?_eq_none hnone), occurrences]
  | skipped hplace hnone =>
    refine hsame ?_
    rw [hplace.occurrences_eq, hplace.occurrences_eq, occurrences_singleton,
      occurrences_singleton, occurrencesOne_skipped (Catalog.fragmentScope?_eq_none hnone),
      occurrencesOne_skipped (Catalog.fragmentScope?_eq_none hnone)]
  | @merge t u v w _ _ _ before after firstBefore firstAfter secondBefore secondAfter head next
      ss more hplace hfirst hsecond hkey hnext =>
    have hnextKey : (⟨next.responseKey, next, w, more⟩ : Collected).key
        = (⟨head.responseKey, head, v, ss⟩ : Collected).key := hkey
    have hmerged := foldl_add_next hnextKey hnext (before ++ firstBefore) (secondAfter ++ after)
    rw [collect_eq_foldl, collect_eq_foldl, hplace.occurrences_eq, hplace.occurrences_eq,
      occurrences_append, occurrences_append, hfirst.occurrences_eq, hfirst.occurrences_eq,
      hsecond.occurrences_eq, hsecond.occurrences_eq, occurrences_singleton,
      occurrences_singleton, occurrences_singleton, occurrencesOne_field, occurrencesOne_field,
      occurrencesOne_field, occurrences]
    simp only [List.append_assoc, List.cons_append, List.nil_append] at hmerged ⊢
    rw [hmerged]
    exact .refl _ _
  | nested hrest hfirst htarget _ ih =>
    rw [collect_eq_foldl, collect_eq_foldl]
    refine alike_of_without hrest fun first' hfirst' u' htarget' => ?_
    rw [hfirst] at hfirst'
    cases hfirst'
    rw [htarget] at htarget'
    cases htarget'
    exact ih
  | unread hrest hfirst htarget =>
    rw [collect_eq_foldl, collect_eq_foldl]
    refine alike_of_without hrest fun first' hfirst' u' htarget' => ?_
    rw [hfirst] at hfirst'
    cases hfirst'
    rw [htarget] at htarget'
    cases htarget'

end PropertyGraphQL
