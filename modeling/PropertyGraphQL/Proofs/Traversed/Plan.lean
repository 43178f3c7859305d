/-
The traversals of a plan, path by path.

A plan has a traversal for every path of response keys on which every field is
followed, and no other (`Outcome.Entries.mem_allPaths_iff`). No path comes twice,
since collected fields have different keys (`Outcome.Entries.nodup_allPaths`). Each
traversal is that of the field at the end of its path (`Outcome.Entries.follows`),
and as merging never adds fields, there are at most as many as fields are selected.
-/
import PropertyGraphQL.Proofs.Dialects.Plan
import PropertyGraphQL.Proofs.Selection.Statement
import PropertyGraphQL.Proofs.Traversed.Paths

namespace PropertyGraphQL

open Cypher

-- ================================================================== paths

namespace Plan

mutual

/-- The paths of the traversals of a plan, each before those below it. -/
def allPaths : List (String × Plan) → List (List String)
  | [] => []
  | (key, plan) :: rest => paths key plan ++ allPaths rest

def paths (key : String) : Plan → List (List String)
  | .value _ => []
  | .traversal _ below => [key] :: (allPaths below).map (key :: ·)

end

/-- The variable of the entities that a path leads to from others. -/
def variableAt (entity : String) (path : List String) : String :=
  path.foldl (fun entity key => entity ++ "_" ++ key) entity

end Plan

/-- What a statement shows of the traversal that follows the relationship of the field at the
end of a path: whether the relationship is a list, the keys of what is read from the entities,
and, unless a statement gives these, the pattern that leads to them. -/
structure Emitted.Follows (catalog : Catalog) (root : String) (path : List String)
    (f : Collected) (e : Emitted) : Prop where
  entity : e.entity = Plan.variableAt root path
  relationship : ∃ r target, f.followed? = some r
    ∧ catalog.type? r.shape.targetType = some target ∧ e.multi = r.multi
    ∧ e.keys = ((Collected.occurrences catalog target f.selections).map (·.key)).eraseDups
    ∧ (r.custom = none → e.origin = .inl
      (r.shape.pattern (Plan.variableAt root path.dropLast) e.entity target.name))

/-- What a statement shows is the traversal for the field that a path along others leads to. -/
def Emitted.FollowsAlong (catalog : Catalog) (fields : List Collected) (root : String)
    (e : Emitted) (path : List String) : Prop :=
  ∃ f, Collected.Along catalog fields path f ∧ e.Follows catalog root path f

namespace Emitted.FollowsAlong

variable {catalog : Catalog} {fields rest : List Collected} {root : String} {path : List String}
  {e : Emitted}

/-- A traversal that follows some of the fields follows them among more. -/
theorem mono (h : e.FollowsAlong catalog rest root path) (hsub : rest ⊆ fields) :
    e.FollowsAlong catalog fields root path := by
  obtain ⟨g, halong, hg⟩ := h
  exact ⟨g, halong.mono hsub, hg⟩

/-- A path from the entities that a field leads to goes on behind the key of the field. -/
theorem below {f : Collected} {target : EntityType} (hf : f ∈ fields)
    (htarget : f.traversed? catalog = some target)
    (h : e.FollowsAlong catalog (Collected.collect catalog target f.selections)
      (root ++ "_" ++ f.key) path) : e.FollowsAlong catalog fields root (f.key :: path) := by
  obtain ⟨g, halong, hentity, hg⟩ := h
  have hpath : path ≠ [] := by
    rintro rfl
    exact Collected.Along.not_nil halong
  refine ⟨g, .inside hf htarget halong, hentity, ?_⟩
  rw [List.dropLast_cons_of_ne_nil hpath]
  exact hg

end Emitted.FollowsAlong

namespace Outcome

variable {c : Compiler} {vars parameters : Dict Json} {entity : String}

/-- A value is read for a field that is not followed. -/
theorem Field.followed?_value {f : Collected} {e : Expression}
    (h : Field c vars parameters f entity (.inl e)) : f.followed? = none := by
  unfold Collected.followed?
  cases h with
  | id hname | labels hname | typeName hname => simp [Collected.relationship?, hname]
  | property hname hproperty => simp [Collected.relationship?, hproperty]
  | relationship hname hproperty hr h =>
    rw [Collected.relationship?_eq_some_iff.mpr ⟨hname, hproperty, hr⟩]
    cases h with
    | passThrough _ hcustom hpass => simp [hcustom, hpass]

/-- A traversal follows the relationship of its field. -/
theorem Field.followed?_traversal {f : Collected} {traversal : Traversal} {target : EntityType}
    (h : Field c vars parameters f entity (.inr (traversal, target))) :
    ∃ r, f.followed? = some r ∧ c.catalog.type? r.shape.targetType = some target
      ∧ traversal.multi = r.multi ∧ traversal.entity = entity ++ "_" ++ f.key
      ∧ (r.custom = none → traversal.origin = .inl
        (r.shape.pattern entity traversal.entity target.name)) := by
  unfold Collected.followed?
  cases h with
  | @relationship r _ hname hproperty hr h =>
    rw [Collected.relationship?_eq_some_iff.mpr ⟨hname, hproperty, hr⟩]
    refine ⟨r, ?_⟩
    cases h with
    | plain htarget hcustom => exact ⟨by simp [hcustom], htarget, rfl, rfl, fun _ => rfl⟩
    | listed htarget hcustom hpass =>
      refine ⟨by simp [hcustom, hpass], htarget, rfl, rfl, fun hnone => ?_⟩
      rw [hcustom] at hnone
      cases hnone

namespace Entries

variable {fields : List Collected} {entries : List (String × Plan)}

/-- Every traversal of a plan follows the relationship at the end of its path. -/
theorem follows (h : Entries c vars parameters entity fields entries) :
    List.Forall₂ (Emitted.FollowsAlong c.catalog fields entity)
      (Plan.allTraversals entries) (Plan.allPaths entries) := by
  induction h with
  | nil => exact .nil
  | value _ _ ih => exact ih.imp fun _ _ h => h.mono (List.subset_cons_self _ _)
  | @traversal entity f rest t target below more hfield hbelow _ ihbelow ihrest =>
    obtain ⟨r, hr, htarget, hmulti, hentity, horigin⟩ := hfield.followed?_traversal
    have hkeys : below.map Prod.fst
        = ((Collected.occurrences c.catalog target f.selections).map (·.key)).eraseDups :=
      hbelow.keys.trans (Collected.keys_collect target f.selections)
    have hfirst : f ∈ f :: rest := List.mem_cons_self
    rw [Plan.allTraversals, Plan.traversals, Plan.allPaths, Plan.paths]
    apply List.rel_append
    · apply List.Forall₂.cons
      · exact ⟨f, .here hfirst, hentity, r, target, hr, htarget, hmulti, hkeys, horigin⟩
      · rw [List.forall₂_map_right_iff]
        rw [hentity] at ihbelow
        exact ihbelow.imp fun _ _ h => .below hfirst hfield.traversed? h
    · exact ihrest.imp fun _ _ h => h.mono (List.subset_cons_self _ _)

/-- A plan has the paths on which every field is followed. -/
theorem mem_allPaths_iff (h : Entries c vars parameters entity fields entries)
    {path : List String} : path ∈ Plan.allPaths entries
      ↔ ∃ f, Collected.Along c.catalog fields path f ∧ f.followed? ≠ none := by
  induction h generalizing path with
  | nil =>
    rw [Plan.allPaths]
    refine iff_of_false List.not_mem_nil fun ⟨g, halong, _⟩ => ?_
    obtain ⟨_, _, -, hkey⟩ := halong.head
    cases hkey
  | value hfield _ ih =>
    rw [Plan.allPaths, Plan.paths, List.nil_append, Collected.Along.exists_cons_iff, ih]
    constructor
    · exact fun hrest => .inr (.inr hrest)
    -- a field that reads a value leads nowhere
    · rintro (⟨-, hf⟩ | ⟨target, _, htarget, -⟩ | hrest)
      · exact absurd hfield.followed?_value hf
      · cases hfield.traversed?.symm.trans htarget
      · exact hrest
  | @traversal entity f rest t target below more hfield _ _ ihbelow ihrest =>
    obtain ⟨r, hr, -⟩ := hfield.followed?_traversal
    rw [Plan.allPaths, Plan.paths, Collected.Along.exists_cons_iff, List.mem_append,
      List.mem_cons, List.mem_map, ihrest]
    constructor
    · rintro ((hpath | ⟨more, hmore, rfl⟩) | hrest)
      · exact .inl ⟨hpath, hr ▸ Option.some_ne_none r⟩
      · exact .inr (.inl ⟨target, more, hfield.traversed?, rfl, ihbelow.mp hmore⟩)
      · exact .inr (.inr hrest)
    · rintro (⟨hpath, -⟩ | ⟨target', more, htarget, rfl, hmore⟩ | hrest)
      · exact .inl (.inl hpath)
      · cases hfield.traversed?.symm.trans htarget
        exact .inl (.inr ⟨more, ihbelow.mpr hmore, rfl⟩)
      · exact .inr hrest

/-- No traversal has the empty path. -/
theorem nil_notMem_allPaths (h : Entries c vars parameters entity fields entries) :
    [] ∉ Plan.allPaths entries := by
  intro hmem
  obtain ⟨_, halong, -⟩ := h.mem_allPaths_iff.mp hmem
  exact Collected.Along.not_nil halong

/-- Where fields have different keys, no path comes twice. -/
theorem nodup_allPaths (h : Entries c vars parameters entity fields entries)
    (hkeys : (fields.map (·.key)).Nodup) : (Plan.allPaths entries).Nodup := by
  induction h with
  | nil => exact List.nodup_nil
  | value _ _ ih => exact ih (List.nodup_cons.mp hkeys).2
  | @traversal entity f rest t target below more _ hbelow hrest ihbelow ihrest =>
    obtain ⟨hkey, hothers⟩ := List.nodup_cons.mp hkeys
    rw [Plan.allPaths, Plan.paths]
    apply List.nodup_append.mpr
    refine ⟨?_, ihrest hothers, ?_⟩
    · apply List.nodup_cons.mpr
      refine ⟨?_, ?_⟩
      · intro hmem
        obtain ⟨path, hpath, heq⟩ := List.mem_map.mp hmem
        cases heq
        exact hbelow.nil_notMem_allPaths hpath
      · exact (ihbelow (Collected.nodup_keys_collect _ _)).map (List.cons_injective (a := f.key))
    · -- a path along the other fields begins with another key
      intro path hpath path' hpath' heq
      obtain ⟨_, halong, -⟩ := hrest.mem_allPaths_iff.mp hpath'
      obtain ⟨key, _, rfl, hmem⟩ := halong.head
      have hfirst : key = f.key := by
        rcases List.mem_cons.mp hpath with rfl | hpath
        · cases heq
          rfl
        · obtain ⟨_, _, rfl⟩ := List.mem_map.mp hpath
          cases heq
          rfl
      rw [hfirst] at hmem
      exact hkey hmem

/-- There are no more traversals than fields. -/
theorem length_allTraversals_le (h : Entries c vars parameters entity fields entries) :
    (Plan.allTraversals entries).length ≤ Collected.weight fields := by
  induction h with
  | nil => exact Nat.zero_le _
  | value _ _ ih =>
    rw [Plan.allTraversals, Plan.traversals, List.nil_append, Collected.weight]
    omega
  | @traversal entity f rest t target below more _ _ _ ihbelow ihrest =>
    have hweight := Collected.weight_collect_le c.catalog target f.selections
    rw [Plan.allTraversals, Plan.traversals, List.length_append, List.length_cons,
      Collected.weight]
    omega

end Entries

end Outcome

end PropertyGraphQL
