/-
What a statement traverses is what the selection follows.

Whatever a statement is for, what it reads of entities is the plan of the selection,
and it shows the traversals of that plan and no other
(`Compiler.planned_of_translates`). So they are the traversals of the paths that the
selection follows, in either dialect, and how many relationships a type has, and
where these lead, makes no difference (`Compiler.traversals_follow_selection`).
-/
import PropertyGraphQL.Proofs.Traversed.Nesting

namespace PropertyGraphQL

open Cypher

-- ============================================================ statements

/-- What is seen of a traversal in a dialect differs in its order alone. -/
theorem Emitted.Follows.seen {catalog : Catalog} {root : String} {path : List String}
    {f : Collected} {e : Emitted} (h : e.Follows catalog root path f) (d : Dialect) :
    (d.seen e).Follows catalog root path f := by
  cases d with
  | staged => exact h
  | comprehension => exact ⟨h.entity, h.relationship⟩

namespace Compiler

variable {c : Compiler} {vars parameters : Dict Json} {entity : String}
  {fields : List Collected} {entries : List (String × Plan)}

/-- Clauses in front that open no traversal do not make a projection deeper. -/
theorem nesting_behind (h : Outcome.Entries c vars parameters entity fields entries)
    (front : List Clause) (hfront : Clause.nesting front = 0) (owner key : String)
    (orderBy : Option OrderBy) (skip limit : Option Int) :
    Clause.nesting (front ++ ((c.projected owner entries).2
        ++ [.returnItems [.aliased (c.projected owner entries).1 key] orderBy skip limit]))
      = Plan.longest (Plan.allPaths entries) := by
  unfold Clause.nesting at *
  have hframes := Walk.start.frames_foldl_le_nesting front
  rw [Walk.nesting_append, nesting_projected h]
  omega

/-- The clauses that read a node nest as deep as its longest path of traversals. -/
theorem nesting_reading (h : Outcome.Entries c vars parameters entity fields entries)
    {front : List Clause} (hfront : Clause.nesting front = 0) (owner key : String) :
    Clause.nesting (front ++ ((if (c.projected owner entries).2.isEmpty then []
          else .withItems [.carried owner] none :: (c.projected owner entries).2)
        ++ [.returnItems [.aliased (c.projected owner entries).1 key] none none none]))
      = Plan.longest (Plan.allPaths entries) := by
  split
  · next hnone =>
    have hbehind := nesting_behind h _ hfront owner key none none none
    rwa [List.isEmpty_iff.mp hnone] at hbehind
  · have hnamed : Clause.nesting (front ++ [.withItems [.carried owner] none]) = 0 :=
      Clause.nesting_concat hfront rfl fun _ => rfl
    have hbehind := nesting_behind h _ hnamed owner key none none none
    rwa [List.append_assoc] at hbehind

variable {f : RootField} {purpose : Purpose} {compiled : Compiled}

/-- Behind a change, a statement shows the traversals of what it reads of the node, of which
nothing is selected where the rows are only counted. -/
theorem planned_of_returning {t : EntityType} {returning : List Clause}
    (h : Outcome.Returning c vars parameters f t entity returning) (front : List Clause)
    (htraversals : Clause.traversals front = []) (hnesting : Clause.nesting front = 0) :
    ∃ entries, Outcome.Entries c vars parameters entity
        (Collected.collect c.catalog t f.selections) entries
      ∧ Clause.traversals (front ++ returning)
        = (Plan.allTraversals entries).map c.options.dialect.seen
      ∧ Clause.nesting (front ++ returning) = Plan.longest (Plan.allPaths entries) := by
  cases h with
  | count hnone =>
    rw [hnone]
    refine ⟨[], .nil, ?_, ?_⟩
    · unfold Clause.traversals at *
      rw [List.foldl_append]
      show (front.foldl Walk.step .start).closed ++ [] = []
      rw [htraversals]
      rfl
    · exact Clause.nesting_concat hnesting rfl fun _ => rfl
  | @selected entries _ hentries =>
    exact ⟨entries, hentries, c.traversals_reading hentries.legible htraversals _ _,
      nesting_reading hentries hnesting _ _⟩

/-- A statement shows the traversals of the plan of what it reads, if it reads anything of
entities. -/
theorem planned_of_translates (h : c.Translates f vars purpose compiled) :
    (∃ t entries, purpose.read? = some t
        ∧ Outcome.Entries c vars compiled.parameters (rootVariable t.name f.head.responseKey)
          (Collected.collect c.catalog t f.selections) entries
        ∧ compiled.body.traversals = (Plan.allTraversals entries).map c.options.dialect.seen
        ∧ compiled.body.nesting = Plan.longest (Plan.allPaths entries))
      ∨ purpose.read? = none ∧ compiled.body.traversals = [] ∧ compiled.body.nesting = 0 := by
  obtain ⟨clauses, hbody, hclauses⟩ := clauses_of_translates h
  rw [hbody]
  -- what selects, creates or updates reads a plan; what deletes or relates only counts
  cases hclauses with
  | @select t a entries _ hentries =>
    exact .inl ⟨t, entries, rfl, hentries,
      c.traversals_behind hentries.legible [_] rfl _ _ _ _ _,
      nesting_behind hentries [_] rfl _ _ _ _ _⟩
  | @create t given properties returning _ _ hreturning =>
    obtain ⟨entries, hentries⟩ := planned_of_returning hreturning
      [.create (.node ⟨some (rootVariable t.name f.head.responseKey), t.allLabels, []⟩),
        .set [.replace (rootVariable t.name f.head.responseKey) properties]] rfl rfl
    exact .inl ⟨t, entries, rfl, hentries⟩
  | @update t id node given properties returning _ _ _ _ hreturning =>
    obtain ⟨entries, hentries⟩ := planned_of_returning hreturning
      [.matching (.node node) false .always,
        .set [.merge (rootVariable t.name f.head.responseKey) properties]] rfl rfl
    exact .inl ⟨t, entries, rfl, hentries⟩
  | delete => exact .inr ⟨rfl, rfl, rfl⟩
  | connect h =>
    cases h
    exact .inr ⟨rfl, rfl, rfl⟩
  | disconnect h =>
    cases h
    exact .inr ⟨rfl, rfl, rfl⟩

/-- Planning goes down from a field to what is read next below it. -/
theorem below_of_fieldPlan {t target : EntityType} {ss : List Selection} {g : Collected}
    (hg : g ∈ Collected.collect c.catalog t ss) {traversal : Traversal} {p q : Parameters}
    (h : (c.fieldPlan g entity).run p = .ok (.inr (traversal, target), q)) :
    Collected.Below c.catalog (target, g.selections) (t, ss) :=
  ⟨g.key, g, Collected.field?_eq_some_iff.mpr ⟨hg, rfl⟩, traversed?_of_fieldPlan h, rfl⟩

-- ==================================================================== results

/-- **What is traversed follows the selection, and never the schema.** Planning goes down from
the collected fields to what they select together, and that ends in every catalog, also where types
are related to themselves or to each other in a circle. A statement has a traversal for every path
of response keys on which every field is a relationship of which entities are read, and no other:
one for each path, and no path comes twice. The field for a key is the first that has it, and what
lies below it is what all of them select, in fragments that may apply. So there are at most as many
traversals as fields are selected, and they lie in one another as deep as the longest path is long,
which is at most as deep as the fields do. -/
theorem traversals_follow_selection (c : Compiler) :
    (WellFounded (Collected.Below c.catalog)
      ∧ ∀ t ss, ∀ g ∈ Collected.collect c.catalog t ss, ∀ entity p traversal target q,
        (c.fieldPlan g entity).run p = .ok (.inr (traversal, target), q) →
          Collected.Below c.catalog (target, g.selections) (t, ss))
    ∧ ∀ f vars purpose compiled, c.Translates f vars purpose compiled →
      ∃ paths : List (List String), paths.Nodup
        ∧ (∀ path, path ∈ paths ↔ ∃ t g, purpose.read? = some t
          ∧ Collected.fieldAt? c.catalog t f.selections path = some g ∧ g.followed? ≠ none)
        ∧ List.Forall₂ (fun e path => ∃ t g, purpose.read? = some t
            ∧ Collected.fieldAt? c.catalog t f.selections path = some g
            ∧ e.Follows c.catalog (rootVariable t.name f.head.responseKey) path g)
          compiled.body.traversals paths
        ∧ compiled.body.traversals.length ≤ Selection.weightAll f.selections
        ∧ compiled.body.nesting = Plan.longest paths
        ∧ compiled.body.nesting ≤ Selection.nestingAll f.selections := by
  refine ⟨⟨Collected.wellFounded_below c.catalog,
    fun t ss g hg entity p traversal target q h => below_of_fieldPlan hg h⟩, ?_⟩
  intro f vars purpose compiled h
  -- a statement that reads nothing has no traversals and no paths
  rcases planned_of_translates h with
    ⟨t, entries, hread, hentries, htraversals, hnesting⟩ | ⟨hread, htraversals, hnesting⟩
  · have hmem (path : List String) : path ∈ Plan.allPaths entries ↔ ∃ t g, purpose.read? = some t
        ∧ Collected.fieldAt? c.catalog t f.selections path = some g ∧ g.followed? ≠ none := by
      rw [hentries.mem_allPaths_iff, hread]
      simp only [Collected.along_collect_iff, Option.some.injEq, exists_and_left, exists_eq_left']
    refine ⟨Plan.allPaths entries, hentries.nodup_allPaths (Collected.nodup_keys_collect _ _), hmem,
      ?_, ?_, hnesting, ?_⟩
    · rw [htraversals, List.forall₂_map_left_iff]
      apply hentries.follows.imp
      intro e path hfollow
      obtain ⟨g, halong, hg⟩ := hfollow
      exact ⟨t, g, hread, Collected.along_collect_iff.mp halong, hg.seen _⟩
    · rw [htraversals, List.length_map]
      exact Nat.le_trans hentries.length_allTraversals_le (Collected.weight_collect_le _ _ _)
    · rw [hnesting]
      apply Plan.longest_le_iff.mpr
      intro path hpath
      obtain ⟨t', g, hread', hg, -⟩ := (hmem path).mp hpath
      cases hread.symm.trans hread'
      exact Collected.length_le_of_fieldAt? hg
  · rw [htraversals, hread]
    refine ⟨[], List.nodup_nil, ?_, .nil, Nat.zero_le _, hnesting, ?_⟩
    · simp
    · rw [hnesting]
      exact Nat.zero_le _

/-- People with their movies and who else acts in these: both are traversed, one inside the
other, although a person has movies again. -/
theorem traversals_follow_selection_people :
    ∃ (compiled : Compiled) (paths : List (List String)),
      (Compiler.movies .staged).Translates .people RootField.peopleVars (.select .person) compiled
      ∧ paths.Nodup ∧ ["movies"] ∈ paths ∧ ["movies", "actors"] ∈ paths ∧ ["name"] ∉ paths
      ∧ compiled.body.traversals.length = paths.length
      ∧ compiled.body.traversals.length ≤ 5 ∧ compiled.body.nesting ≤ 3 := by
  obtain ⟨compiled, h⟩ := translates_people .staged
  obtain ⟨-, hall⟩ := traversals_follow_selection (.movies .staged)
  obtain ⟨paths, hnodup, hpaths, hfollow, hlength, -, hnesting⟩ := hall _ _ _ _ h
  refine ⟨compiled, paths, h, hnodup, ?_, ?_, ?_, hfollow.length_eq, hlength, hnesting⟩
  · exact (hpaths _).mpr ⟨_, _, rfl, rfl, nofun⟩
  · exact (hpaths _).mpr ⟨_, _, rfl, rfl, nofun⟩
  · rw [hpaths]
    rintro ⟨t, g, ht, hg, hfollowed⟩
    cases ht
    cases hg
    exact hfollowed rfl

end Compiler

end PropertyGraphQL
