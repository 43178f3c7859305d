/-
How deep the traversals of a statement lie in one another.

This is read from a statement as the traversals themselves are. Comprehensions lie
in the projections of others (`Expression.nesting`). In clauses, a traversal lies in
those that are open when it is opened, so the walk over the clauses counts these
(`Walk.nesting`). In both dialects it comes to the length of the longest path that is
followed.
-/
import PropertyGraphQL.Proofs.Dialects.Statement
import PropertyGraphQL.Proofs.Traversed.Plan

namespace PropertyGraphQL

open Cypher

-- ================================================================== paths

namespace Plan

/-- The length of the longest path. -/
def longest (paths : List (List String)) : Nat := (paths.map List.length).foldr max 0

/-- The longest path of two lists is the longer one of their longest. -/
theorem longest_append (paths more : List (List String)) :
    longest (paths ++ more) = max (longest paths) (longest more) := by
  induction paths with
  | nil => simp [longest]
  | cons path rest ih =>
    have hcons (paths : List (List String)) :
        longest (path :: paths) = max path.length (longest paths) := rfl
    rw [List.cons_append, hcons, hcons, ih, Nat.max_assoc]

/-- Below a key paths are one longer. -/
theorem longest_below (key : String) (paths : List (List String)) :
    longest ([key] :: paths.map (key :: ·)) = longest paths + 1 := by
  induction paths with
  | nil => rfl
  | cons path rest ih =>
    unfold longest at *
    simp only [List.map_cons, List.foldr_cons, List.length_cons, List.length_nil] at *
    omega

/-- A number bounds the longest path exactly if it bounds all paths. -/
theorem longest_le_iff {paths : List (List String)} {n : Nat} :
    longest paths ≤ n ↔ ∀ path ∈ paths, path.length ≤ n := by
  induction paths with
  | nil => simp [longest]
  | cons path rest ih =>
    have hcons : longest (path :: rest) = max path.length (longest rest) := rfl
    rw [hcons, Nat.max_le, ih, List.forall_mem_cons]

end Plan

-- ========================================================== comprehensions

namespace Cypher.Expression

mutual

/-- How deep traversals lie in one another in an expression. -/
def nesting : Expression → Nat
  | .call "head" [source] => nesting source
  | .slice source _ _ => nesting source
  | .patternComprehension _ _ result => nesting result + 1
  | .listComprehension _ _ _ (some result) => nesting result + 1
  | .projection _ items => itemNesting items
  | _ => 0

def itemNesting : List MapItem → Nat
  | [] => 0
  | .property _ :: rest => itemNesting rest
  | .entry _ value :: rest => max (nesting value) (itemNesting rest)

end

/-- What is read from an entity holds no traversal. -/
theorem Reading.nesting {parameters : Dict Json} {entity : String} {e : Expression}
    (h : e.Reading parameters entity) : e.nesting = 0 := by
  induction h with
  | ground h => cases h <;> rfl
  | var | property | map => rfl
  | @call function args h ih =>
    rw [Expression.nesting.eq_def]
    split
    case h_1 hcall =>
      cases hcall
      exact ih _ List.mem_cons_self
    case h_6 => rfl
    all_goals contradiction

/-- A slice nests as deep as the list. -/
theorem nesting_sliced (e : Expression) (lower upper : Option Int) :
    (e.sliced lower upper).nesting = e.nesting := by
  unfold sliced
  split
  · rfl
  · rfl

/-- The items of a projection nest as deep as the deepest of their expressions. -/
theorem itemNesting_projectionItem (entity key : String) (value : Expression)
    (rest : List MapItem) :
    itemNesting (projectionItem entity key value :: rest)
      = max value.nesting (itemNesting rest) := by
  unfold projectionItem
  split
  · split
    · exact (Nat.zero_max _).symm
    · rfl
  · rfl

end Cypher.Expression

namespace Traversal

variable {t : Traversal}

/-- The first element of a list nests as deep as the list. -/
theorem nesting_single (t : Traversal) (list : Expression) :
    (t.single list).nesting = list.nesting := by
  unfold single
  cases t.multi with
  | true => rfl
  | false => rfl

/-- The comprehension of a traversal lies one deeper than what is projected in it. -/
theorem nesting_related (t : Traversal) (sortFunction : String) (items : List MapItem) :
    (t.single (t.related sortFunction (.projection t.entity items))).nesting
      = Expression.itemNesting items + 1 := by
  rw [nesting_single]
  unfold related
  dsimp only
  split
  · rw [Expression.nesting_sliced]
    unfold projected
    cases t.source with
    | none => rfl
    | some source => rfl
  · rfl

end Traversal

namespace Outcome.Entries

variable {c : Compiler} {vars parameters : Dict Json} {entity : String}
  {fields : List Collected} {entries : List (String × Plan)}

/-- The projection of an entity is as deep as the longest path. -/
theorem itemNesting_projectionItems (h : Entries c vars parameters entity fields entries)
    (sortFunction owner : String) :
    Expression.itemNesting (Plan.projectionItems sortFunction owner entries)
      = Plan.longest (Plan.allPaths entries) := by
  induction h generalizing owner with
  | nil => rfl
  | value hfield _ ih =>
    rw [Plan.projectionItems, Expression.itemNesting_projectionItem, Plan.expression,
      hfield.reading.nesting, ih, Nat.zero_max]
    rfl
  | traversal _ _ _ ihbelow ihrest =>
    rw [Plan.projectionItems, Expression.itemNesting_projectionItem, Plan.expression,
      Traversal.nesting_related, ihbelow, ihrest, Plan.allPaths, Plan.paths,
      Plan.longest_append, Plan.longest_below]

end Outcome.Entries

-- ================================================================= clauses

/-- How deep traversals lie in one another in what a clause returns. -/
def Cypher.Clause.depth : Clause → Nat
  | .returnItems items _ _ _ => (items.map (·.expression.nesting)).foldr max 0
  | _ => 0

namespace Walk

/-- How deep traversals lie in one another while clauses are read. -/
def nesting (w : Walk) : List Clause → Nat
  | [] => w.frames.length
  | clause :: rest => max (w.frames.length + clause.depth) (nesting (w.step clause) rest)

/-- A walk nests at least as deep as it stands now. -/
theorem frames_le_nesting (w : Walk) (clauses : List Clause) :
    w.frames.length ≤ w.nesting clauses := by
  cases clauses with
  | nil => exact Nat.le_refl _
  | cons clause rest =>
    rw [nesting]
    omega

/-- Over clauses one after another a walk nests as deep as over the deeper ones. -/
theorem nesting_append (w : Walk) (clauses more : List Clause) :
    w.nesting (clauses ++ more)
      = max (w.nesting clauses) ((clauses.foldl step w).nesting more) := by
  induction clauses generalizing w with
  | nil =>
    have hframes := w.frames_le_nesting more
    rw [List.nil_append, nesting, List.foldl_nil]
    omega
  | cons clause rest ih =>
    rw [List.cons_append, nesting, nesting, ih, List.foldl_cons, Nat.max_assoc]

/-- What is open behind clauses was open in them. -/
theorem frames_foldl_le_nesting (w : Walk) (clauses : List Clause) :
    (clauses.foldl step w).frames.length ≤ w.nesting clauses := by
  have happend := w.nesting_append clauses []
  rw [List.append_nil, nesting] at happend
  omega

/-- The clauses that bind the related entities go one deeper. -/
theorem nesting_opening {t : Traversal} (h : ∀ source ∈ t.source, source.IsRun)
    (scope : List String) (w : Walk) : w.nesting (t.opening scope) = w.frames.length + 1 := by
  have hcollected := Traversal.collected?_matching h
  unfold Traversal.opening
  cases hsource : t.source with
  | none =>
    show max (w.frames.length + 0) (w.frames.length + 1) = _
    omega
  | some source =>
    dsimp only
    rw [nesting, step_carrying, column_none hcollected]
    show max (w.frames.length + 0) (max (w.frames.length + 0) (w.frames.length + 1)) = _
    omega

/-- The clauses that sort open no traversal. -/
theorem nesting_sorting (t : Traversal) (scope : List String) (frame : Frame)
    (frames : List Frame) (list : Expression) (closed : List Emitted) :
    Walk.nesting ⟨frame :: frames, list, closed⟩ (t.sorting scope) = frames.length + 1 := by
  unfold Traversal.sorting
  cases t.arguments.orderByClause t.entity with
  | none => rfl
  | some order => exact Nat.max_self _

/-- The clauses that close a traversal open no other. -/
theorem nesting_closing (t : Traversal) (scope : List String) (result : Expression)
    (frame : Frame) (frames : List Frame) (list : Expression) (closed : List Emitted) :
    Walk.nesting ⟨frame :: frames, list, closed⟩ (t.closing scope result) = frames.length + 1 := by
  have hclosing := foldl_closing t scope result frame frames list closed
  unfold Traversal.closing at *
  rw [List.foldl_cons, List.foldl_nil] at hclosing
  rw [nesting, hclosing]
  show max (frames.length + 1 + 0) frames.length = _
  omega

end Walk

namespace Outcome.Entries

variable {c : Compiler} {vars parameters : Dict Json} {entity : String}
  {fields : List Collected} {entries : List (String × Plan)}

/-- The clauses of a plan go as deep as its longest path. -/
theorem nesting_stageEntries (h : Entries c vars parameters entity fields entries)
    (scope : List String) (w : Walk) :
    w.nesting (Plan.stageEntries scope entries).clauses
      = w.frames.length + Plan.longest (Plan.allPaths entries) := by
  induction h generalizing scope w with
  | nil => rfl
  | value _ _ ih => exact ih scope w
  | @traversal entity f rest t target below more hfield hbelow _ ihbelow ihrest =>
    obtain ⟨list, hopening⟩ := Walk.foldl_opening hfield.isRun scope w
    obtain ⟨list', hwalk⟩ := hbelow.legible.walk_stageEntries (scope ++ [t.entity])
      ⟨⟨w.closed, t.origin, t.arguments.condition, []⟩ :: w.frames, list, []⟩
    have hsorting := Walk.foldl_sorting t (Plan.stageEntries (scope ++ [t.entity]) below).scope
      ⟨w.closed, t.origin, t.arguments.condition, []⟩ w.frames list' (Plan.allTraversals below) rfl
    rw [Plan.stageEntries, Plan.stage]
    dsimp only
    simp only [Walk.nesting_append, List.foldl_append, hopening, ihbelow, hwalk, List.nil_append,
      Walk.nesting_opening hfield.isRun, Walk.nesting_sorting, hsorting, Walk.nesting_closing,
      Walk.foldl_closing, ihrest, Plan.allPaths, Plan.paths, Plan.longest_append,
      Plan.longest_below, List.length_cons]
    omega

end Outcome.Entries

namespace Compiler

variable {c : Compiler} {vars parameters : Dict Json} {entity : String}
  {fields : List Collected} {entries : List (String × Plan)}

/-- The projection of an entity, behind the clauses that it needs, goes as deep as the
longest path. -/
theorem nesting_projected (h : Outcome.Entries c vars parameters entity fields entries)
    (owner key : String) (orderBy : Option OrderBy) (skip limit : Option Int) (w : Walk) :
    w.nesting ((c.projected owner entries).2
        ++ [.returnItems [.aliased (c.projected owner entries).1 key] orderBy skip limit])
      = w.frames.length + Plan.longest (Plan.allPaths entries) := by
  unfold projected
  cases c.options.dialect with
  | staged =>
    obtain ⟨list, hwalk⟩ := h.legible.walk_stageEntries [owner] w
    dsimp only
    rw [Walk.nesting_append, h.nesting_stageEntries, hwalk]
    show max _ (max (w.frames.length + max 0 0) w.frames.length) = _
    omega
  | comprehension =>
    show max (w.frames.length + max (Expression.itemNesting _) 0) w.frames.length = _
    rw [h.itemNesting_projectionItems]
    omega

end Compiler

/-- How deep the traversals of clauses lie in one another. -/
def Cypher.Clause.nesting (clauses : List Clause) : Nat := Walk.start.nesting clauses

/-- How deep the traversals of a statement lie in one another; none are read from a
statement that is written by hand. -/
def StatementBody.nesting : StatementBody → Nat
  | .clauses statement => Clause.nesting statement.clauses
  | .written _ _ => 0

/-- A clause behind others that neither opens a traversal nor returns one adds none. -/
theorem Cypher.Clause.nesting_concat {front : List Clause} (hfront : Clause.nesting front = 0)
    {clause : Clause} (hdepth : clause.depth = 0)
    (hstep : ∀ w : Walk, (w.step clause).frames = w.frames) :
    Clause.nesting (front ++ [clause]) = 0 := by
  unfold Clause.nesting at *
  have hframes := Walk.start.frames_foldl_le_nesting front
  rw [Walk.nesting_append, Walk.nesting, Walk.nesting, hstep, hdepth]
  omega

end PropertyGraphQL
