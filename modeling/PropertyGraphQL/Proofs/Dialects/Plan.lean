/-
Both writings of a plan are read back as the traversals of the plan.

What the reader of statements finds in the projection that is made of
comprehensions, and on its walk over the clauses, are the traversals of the
plan in their order (`traversals_projectionItems`, `walk_stageEntries`). One
thing is lost: behind a caret the function that sorts expects a key in
ascending order, so a property whose own name begins with a caret cannot be
asked for in descending order (`Emitted.bySortKeys`).
-/
import PropertyGraphQL.Proofs.Dialects.Traversals
import PropertyGraphQL.Proofs.Outcome.Form

namespace PropertyGraphQL

open Cypher

-- ============================================================== sort keys

/-- The order that is understood where one is written as a key of the function
that sorts. -/
def asSortKey : Expression × SortOrder → Expression × SortOrder
  | (.property entity property, order) =>
      sortKeyOrder entity (Traversal.sortKey property order)
  | other => other

namespace Emitted

/-- The traversal as it is understood where its order is written by keys of the
function that sorts. -/
def bySortKeys (e : Emitted) : Emitted := { e with order := e.order.map asSortKey }

/-- Nothing is sorted in descending order by a property whose name begins with
a caret. -/
def Sortable (e : Emitted) : Prop :=
  ∀ entity property, (.property entity ("^" ++ property), .descending) ∉ e.order

end Emitted

/-- An ascending key is understood as it is meant. -/
theorem asSortKey_ascending (entity property : String) :
    asSortKey (.property entity property, .ascending)
      = (.property entity property, .ascending) := by
  have hdrop : Text.dropLead? ("^" ++ property) "^" = some property :=
    Text.dropLead?_eq_some_iff.mpr rfl
  simp only [asSortKey, Traversal.sortKey, sortKeyOrder, hdrop]

/-- A caret in front of the property itself is taken for the one that says
ascending. -/
theorem asSortKey_descending_caret (entity property : String) :
    asSortKey (.property entity ("^" ++ property), .descending)
      = (.property entity property, .ascending) := by
  have hdrop : Text.dropLead? ("^" ++ property) "^" = some property :=
    Text.dropLead?_eq_some_iff.mpr rfl
  simp only [asSortKey, Traversal.sortKey, sortKeyOrder, hdrop]

/-- A descending key is understood as it is meant, unless the name of the property begins with a
caret. -/
theorem asSortKey_descending {entity property : String}
    (h : ∀ rest, property ≠ "^" ++ rest) :
    asSortKey (.property entity property, .descending)
      = (.property entity property, .descending) := by
  have hdrop : Text.dropLead? property "^" = none := by
    refine Option.eq_none_iff_forall_ne_some.mpr fun rest hrest => ?_
    exact h rest (Text.dropLead?_eq_some_iff.mp hrest)
  simp only [asSortKey, Traversal.sortKey, sortKeyOrder, hdrop]

/-- Keys say what they should, but for a caret in front of the property itself. -/
theorem asSortKey_eq_self_iff (o : Expression × SortOrder) :
    asSortKey o = o ↔
      ∀ entity property, o ≠ (.property entity ("^" ++ property), .descending) := by
  constructor
  · rintro h entity property rfl
    rw [asSortKey_descending_caret] at h
    cases (Prod.mk.inj h).2
  · intro h
    obtain ⟨e, order⟩ := o
    cases e with
    | property entity property =>
      cases order with
      | ascending => exact asSortKey_ascending entity property
      | descending =>
        exact asSortKey_descending fun rest heq => h entity rest (by rw [heq])
    | _ => rfl

/-- A list is mapped to itself exactly if each of its elements is. -/
theorem map_eq_self_iff {α : Type} (f : α → α) (l : List α) :
    l.map f = l ↔ ∀ a ∈ l, f a = a := by
  have h := List.map_inj_left (f := f) (g := id) (l := l)
  rwa [List.map_id] at h

/-- Keys are understood as they are meant exactly if the order can be written by keys. -/
theorem Emitted.bySortKeys_eq_self_iff (e : Emitted) : e.bySortKeys = e ↔ e.Sortable := by
  have horder : e.bySortKeys = e ↔ e.order.map asSortKey = e.order := by
    obtain ⟨entity, origin, condition, order, bounds, multi, keys⟩ := e
    simp only [bySortKeys, Emitted.mk.injEq, true_and, and_true]
  rw [horder, map_eq_self_iff]
  constructor
  · intro h entity property hmem
    exact (asSortKey_eq_self_iff _).mp (h _ hmem) entity property rfl
  · intro h o hmem
    exact (asSortKey_eq_self_iff o).mpr fun entity property heq => h entity property (heq ▸ hmem)

/-- All traversals are understood as they are meant just if they are sortable. -/
theorem Emitted.map_bySortKeys_eq_self_iff (es : List Emitted) :
    es.map bySortKeys = es ↔ ∀ e ∈ es, e.Sortable := by
  rw [map_eq_self_iff]
  exact forall₂_congr fun e _ => e.bySortKeys_eq_self_iff

-- ===================================================== traversals of plans

namespace Traversal

/-- Where the related entities come from. -/
def origin (t : Traversal) : Pattern ⊕ Expression :=
  match t.source with
  | none => .inl t.pattern
  | some source => .inr source

/-- The order of the related entities. -/
def order (t : Traversal) : OrderBy := (t.arguments.orderByClause t.entity).getD []

/-- What a statement shows of the traversal, with what is read from the related
entities. -/
def emitted (t : Traversal) (keys : List String) : Emitted :=
  ⟨t.entity, t.origin, t.arguments.condition, t.order, t.arguments.bounds, t.multi, keys⟩

end Traversal

namespace Plan

mutual

/-- The traversals of what is read from an entity, each before those below it. -/
def allTraversals : List (String × Plan) → List Emitted
  | [] => []
  | (_, plan) :: rest => traversals plan ++ allTraversals rest

def traversals : Plan → List Emitted
  | .value _ => []
  | .traversal t below => t.emitted (below.map Prod.fst) :: allTraversals below

end

end Plan

/-- An expression that runs a statement. -/
def Cypher.Expression.IsRun (e : Expression) : Prop :=
  ∃ function statement parameters list, e = .call function [statement, parameters, list]

/-- What is read at once is no traversal, and a list of related entities is
the result of a statement. -/
inductive Plan.Legible : List (String × Plan) → Prop where
  | nil : Legible []
  | value {key : String} {e : Expression} {rest : List (String × Plan)}
      (h : ∀ multi bounds, e.traversals multi bounds = []) (hrest : Legible rest) :
      Legible ((key, .value e) :: rest)
  | traversal {key : String} {t : Traversal} {below rest : List (String × Plan)}
      (h : ∀ source ∈ t.source, source.IsRun) (hbelow : Legible below)
      (hrest : Legible rest) : Legible ((key, .traversal t below) :: rest)

namespace Cypher.Expression

/-- What is read from an entity holds no traversal. -/
theorem Reading.traversals {parameters : Dict Json} {entity : String} {e : Expression}
    (h : e.Reading parameters entity) (multi : Bool) (bounds : Option Int × Option Int) :
    e.traversals multi bounds = [] := by
  induction h generalizing multi bounds with
  | ground h => cases h <;> rfl
  | var | property | map => rfl
  | @call function args h ih =>
    rw [Expression.traversals.eq_def]
    split
    case h_1 hcall =>
      cases hcall
      exact ih _ List.mem_cons_self _ _
    case h_6 => rfl
    all_goals contradiction

end Cypher.Expression

namespace Outcome

variable {c : Compiler} {vars parameters : Dict Json} {entity : String}

/-- The call of a statement runs a statement. -/
theorem Call.isRun {custom : CustomStatement} {declared : Dict DeclaredArgument}
    {head : FieldHead} {list : Bool} {call : Expression}
    (h : Call c vars parameters custom declared head entity list call) : call.IsRun := by
  obtain ⟨-⟩ := h
  exact ⟨_, _, _, _, rfl⟩

/-- Where a traversal has a source of its own, that runs a statement. -/
theorem Field.isRun {f : Collected} {t : Traversal} {target : EntityType}
    (h : Field c vars parameters f entity (.inr (t, target))) :
    ∀ source ∈ t.source, source.IsRun := by
  cases h with
  | relationship _ _ _ h =>
    cases h with
    | plain => exact nofun
    | listed _ _ _ hsource =>
      rintro source ⟨⟩
      exact hsource.isRun

/-- What is planned for fields can be read off the clauses. -/
theorem Entries.legible {fields : List Collected} {entries : List (String × Plan)}
    (h : Entries c vars parameters entity fields entries) : Plan.Legible entries := by
  induction h with
  | nil => exact .nil
  | value h _ ih => exact .value h.reading.traversals ih
  | traversal h _ _ ihbelow ihrest => exact .traversal h.isRun ihbelow ihrest

end Outcome

-- ================================================================ lists

namespace Cypher.Expression

variable {e : Expression}

theorem IsRun.cut (h : e.IsRun) : e.cut = (e, none, none) := by
  obtain ⟨_, _, _, _, rfl⟩ := h
  rfl

theorem IsRun.listed (h : e.IsRun) : e.listed = (.inr e, .always) := by
  obtain ⟨_, _, _, _, rfl⟩ := h
  rfl

/-- A call that runs a statement is kept whole. -/
theorem IsRun.whole (h : e.IsRun) : e.whole = (e, true) := by
  obtain ⟨_, _, _, _, rfl⟩ := h
  unfold Expression.whole
  split
  · next heq => cases heq
  · rfl

/-- A call that runs a statement is a source that is not sorted. -/
theorem IsRun.listTraversal (h : e.IsRun) (binder : String) (condition : Predicate)
    (bounds : Option Int × Option Int) (multi : Bool) (keys : List String) :
    listTraversal binder e condition bounds multi keys
      = ⟨binder, .inr e, condition, [], bounds, multi, keys⟩ := by
  unfold Expression.listTraversal
  rw [h.cut]
  obtain ⟨_, _, _, _, rfl⟩ := h
  split
  · next heq => cases heq
  · rfl

/-- A call that runs a statement collects nothing. -/
theorem IsRun.collected? (h : e.IsRun) : e.collected? = none := by
  unfold Expression.collected?
  rw [h.whole, h.cut]
  obtain ⟨_, _, _, _, rfl⟩ := h
  split
  · next heq => cases heq
  · rfl

/-- A list that is not cut may be cut, and the bounds are seen. -/
theorem cut_sliced (h : e.cut = (e, none, none)) (lower upper : Option Int) :
    (e.sliced lower upper).cut = (e, lower, upper) := by
  unfold sliced
  split
  · exact h
  · rfl

end Cypher.Expression

namespace Traversal

variable {t : Traversal}

/-- What a traversal matches is listed from its origin, under its condition. -/
theorem listed_matching (h : ∀ source ∈ t.source, source.IsRun) :
    t.matching.listed = (t.origin, t.arguments.condition) := by
  unfold matching origin
  cases hsource : t.source with
  | none => rfl
  | some source =>
    dsimp only
    split
    · next halways =>
      rw [(h source hsource).listed]
      cases hcondition : t.arguments.condition with
      | always => rfl
      | _ =>
        rw [hcondition] at halways
        cases halways
    · rfl

end Traversal

-- ========================================================== comprehensions

namespace Cypher.Expression

/-- A cut list has the traversals of the list, with its bounds. -/
theorem traversals_sliced (e : Expression) (multi : Bool) (lower upper : Option Int) :
    (e.sliced lower upper).traversals multi (none, none) = e.traversals multi (lower, upper) := by
  unfold sliced
  split
  · rfl
  · rfl

/-- An item of a projection has the traversals of its value. -/
theorem itemTraversals_projectionItem (entity key : String) (value : Expression)
    (rest : List MapItem) :
    itemTraversals (projectionItem entity key value :: rest)
      = value.traversals true (none, none) ++ itemTraversals rest := by
  unfold projectionItem
  split
  · split
    · rfl
    · rfl
  · rfl

end Cypher.Expression

/-- An item of a projection stands under its key. -/
theorem key_projectionItem (entity key : String) (value : Expression) :
    (projectionItem entity key value).key = key := by
  unfold projectionItem
  split
  · split
    · next h => exact h.2
    · rfl
  · rfl

namespace Traversal

variable {t : Traversal}

/-- Whether a list is kept whole is told by the field. -/
theorem traversals_single (t : Traversal) (list : Expression) :
    (t.single list).traversals true (none, none) = list.traversals t.multi (none, none) := by
  unfold single
  cases t.multi with
  | true => rfl
  | false => rfl

/-- A list that is not sorted is a traversal without an order. -/
theorem traversals_projected (h : ∀ source ∈ t.source, source.IsRun) (items : List MapItem)
    (multi : Bool) (bounds : Option Int × Option Int) :
    (t.projected (.projection t.entity items)).traversals multi bounds
      = ⟨t.entity, t.origin, t.arguments.condition, [], bounds, multi, items.map MapItem.key⟩
        :: Expression.itemTraversals items := by
  unfold projected origin
  cases hsource : t.source with
  | none => rfl
  | some source =>
    dsimp only
    rw [Expression.traversals, (h source hsource).listTraversal]
    rfl

/-- Where a list is sorted, its order is read from the keys. -/
theorem listTraversal_sorted (h : ∀ source ∈ t.source, source.IsRun) (sortFunction : String)
    (sortKeys : List Expression) (keys : List String) :
    Expression.listTraversal t.entity
        ((Expression.call sortFunction [t.matching, .list sortKeys]).sliced
          t.arguments.bounds.1 t.arguments.bounds.2) .always (none, none) t.multi keys
      = ⟨t.entity, t.origin, t.arguments.condition, sortKeys.map (sortKeyOrder t.entity),
          t.arguments.bounds, t.multi, keys⟩ := by
  unfold Expression.listTraversal
  rw [Expression.cut_sliced rfl]
  dsimp only
  rw [listed_matching h]

/-- The comprehension of a traversal is read as the traversal, in the order that
its keys say. -/
theorem traversals_related (h : ∀ source ∈ t.source, source.IsRun) (sortFunction : String)
    (items : List MapItem) :
    (t.single (t.related sortFunction (.projection t.entity items))).traversals true (none, none)
      = (t.emitted (items.map MapItem.key)).bySortKeys :: Expression.itemTraversals items := by
  rw [traversals_single]
  unfold related emitted order ScopeArguments.orderByClause
  dsimp only
  cases horder : t.arguments.orderBy.isEmpty with
  | true =>
    rw [if_pos rfl, if_pos rfl, Expression.traversals_sliced, traversals_projected h]
    rfl
  | false =>
    rw [if_neg Bool.false_ne_true, if_neg Bool.false_ne_true, Expression.traversals,
      listTraversal_sorted h, List.map_map]
    unfold Emitted.bySortKeys
    rw [Option.getD_some, List.map_map]
    rfl

end Traversal

namespace Plan

/-- The items of a projection have the keys of the plan. -/
theorem keys_projectionItems (sortFunction entity : String) (entries : List (String × Plan)) :
    (projectionItems sortFunction entity entries).map MapItem.key = entries.map Prod.fst := by
  induction entries with
  | nil => rfl
  | cons entry rest ih =>
    obtain ⟨key, plan⟩ := entry
    rw [projectionItems, List.map_cons, List.map_cons, key_projectionItem, ih]

/-- What is read in the projection of an entity are the traversals of the plan,
each in the order that its keys say. -/
theorem Legible.traversals_projectionItems {entries : List (String × Plan)}
    (h : Legible entries) (sortFunction entity : String) :
    Expression.itemTraversals (projectionItems sortFunction entity entries)
      = (allTraversals entries).map Emitted.bySortKeys := by
  induction h generalizing entity with
  | nil => rfl
  | value h _ ih =>
    rw [projectionItems, Expression.itemTraversals_projectionItem, Plan.expression, h, ih]
    rfl
  | @traversal key t below rest h _ _ ihbelow ihrest =>
    rw [projectionItems, Expression.itemTraversals_projectionItem, Plan.expression,
      Traversal.traversals_related h, keys_projectionItems, ihbelow, ihrest, allTraversals,
      Plan.traversals, List.map_append, List.map_cons]

end Plan

-- ================================================================= clauses

namespace Traversal

variable {t : Traversal}

/-- Matching collects nothing. -/
theorem collected?_matching (h : ∀ source ∈ t.source, source.IsRun) :
    t.matching.collected? = none := by
  unfold matching
  cases hsource : t.source with
  | none => rfl
  | some source =>
    dsimp only
    split
    · exact (h source hsource).collected?
    · rfl

/-- What a traversal collects is read off its list: whether it is kept whole, its bounds and its
keys. -/
theorem collected?_single (t : Traversal) (condition : Predicate) (none result : Expression)
    (lower upper : Option Int) :
    (t.single
        ((Expression.conditional condition none result).collect.sliced lower upper)).collected?
      = some (t.multi, (lower, upper), result.keys) := by
  unfold single
  cases t.multi with
  | true =>
    rw [if_pos rfl]
    unfold Expression.sliced
    split
    · rfl
    · rfl
  | false =>
    rw [if_neg Bool.false_ne_true]
    unfold Expression.sliced
    split
    · rfl
    · rfl

end Traversal

namespace Walk

/-- A column behind the variables in scope is read alone. -/
theorem step_carrying (w : Walk) (scope : List String) (e : Expression) (name : String) :
    w.step (.withItems (carrying scope (.aliased e name)) none) = w.column e name := by
  unfold step carrying
  dsimp only
  rw [List.getLast?_concat]
  rfl

/-- A column that collects nothing changes no traversal. -/
theorem column_none {w : Walk} {e : Expression} (h : e.collected? = none) (name : String) :
    w.column e name = { w with list := e } := by
  unfold column
  rw [h]

/-- The clauses that bind the related entities open the traversal. -/
theorem foldl_opening {t : Traversal} (h : ∀ source ∈ t.source, source.IsRun)
    (scope : List String) (w : Walk) :
    ∃ list, (t.opening scope).foldl step w
      = ⟨⟨w.closed, t.origin, t.arguments.condition, []⟩ :: w.frames, list, []⟩ := by
  have hmatching := Traversal.listed_matching h
  have hcollected := Traversal.collected?_matching h
  unfold Traversal.opening Traversal.origin at *
  cases hsource : t.source with
  | none => exact ⟨_, rfl⟩
  | some source =>
    refine ⟨t.matching, ?_⟩
    rw [hsource] at hmatching
    rw [List.foldl_cons, step_carrying, column_none hcollected]
    show Walk.push _ t.matching.listed.1 t.matching.listed.2 = _
    rw [hmatching]
    rfl

/-- The clause that sorts notes the order. -/
theorem foldl_sorting (t : Traversal) (scope : List String) (frame : Frame)
    (frames : List Frame) (list : Expression) (closed : List Emitted)
    (h : frame.order = []) :
    (t.sorting scope).foldl step ⟨frame :: frames, list, closed⟩
      = ⟨{ frame with order := t.order } :: frames, list, closed⟩ := by
  unfold Traversal.sorting Traversal.order
  cases t.arguments.orderByClause t.entity with
  | none =>
    rw [Option.getD_none, ← h]
    rfl
  | some order => rfl

/-- The clause that collects the related entities closes the traversal. -/
theorem foldl_closing (t : Traversal) (scope : List String) (result : Expression) (frame : Frame)
    (frames : List Frame) (list : Expression) (closed : List Emitted) :
    (t.closing scope result).foldl step ⟨frame :: frames, list, closed⟩
      = ⟨frames, list, frame.before
        ++ ⟨t.entity, frame.origin, frame.condition, frame.order, t.arguments.bounds, t.multi,
          result.keys⟩ :: closed⟩ := by
  unfold Traversal.closing
  dsimp only
  rw [List.foldl_cons, step_carrying]
  unfold column
  rw [Traversal.collected?_single]
  rfl

end Walk

namespace Plan

/-- The result of a stage has the keys of the plan. -/
theorem keys_stageEntries (scope : List String) (entries : List (String × Plan)) :
    (stageEntries scope entries).result.map Prod.fst = entries.map Prod.fst := by
  induction entries generalizing scope with
  | nil => rfl
  | cons entry rest ih =>
    obtain ⟨key, plan⟩ := entry
    rw [stageEntries, List.map_cons, List.map_cons, ih]

/-- The walk over the clauses of a plan comes across the traversals of the plan
and leaves those open that were. -/
theorem Legible.walk_stageEntries {entries : List (String × Plan)} (h : Legible entries)
    (scope : List String) (w : Walk) :
    ∃ list, (stageEntries scope entries).clauses.foldl Walk.step w
      = ⟨w.frames, list, w.closed ++ allTraversals entries⟩ := by
  induction h generalizing scope w with
  | nil => exact ⟨w.list, by rw [allTraversals, List.append_nil]; rfl⟩
  | value _ _ ih => exact ih scope w
  | @traversal key t below rest h _ _ ihbelow ihrest =>
    rw [stageEntries, Plan.stage, List.foldl_append, List.foldl_append, List.foldl_append,
      List.foldl_append]
    obtain ⟨_, hopening⟩ := Walk.foldl_opening h scope w
    obtain ⟨list, hbelow⟩ := ihbelow (scope ++ [t.entity]) _
    obtain ⟨list', hrest⟩ := ihrest (scope ++ [t.entity])
      ⟨w.frames, list, w.closed ++ t.emitted (below.map Prod.fst) :: allTraversals below⟩
    refine ⟨list', ?_⟩
    rw [hopening, hbelow, Walk.foldl_sorting _ _ _ _ _ _ rfl, Walk.foldl_closing]
    have hkeys : (Expression.map (stageEntries (scope ++ [t.entity]) below).result).keys
        = below.map Prod.fst := keys_stageEntries _ _
    rw [hkeys, allTraversals, Plan.traversals, ← List.append_assoc]
    exact hrest

end Plan

end PropertyGraphQL
