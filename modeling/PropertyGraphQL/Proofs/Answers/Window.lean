/-
The window of a list that a field asks for.

`first` and `offset` ask for the elements behind the first few, and for so many
of them. At the top `SKIP` and `LIMIT` cut the rows; below it a list is sliced
between two bounds, and a negative bound would be counted from the end. Both
come to the same elements (`sliced_bounds`): the bounds are not negative and in
order, and where their sum would need more than 64 bits the upper one stops at
a number that no list is longer than. In neither dialect anything else about a
traversal depends on the window (`eval_related`, `overRows?_gathered`).
-/
import PropertyGraphQL.Proofs.Answers.Staged
import PropertyGraphQL.Proofs.Outcome.Statement

namespace PropertyGraphQL

open Cypher Compiling

-- ================================================================ windows

/-- The elements behind the first `skip` of a list, and at most `limit` of
them. -/
def window {α : Type} (skip limit : Option Int) (xs : List α) : List α :=
  let rest := xs.drop (skip.getD 0).toNat
  limit.elim rest fun n => rest.take n.toNat

theorem window_none {α : Type} (xs : List α) : window none none xs = xs := by
  simp [window]

/-- What is made of each element does not matter to the window. -/
theorem map_window {α β : Type} (f : α → β) (skip limit : Option Int) (xs : List α) :
    (window skip limit xs).map f = window skip limit (xs.map f) := by
  cases limit with
  | none => simp [window]
  | some n => simp [window]

/-- The rows that are returned of those that a clause has made and sorted:
`SKIP` drops the first of them, `LIMIT` takes the first of the rest. -/
def Cypher.Clause.returned {α : Type} (rows : List α) : Clause → List α
  | .returnItems _ _ skip limit =>
      let rest := skip.elim rows fun n => rows.drop n.toNat
      limit.elim rest fun n => rest.take n.toNat
  | _ => rows

/-- A `RETURN` gives the window of its `SKIP` and `LIMIT`. -/
theorem Cypher.Clause.returned_returnItems {α : Type} (rows : List α) (items : List ReturnItem)
    (orderBy : Option OrderBy) (skip limit : Option Int) :
    (Clause.returnItems items orderBy skip limit).returned rows = window skip limit rows := by
  cases skip with
  | none => simp [Clause.returned, window]
  | some n => simp [Clause.returned, window]

-- ================================================================= bounds

/-- A number of elements that may be asked for: it is not negative and has at
most 64 bits with a sign. -/
def IsCount (n : Int) : Prop := 0 ≤ n ∧ n ≤ maxInt64

/-- What an argument is accepted with is not negative and fits in a signed 64-bit integer. -/
theorem Json.isCount_of_count {argument : String} {j : Json} {n : Int}
    (h : j.count argument = .ok n) : IsCount n := by
  cases j with
  | int m =>
    simp only [Json.count, Json.asInt64?] at h
    split at h
    · next k hk =>
      split at hk
      · next hrange =>
        cases hk
        split at h
        · next hnonneg =>
          cases h
          exact ⟨hnonneg, hrange.2⟩
        · cases h
      · cases hk
    · cases h
  | _ => simp [Json.count, Json.asInt64?] at h

section

variable {skip limit : Option Int}

/-- The bounds are in order, and neither is negative or needs more than 64
bits. -/
theorem sliceBounds_ordered (hskip : ∀ n ∈ skip, IsCount n) (hlimit : ∀ n ∈ limit, IsCount n) :
    (∀ lower ∈ (sliceBounds skip limit).1, 0 ≤ lower)
      ∧ ∀ upper ∈ (sliceBounds skip limit).2,
        ∃ lower ∈ (sliceBounds skip limit).1, lower ≤ upper ∧ upper ≤ maxInt64 := by
  cases skip with
  | none =>
    cases limit with
    | none => simp [sliceBounds]
    | some n =>
      have hn := hlimit n rfl
      unfold IsCount at hn
      refine ⟨by simp [sliceBounds], fun upper hupper => ⟨0, rfl, ?_⟩⟩
      simp only [sliceBounds, Option.getD_none, Option.map_some, Option.mem_some_iff] at hupper
      omega
  | some m =>
    have hm := hskip m rfl
    unfold IsCount at hm
    refine ⟨fun lower hlower => ?_, fun upper hupper => ?_⟩
    · cases limit with
      | none | some =>
        simp only [sliceBounds, Option.getD_some, Option.mem_some_iff] at hlower
        omega
    · cases limit with
      -- without a limit there is no upper bound
      | none => simp [sliceBounds] at hupper
      | some n =>
        have hn := hlimit n rfl
        unfold IsCount at hn
        refine ⟨m, rfl, ?_⟩
        simp only [sliceBounds, Option.getD_some, Option.map_some, Option.mem_some_iff] at hupper
        omega

/-- If one of the two is given, there is a lower bound, and an upper one if there is a limit;
their sum is capped. -/
theorem sliceBounds_of_asked (h : ¬(skip = none ∧ limit = none)) :
    sliceBounds skip limit
      = (some (skip.getD 0), limit.map fun n => min (skip.getD 0 + n) maxInt64) := by
  cases skip with
  | none =>
    cases limit with
    | none => exact absurd ⟨rfl, rfl⟩ h
    | some n => rfl
  | some m => rfl

/-- Expressions are cut if and only if something is asked. -/
theorem sliceBounds_open_iff :
    skip = none ∧ limit = none ↔ ∀ e : Expression,
      e.sliced (sliceBounds skip limit).1 (sliceBounds skip limit).2 = e := by
  constructor
  · rintro ⟨rfl, rfl⟩ e
    rfl
  · intro hcut
    by_contra hasked
    have hvar := hcut (.var "x")
    rw [sliceBounds_of_asked hasked] at hvar
    cases hvar

/-- The part of a list between the bounds is the window, if the list is not
longer than 64 bits can tell. -/
theorem sliced_bounds (hskip : ∀ n ∈ skip, IsCount n) (hlimit : ∀ n ∈ limit, IsCount n)
    {xs : List Datum} (hlength : xs.length ≤ maxInt64) :
    (Datum.list xs).sliced (sliceBounds skip limit).1 (sliceBounds skip limit).2
      = .list (window skip limit xs) := by
  by_cases hasked : skip = none ∧ limit = none
  · obtain ⟨rfl, rfl⟩ := hasked
    simp [sliceBounds, Datum.sliced, window]
  have hfirst : IsCount (skip.getD 0) := by
    cases skip with
    | none => exact ⟨by decide, by decide⟩
    | some m => exact hskip m rfl
  -- a bound that is not negative is counted from the front
  have hplace : ∀ n : Int, 0 ≤ n → Datum.place xs.length n = n.toNat := by
    intro n hn
    simp [Datum.place, Int.not_lt.mpr hn]
  rw [sliceBounds_of_asked hasked]
  unfold IsCount at hfirst
  cases limit with
  | none =>
    simp [Datum.sliced, window, hplace, hfirst.1]
  | some n =>
    have hn := hlimit n rfl
    unfold IsCount at hn
    have hupper : 0 ≤ min (skip.getD 0 + n) maxInt64 := by omega
    simp only [Datum.sliced, window, Option.map_some, Option.elim_some, hplace _ hupper,
      hplace _ hfirst.1, List.drop_take, Datum.list.injEq]
    -- either the sum has 64 bits, or both ends are behind the list
    by_cases hsum : skip.getD 0 + n ≤ maxInt64
    · congr 1
      omega
    · rw [List.take_of_length_le, List.take_of_length_le]
      · rw [List.length_drop]
        omega
      · rw [List.length_drop]
        omega

end

-- ============================================================== arguments

/-- The number that was counted for an argument of a name. -/
def ScopeArguments.number? (a : ScopeArguments) : (name : String) → Option Int
  | "first" => a.limit
  | "offset" => a.skip
  | _ => Option.none

/-- The arguments of a relationship that are asked of the related entities:
all but those that its statement declares. -/
def RelationshipField.asked (r : RelationshipField) (arguments : Dict Value) : Dict Value :=
  match r.custom with
  | none => arguments
  | some _ => arguments.filter fun (name, _) => !r.arguments.contains name

/-- Where nothing is declared, all arguments are asked of the entities. -/
theorem ScopeArguments.filter_undeclared (arguments : Dict Value) :
    (arguments.filter fun (name, _) => !Dict.contains ([] : Dict DeclaredArgument) name)
      = arguments :=
  List.filter_true arguments

namespace Outcome

variable {catalog : Catalog} {vars parameters : Dict Json} {t : EntityType} {entity : String}

/-- The data that is given for an argument of a name, if there is one. -/
def Given (vars : Dict Json) (arguments : Dict Value) (name : String) : Option Json → Prop
  | none => arguments.get? name = none
  | some j => ∃ x, arguments.get? name = some x ∧ x.StandsFor vars j

/-- A further argument sets the number of its own name, and no other. -/
theorem Gathers.number {g g' : ScopeArguments.Gathered} {name : String} {x : Value}
    (h : Gathers catalog vars parameters t entity g (name, x) g') {key : String}
    (hkey : key = "first" ∨ key = "offset") :
    (name = key → ∃ j n, x.StandsFor vars j ∧ j.count key = .ok n ∧ g'.1.number? key = some n)
      ∧ (name ≠ key → g'.1.number? key = g.1.number? key) := by
  cases h with
  | first hj hn =>
    rcases hkey with rfl | rfl
    · exact ⟨fun _ => ⟨_, _, hj, hn, rfl⟩, fun hne => absurd rfl hne⟩
    · exact ⟨fun heq => absurd heq (by decide), fun _ => rfl⟩
  | offset hj hn =>
    rcases hkey with rfl | rfl
    · exact ⟨fun heq => absurd heq (by decide), fun _ => rfl⟩
    · exact ⟨fun _ => ⟨_, _, hj, hn, rfl⟩, fun hne => absurd rfl hne⟩
  | orderBy | filter =>
    rcases hkey with rfl | rfl
    · exact ⟨fun heq => absurd heq (by decide), fun _ => rfl⟩
    · exact ⟨fun heq => absurd heq (by decide), fun _ => rfl⟩
  | plain hname =>
    refine ⟨fun heq => absurd ?_ hname, fun _ => rfl⟩
    rcases hkey with rfl | rfl
    · simp [heq]
    · simp [heq]

/-- All arguments together set a number to what is given for its name, and
leave it where nothing is. -/
theorem GathersAll.number {g g' : ScopeArguments.Gathered} {arguments : Dict Value}
    (h : GathersAll catalog vars parameters t entity g arguments g')
    (hkeys : arguments.keys.Nodup) {key : String} (hkey : key = "first" ∨ key = "offset")
    {given : Option Json} (hgiven : Given vars arguments key given) :
    ∃ number, given.mapM (Json.count key) = .ok number
      ∧ g'.1.number? key = number.or (g.1.number? key) := by
  induction h generalizing given with
  | nil =>
    cases given with
    | none => exact ⟨none, rfl, rfl⟩
    | some j =>
      obtain ⟨_, hx, -⟩ := hgiven
      cases hx
  | @cons g g₁ g₂ argument rest h hrest ih =>
    obtain ⟨name, x⟩ := argument
    obtain ⟨hown, hother⟩ := h.number hkey
    have hnodup : name ∉ Dict.keys rest ∧ (Dict.keys rest).Nodup := List.nodup_cons.mp hkeys
    by_cases hname : name = key
    · -- nothing behind it has the name again
      obtain ⟨j, n, hj, hn, hnumber⟩ := hown hname
      have hnone : Given vars rest key none :=
        Dict.get?_eq_none_iff.mpr (hname ▸ hnodup.1)
      obtain ⟨number, hnumber', hset⟩ := ih hnodup.2 hnone
      cases hnumber'
      cases given with
      | none =>
        rw [Given, Dict.get?_cons, if_pos hname] at hgiven
        cases hgiven
      | some j' =>
        obtain ⟨x', hx', hj'⟩ := hgiven
        rw [Dict.get?_cons, if_pos hname] at hx'
        cases hx'
        have hsame : j = j' := Except.ok.inj (hj.symm.trans hj')
        refine ⟨some n, ?_, by rw [hset, hnumber]; rfl⟩
        rw [← hsame]
        show some <$> j.count key = _
        rw [hn]
        rfl
    · have hrest' : Given vars rest key given := by
        cases given with
        | none =>
          rw [Given, Dict.get?_cons, if_neg hname] at hgiven
          exact hgiven
        | some j =>
          obtain ⟨x', hx', hj'⟩ := hgiven
          rw [Dict.get?_cons, if_neg hname] at hx'
          exact ⟨x', hx', hj'⟩
      obtain ⟨number, hnumber, hset⟩ := ih hnodup.2 hrest'
      exact ⟨number, hnumber, by rw [hset, hother hname]⟩

/-- What the arguments ask has the numbers that are given: nothing is asked
before the first of them. -/
theorem Arguments.numbers {declared : Dict DeclaredArgument} {arguments : Dict Value}
    {a : ScopeArguments} (h : Arguments catalog vars parameters t entity declared arguments a)
    (hkeys : arguments.keys.Nodup) {first offset : Option Json} {limit skip : Option Int}
    (hfirst : Given vars (arguments.filter fun (name, _) => !declared.contains name)
      "first" first)
    (hoffset : Given vars (arguments.filter fun (name, _) => !declared.contains name)
      "offset" offset)
    (hlimit : first.mapM (Json.count "first") = .ok limit)
    (hskip : offset.mapM (Json.count "offset") = .ok skip) :
    a.limit = limit ∧ a.skip = skip := by
  obtain @⟨gathered, _, hgathers⟩ := h
  have hnodup : (Dict.keys (arguments.filter fun (name, _) => !declared.contains name)).Nodup :=
    hkeys.sublist (List.filter_sublist.map _)
  have hnumber {key : String} (hkey : key = "first" ∨ key = "offset") {given : Option Json}
      {number : Option Int}
      (hgiven : Given vars (arguments.filter fun (name, _) => !declared.contains name) key given)
      (hcounted : given.mapM (Json.count key) = .ok number) :
      gathered.number? key = number := by
    obtain ⟨number', hcounted', hset⟩ := hgathers.number hnodup hkey hgiven
    obtain rfl : number' = number := Except.ok.inj (hcounted'.symm.trans hcounted)
    rw [hset]
    rcases hkey with rfl | rfl
    · exact Option.or_none
    · exact Option.or_none
  exact ⟨hnumber (.inl rfl) hfirst hlimit, hnumber (.inr rfl) hoffset hskip⟩

end Outcome

-- ============================================================= traversals

section

variable {db : Database} {env : Cypher.Environment} {skip limit : Option Int}

/-- If one of the two is given, the value of an expression is cut. -/
theorem Cypher.Expression.eval_sliced_of_asked (h : ¬(skip = none ∧ limit = none))
    (e : Expression) :
    (e.sliced (sliceBounds skip limit).1 (sliceBounds skip limit).2).eval db env
      = (e.eval db env).sliced (sliceBounds skip limit).1 (sliceBounds skip limit).2 := by
  rw [sliceBounds_of_asked h]
  show (Expression.slice e _ _).eval db env = _
  rw [Expression.eval]

/-- The slice of a list has the window of its elements. -/
theorem Cypher.Expression.eval_sliced (hskip : ∀ n ∈ skip, IsCount n)
    (hlimit : ∀ n ∈ limit, IsCount n) {e : Expression} {xs : List Datum}
    (he : e.eval db env = .list xs) (hlength : xs.length ≤ maxInt64) :
    (e.sliced (sliceBounds skip limit).1 (sliceBounds skip limit).2).eval db env
      = .list (window skip limit xs) := by
  by_cases hasked : skip = none ∧ limit = none
  · obtain ⟨rfl, rfl⟩ := hasked
    rw [window_none]
    exact he
  · rw [Expression.eval_sliced_of_asked hasked, he, sliced_bounds hskip hlimit hlength]

/-- What has no elements has none in any window. -/
theorem Cypher.Expression.elements_sliced (hskip : ∀ n ∈ skip, IsCount n)
    (hlimit : ∀ n ∈ limit, IsCount n) {e : Expression}
    (hlength : (e.eval db env).elements.length ≤ maxInt64) :
    ((e.sliced (sliceBounds skip limit).1 (sliceBounds skip limit).2).eval db env).elements
      = window skip limit (e.eval db env).elements := by
  have hlist (xs : List Datum) (he : e.eval db env = .list xs) :
      ((e.sliced (sliceBounds skip limit).1 (sliceBounds skip limit).2).eval db env).elements
        = window skip limit (e.eval db env).elements := by
    have hxs : xs.length ≤ maxInt64 := by
      rw [he] at hlength
      exact hlength
    rw [Expression.eval_sliced hskip hlimit he hxs, he]
    rfl
  by_cases hasked : skip = none ∧ limit = none
  · obtain ⟨rfl, rfl⟩ := hasked
    rw [window_none]
    rfl
  cases he : e.eval db env with
  | list xs => exact he ▸ hlist xs he
  | _ =>
    rw [Expression.eval_sliced_of_asked hasked, he]
    cases limit with
    | none | some => simp [Datum.sliced, Datum.elements, window]

/-- Where nothing is asked of the elements of a list, there is a result for each
of them. -/
theorem Cypher.Expression.eval_listComprehension_always {binder : String}
    {source result : Expression} :
    (Expression.listComprehension binder source .always (some result)).eval db env
      = .list ((source.eval db env).elements.map fun d =>
          result.eval db (env.bind binder d)) := by
  rw [Expression.eval]
  simp [Predicate.eval, Expression.evalResult]

end

namespace Traversal

variable {db : Database} {env : Cypher.Environment} {t : Traversal}

/-- The traversal to all related entities, whatever the window. -/
def uncut (t : Traversal) : Traversal :=
  { t with arguments := { t.arguments with skip := none, limit := none } }

/-- The sorted entities, before they are cut and projected. -/
def sorted (t : Traversal) (sortFunction : String) : Expression :=
  .call sortFunction [t.matching,
    .list (t.arguments.orderBy.map fun (property, order) => sortKey property order)]

/-- Without an order, the projected entities are cut. -/
theorem related_of_unsorted (h : t.arguments.orderBy.isEmpty = true) (sortFunction : String)
    (projection : Expression) :
    t.related sortFunction projection
      = (t.projected projection).sliced t.arguments.bounds.1 t.arguments.bounds.2 := by
  simp only [related, h, if_true]

/-- With an order, the sorted entities are cut before they are projected. -/
theorem related_of_sorted (h : t.arguments.orderBy.isEmpty = false) (sortFunction : String)
    (projection : Expression) :
    t.related sortFunction projection
      = .listComprehension t.entity
          ((t.sorted sortFunction).sliced t.arguments.bounds.1 t.arguments.bounds.2) .always
          (some projection) := by
  simp only [related, h, Bool.false_eq_true, if_false, sorted]

/-- A comprehension has the window of what it has without one. -/
theorem eval_related (hskip : ∀ n ∈ t.arguments.skip, IsCount n)
    (hlimit : ∀ n ∈ t.arguments.limit, IsCount n) {sortFunction : String}
    {projection : Expression}
    (hlength : ((t.uncut.related sortFunction projection).eval db env).elements.length
      ≤ maxInt64) :
    (t.related sortFunction projection).eval db env
      = .list (window t.arguments.skip t.arguments.limit
          ((t.uncut.related sortFunction projection).eval db env).elements) := by
  cases h : t.arguments.orderBy.isEmpty with
  | true =>
    -- the projected entities are cut, which are always a list
    obtain ⟨xs, hxs⟩ : ∃ xs, (t.projected projection).eval db env = .list xs := by
      unfold projected
      cases t.source with
      | none | some => exact ⟨_, by rw [Expression.eval]⟩
    have hwhole : t.uncut.related sortFunction projection = t.projected projection :=
      related_of_unsorted (t := t.uncut) h sortFunction projection
    rw [hwhole, hxs] at hlength ⊢
    rw [related_of_unsorted h]
    exact Expression.eval_sliced hskip hlimit hxs hlength
  | false =>
    -- the sorted entities are cut, and then projected one by one
    have hwhole : t.uncut.related sortFunction projection
        = .listComprehension t.entity (t.sorted sortFunction) .always (some projection) :=
      related_of_sorted (t := t.uncut) h sortFunction projection
    rw [hwhole, Expression.eval_listComprehension_always, Datum.elements] at hlength ⊢
    rw [List.length_map] at hlength
    rw [related_of_sorted h, Expression.eval_listComprehension_always, ← map_window]
    unfold ScopeArguments.bounds
    rw [Expression.elements_sliced hskip hlimit hlength]

/-- The list that the closing of a traversal collects. -/
def gathered (t : Traversal) (projection : Expression) : Expression :=
  (t.element projection).collect.sliced t.arguments.bounds.1 t.arguments.bounds.2

/-- The closing `WITH` of a traversal has the cut list as its last item. -/
theorem closing_gathered (t : Traversal) (scope : List String) (projection : Expression) :
    t.closing scope projection
      = [.withItems (carrying scope (.aliased (t.single (t.gathered projection)) t.entity))
          none] := rfl

/-- A `WITH` collects the window of what is collected without one. -/
theorem overRows?_gathered (hskip : ∀ n ∈ t.arguments.skip, IsCount n)
    (hlimit : ∀ n ∈ t.arguments.limit, IsCount n) {projection : Expression}
    {group : List Cypher.Environment}
    (hlength : ((t.element projection).collected db group).length ≤ maxInt64) :
    (t.gathered projection).overRows? db group
      = some (.list (window t.arguments.skip t.arguments.limit
          ((t.element projection).collected db group))) := by
  have hcollect : (t.element projection).collect.overRows? db group
      = some (.list ((t.element projection).collected db group)) := by
    rw [Expression.collect, Expression.overRows?, Expression.collected]
  by_cases hasked : t.arguments.skip = none ∧ t.arguments.limit = none
  · have hwhole : t.gathered projection = (t.element projection).collect := by
      simp [gathered, ScopeArguments.bounds, hasked, sliceBounds, Expression.sliced]
    rw [hwhole, hcollect, hasked.1, hasked.2, window_none]
  · have hcut : (t.gathered projection).overRows? db group
        = ((t.element projection).collect.overRows? db group).map
            (Datum.sliced t.arguments.bounds.1 t.arguments.bounds.2) := by
      unfold gathered ScopeArguments.bounds
      rw [sliceBounds_of_asked hasked]
      show (Expression.slice _ _ _).overRows? db group = _
      rw [Expression.overRows?]
    rw [hcut, hcollect, Option.map_some]
    exact congrArg some (sliced_bounds hskip hlimit hlength)

/-- In either dialect the list that is read for a traversal is a window of the
one that is read without. -/
structure IsCut (t : Traversal) (skip limit : Option Int) : Prop where
  comprehension {db : Database} {env : Cypher.Environment} {sortFunction : String}
    {projection : Expression} :
    ((t.uncut.related sortFunction projection).eval db env).elements.length ≤ maxInt64 →
      (t.related sortFunction projection).eval db env
        = .list (window skip limit
            ((t.uncut.related sortFunction projection).eval db env).elements)
  staged {db : Database} {group : List Cypher.Environment} {projection : Expression} :
    ((t.element projection).collected db group).length ≤ maxInt64 →
      (∀ scope, t.closing scope projection
          = [.withItems (carrying scope (.aliased (t.single (t.gathered projection)) t.entity))
              none])
        ∧ (t.gathered projection).overRows? db group
          = some (.list (window skip limit ((t.element projection).collected db group)))

end Traversal

-- ================================================================ the window

section

variable {c : Compiler} {vars parameters : Dict Json} {first offset : Option Json}
  {limit skip : Option Int}

/-- The last clause of a field for entities returns the window of the rows. -/
theorem Compiler.Translates.returned {f : RootField} {t : EntityType} {compiled : Compiled}
    (h : c.Translates f vars (.select t) compiled) (hkeys : f.head.arguments.keys.Nodup)
    (hfirst : Outcome.Given vars f.head.arguments "first" first)
    (hoffset : Outcome.Given vars f.head.arguments "offset" offset)
    (hlimit : first.mapM (Json.count "first") = .ok limit)
    (hskip : offset.mapM (Json.count "offset") = .ok skip) :
    ∃ reading returning,
      compiled.body = .clauses ⟨f.head.planReport?, reading ++ [returning]⟩
        ∧ ∀ {Row : Type} (rows : List Row), returning.returned rows = window skip limit rows := by
  obtain ⟨clauses, hbody, hclauses⟩ := clauses_of_translates h
  obtain @⟨_, a, entries, ha, -⟩ := hclauses
  have hall := ScopeArguments.filter_undeclared f.head.arguments
  obtain ⟨rfl, rfl⟩ := ha.numbers hkeys (hall.symm ▸ hfirst) (hall.symm ▸ hoffset) hlimit hskip
  exact ⟨_, _, hbody, fun rows => Clause.returned_returnItems rows _ _ _ _⟩

/-- The traversal of a field for related entities is cut to the window. -/
theorem Outcome.Relationship.isCut {f : Collected} {r : RelationshipField} {parent : String}
    {t : Traversal} {target : EntityType}
    (h : Outcome.Relationship c vars parameters f r parent (.inr (t, target)))
    (hkeys : f.head.arguments.keys.Nodup)
    (hfirst : Outcome.Given vars (r.asked f.head.arguments) "first" first)
    (hoffset : Outcome.Given vars (r.asked f.head.arguments) "offset" offset)
    (hlimit : first.mapM (Json.count "first") = .ok limit)
    (hskip : offset.mapM (Json.count "offset") = .ok skip)
    (hlimitCount : ∀ n ∈ limit, IsCount n) (hskipCount : ∀ n ∈ skip, IsCount n) :
    t.IsCut skip limit := by
  have hnumbers : t.arguments.limit = limit ∧ t.arguments.skip = skip := by
    cases h with
    | plain _ hcustom ha =>
      simp only [RelationshipField.asked, hcustom] at hfirst hoffset
      have hall := ScopeArguments.filter_undeclared f.head.arguments
      exact ha.numbers hkeys (hall.symm ▸ hfirst) (hall.symm ▸ hoffset) hlimit hskip
    | listed _ hcustom _ _ ha =>
      simp only [RelationshipField.asked, hcustom] at hfirst hoffset
      exact ha.numbers hkeys hfirst hoffset hlimit hskip
  obtain ⟨rfl, rfl⟩ := hnumbers
  exact ⟨Traversal.eval_related hskipCount hlimitCount, fun hlength =>
    ⟨fun scope => t.closing_gathered scope _,
      Traversal.overRows?_gathered hskipCount hlimitCount hlength⟩⟩

end

/-- The numbers that `first` and `offset` are accepted with ask for one window.
The bounds of slices are in order and not negative, and between them is the
window of every list; so what a field asks for by these arguments is the window
of its rows at the top, and of the related entities below it. -/
theorem window_asked {first offset : Option Json} {limit skip : Option Int}
    (hfirst : first.mapM (Json.count "first") = .ok limit)
    (hoffset : offset.mapM (Json.count "offset") = .ok skip) :
    ((∀ lower ∈ (sliceBounds skip limit).1, 0 ≤ lower)
      ∧ ∀ upper ∈ (sliceBounds skip limit).2,
        ∃ lower ∈ (sliceBounds skip limit).1, lower ≤ upper ∧ upper ≤ maxInt64)
    ∧ (first = none ∧ offset = none ↔ ∀ e : Expression,
        e.sliced (sliceBounds skip limit).1 (sliceBounds skip limit).2 = e)
    ∧ (∀ xs : List Datum, xs.length ≤ maxInt64 →
        (Datum.list xs).sliced (sliceBounds skip limit).1 (sliceBounds skip limit).2
          = .list (window skip limit xs))
    ∧ (∀ {c : Compiler} {vars : Dict Json} {f : RootField} {t : EntityType}
          {compiled : Compiled}, c.Translates f vars (.select t) compiled →
        f.head.arguments.keys.Nodup →
        Outcome.Given vars f.head.arguments "first" first →
        Outcome.Given vars f.head.arguments "offset" offset →
        ∃ reading returning,
          compiled.body = .clauses ⟨f.head.planReport?, reading ++ [returning]⟩
            ∧ ∀ {Row : Type} (rows : List Row),
              returning.returned rows = window skip limit rows)
    ∧ ∀ {c : Compiler} {f : Collected} {r : RelationshipField} {parent : String}
          {p q : Parameters} {t : Traversal} {target : EntityType},
        (c.relationshipPlan f r parent).run p = .ok (.inr (t, target), q) →
        f.head.arguments.keys.Nodup →
        Outcome.Given p.vars (r.asked f.head.arguments) "first" first →
        Outcome.Given p.vars (r.asked f.head.arguments) "offset" offset →
        t.IsCut skip limit := by
  have hcounts {key : String} {given : Option Json} {number : Option Int}
      (h : given.mapM (Json.count key) = .ok number) :
      (∀ n ∈ number, IsCount n) ∧ (number = none ↔ given = none) := by
    cases given with
    | none =>
      cases h
      simp
    | some j =>
      obtain ⟨n, hn, rfl⟩ := map_eq_ok_iff.mp (show some <$> j.count key = _ from h)
      refine ⟨fun m hm => ?_, by simp⟩
      cases hm
      exact Json.isCount_of_count hn
  obtain ⟨hlimit, hlimitNone⟩ := hcounts hfirst
  obtain ⟨hskip, hskipNone⟩ := hcounts hoffset
  refine ⟨sliceBounds_ordered hskip hlimit, ?_,
    fun xs hlength => sliced_bounds hskip hlimit hlength, ?_, ?_⟩
  · rw [← hlimitNone, ← hskipNone, and_comm]
    exact sliceBounds_open_iff
  · intro c vars f t compiled h hkeys hgivenFirst hgivenOffset
    exact h.returned hkeys hgivenFirst hgivenOffset hfirst hoffset
  · intro c f r parent p q t target hrun hkeys hgivenFirst hgivenOffset
    obtain ⟨-, -, hpost⟩ := c.yields_relationshipPlan f r parent rfl hrun
    exact (hpost (.refl _)).isCut hkeys hgivenFirst hgivenOffset hfirst hoffset hlimit hskip

/-- A page of people, and of the movies of each, sorted by title. -/
def RootField.page : RootField where
  head := ⟨"Person", none, [("first", .int 3), ("offset", .int 2)], []⟩
  selections :=
    [.field (.plain "name") [],
      .field ⟨"movies", none,
          [("orderBy", .enum "title_asc"), ("first", .int 3), ("offset", .int 2)], []⟩
        [.field (.plain "title") []]]

/-- The movies of that page. -/
def Collected.pageMovies : Collected :=
  ⟨"movies", ⟨"movies", none,
    [("orderBy", .enum "title_asc"), ("first", .int 3), ("offset", .int 2)], []⟩, .person,
    [.field (.plain "title") []]⟩

/-- The page is compiled in both dialects. -/
theorem Compiler.translates_page (dialect : Dialect) :
    ∃ compiled, (Compiler.movies dialect).Translates .page [] (.select .person) compiled := by
  have hroot : rootVariable EntityType.person.name RootField.page.head.responseKey
      = "person" := by decide
  exact ⟨_, .queryOn (scopeQuery_eq_of_runs true hroot rfl
    (run_planFields_value rfl
      (run_planFields_traversal rfl
        (run_planFields_value rfl (run_planFields_nil _ _))
        (run_planFields_nil _ _))))⟩

/-- People three to five are asked for, and of their movies also these. -/
theorem window_asked_page :
    (∃ compiled reading returning, (Compiler.movies .staged).Translates .page []
          (.select .person) compiled
        ∧ compiled.body = .clauses ⟨none, reading ++ [returning]⟩
        ∧ ∀ rows : List (Dict Datum), returning.returned rows = window (some 2) (some 3) rows)
      ∧ ∃ r t target q, EntityType.person.relationship? "movies" = some r
        ∧ ((Compiler.movies .comprehension).relationshipPlan .pageMovies r "person").run
            ⟨[], []⟩ = .ok (.inr (t, target), q)
        ∧ t.IsCut (some 2) (some 3) := by
  have hfirst : (some (.int 3)).mapM (Json.count "first") = .ok (some 3) := rfl
  have hoffset : (some (.int 2)).mapM (Json.count "offset") = .ok (some 2) := rfl
  obtain ⟨-, -, -, hroot, hbelow⟩ := window_asked hfirst hoffset
  constructor
  · obtain ⟨compiled, h⟩ := Compiler.translates_page .staged
    obtain ⟨reading, returning, hbody, hreturned⟩ :=
      hroot h (by decide) ⟨.int 3, rfl, rfl⟩ ⟨.int 2, rfl, rfl⟩
    exact ⟨compiled, reading, returning, h, hbody, hreturned⟩
  · have hrun : ∃ t target q, ((Compiler.movies .comprehension).relationshipPlan .pageMovies
        (.plain "movies" ⟨.outgoing, "ACTED_IN", "Movie"⟩ true) "person").run ⟨[], []⟩
          = .ok (.inr (t, target), q) := ⟨_, _, _, rfl⟩
    obtain ⟨t, target, q, hrun⟩ := hrun
    exact ⟨_, t, target, q, rfl, hrun,
      hbelow hrun (by decide) ⟨.int 3, rfl, rfl⟩ ⟨.int 2, rfl, rfl⟩⟩

end PropertyGraphQL
