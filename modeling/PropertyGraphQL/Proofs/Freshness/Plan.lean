/-
When the clauses of a plan are fresh.

The variables of the traversals of an entity stay in scope for the fields
behind them, so what a later field introduces has to be apart from them
(`Plan.AllApart`). This is all that is asked, but for one thing: the list
that a statement gives is in scope until the next `WITH`, for what is
introduced first below it. Under this condition the clauses are fresh, and
under no weaker one (`Plan.Formed.allFreshIn_iff`).
-/
import PropertyGraphQL.Proofs.Freshness.Clause
import PropertyGraphQL.Proofs.Scope.Plan

namespace PropertyGraphQL

open Cypher

-- ================================================================== names

namespace Traversal

theorem listName_below (t : Traversal) : NamedBelow t.entity t.listName :=
  ⟨"list", by rw [listName, String.append_assoc]; rfl⟩

/-- The names that the clauses of a traversal introduce for itself. -/
def introduced (t : Traversal) : List String :=
  t.entity :: t.arguments.condition.binders ++ if t.source.isSome then [t.listName] else []

/-- Those that are introduced before a `WITH` has left nothing else in scope. -/
def introducedFirst (t : Traversal) : List String :=
  (if t.source.isSome then t.listName else t.entity) :: t.arguments.condition.binders

/-- What is introduced first is introduced. -/
theorem introducedFirst_subset (t : Traversal) : t.introducedFirst ⊆ t.introduced := by
  unfold introducedFirst introduced
  refine List.cons_subset.mpr ⟨?_, ?_⟩
  · split
    · exact List.mem_append_right _ List.mem_cons_self
    · exact List.mem_cons_self
  · exact List.Subset.trans (List.subset_cons_self _ _) (List.subset_append_left _ _)

/-- Of its own names a traversal introduces its variable alone behind a
`WITH`. -/
theorem eq_or_mem_introducedFirst {t : Traversal} {name : String} (h : name ∈ t.introduced) :
    name = t.entity ∨ name ∈ t.introducedFirst := by
  unfold introduced at h
  unfold introducedFirst
  rcases List.mem_append.mp h with h | h
  · rcases List.mem_cons.mp h with h | h
    · exact .inl h
    · exact .inr (List.mem_cons_of_mem _ h)
  · split at h
    · next hsource =>
      rw [if_pos hsource]
      exact .inr (List.mem_cons.mpr (.inl (List.mem_singleton.mp h)))
    · cases h

/-- What a traversal introduces is named after the entity it starts from. -/
theorem Formed.introduced_below {parameters : Dict Json} {entity : String} {t : Traversal}
    (h : t.Formed parameters entity) : ∀ name ∈ t.introduced, NamedBelow entity name := by
  refine List.forall_mem_append.mpr ⟨List.forall_mem_cons.mpr ⟨h.named, ?_⟩, ?_⟩
  · exact fun name hname => h.named.trans (h.condition.binders_below name hname)
  · intro name hname
    split at hname
    · rw [List.mem_singleton.mp hname]
      exact h.named.trans t.listName_below
    · cases hname

end Traversal

namespace Plan

mutual

/-- The names that are introduced for what is read from an entity, at every
depth. -/
def allIntroduced : List (String × Plan) → List String
  | [] => []
  | (_, plan) :: rest => introduced plan ++ allIntroduced rest

def introduced : Plan → List String
  | .value _ => []
  | .traversal t entries => t.introduced ++ allIntroduced entries

end

mutual

/-- Those that are introduced before the first `WITH`: what is behind it is
introduced where nothing else is in scope than what it names. -/
def allIntroducedFirst : List (String × Plan) → List String
  | [] => []
  | (_, plan) :: rest => (introducedFirst? plan).getD (allIntroducedFirst rest)

def introducedFirst? : Plan → Option (List String)
  | .value _ => none
  | .traversal t entries =>
      some (t.introducedFirst ++ if t.source.isSome then [] else allIntroducedFirst entries)

end

/-- The variable that stays in scope for later fields. -/
def kept? : Plan → Option String
  | .value _ => none
  | .traversal t _ => some t.entity

/-- The variables that stay in scope behind what is read from an entity. -/
def kept (entries : List (String × Plan)) : List String :=
  entries.filterMap fun (_, plan) => plan.kept?

mutual

/-- No variable of a traversal is introduced again for a later field, nor the
list of one first thing below it. -/
def AllApart : List (String × Plan) → Prop
  | [] => True
  | (_, plan) :: rest =>
      Apart plan ∧ (∀ name ∈ plan.kept?, name ∉ allIntroduced rest) ∧ AllApart rest

def Apart : Plan → Prop
  | .value _ => True
  | .traversal t entries =>
      (t.source.isSome = true → t.listName ∉ allIntroducedFirst entries) ∧ AllApart entries

end

/-- What is kept is introduced. -/
theorem kept_subset (entries : List (String × Plan)) :
    kept entries ⊆ allIntroduced entries := by
  induction entries with
  | nil => exact List.nil_subset _
  | cons entry rest ih =>
    obtain ⟨_, plan⟩ := entry
    have hrest := List.Subset.trans ih (List.subset_append_right plan.introduced _)
    cases plan with
    | value e => exact hrest
    | traversal t below => exact List.cons_subset.mpr ⟨List.mem_cons_self, hrest⟩

/-- Of fields that are apart the variables are distinct. -/
theorem AllApart.nodup_kept {entries : List (String × Plan)} (h : AllApart entries) :
    (kept entries).Nodup := by
  induction entries with
  | nil => exact List.nodup_nil
  | cons entry rest ih =>
    obtain ⟨_, plan⟩ := entry
    obtain ⟨-, hvariable, hrest⟩ := h
    cases plan with
    | value e => exact ih hrest
    | traversal t below =>
      refine List.nodup_cons.mpr ⟨fun hmem => ?_, ih hrest⟩
      exact hvariable t.entity rfl (kept_subset rest hmem)

/-- Behind the clauses of a plan the variables of its traversals are in scope,
and those that were before. -/
theorem scope_stageEntries (carried : List String) (entries : List (String × Plan)) :
    (stageEntries carried entries).scope = carried ++ kept entries := by
  induction entries generalizing carried with
  | nil =>
    rw [stageEntries]
    exact (List.append_nil carried).symm
  | cons entry rest ih =>
    obtain ⟨_, plan⟩ := entry
    rw [stageEntries]
    cases plan with
    | value e =>
      rw [stage]
      exact ih carried
    | traversal t below =>
      rw [stage]
      show (stageEntries (carried ++ [t.entity]) rest).scope = _
      rw [ih, List.append_assoc]
      rfl

namespace Formed

variable {parameters : Dict Json} {entity : String} {entries : List (String × Plan)}

/-- What a plan introduces first is introduced. -/
theorem introducedFirst_subset (h : Formed parameters entity entries) :
    allIntroducedFirst entries ⊆ allIntroduced entries := by
  induction h with
  | nil => exact List.nil_subset _
  | value _ _ ih => exact ih
  | @traversal _ _ t below rest _ _ _ ihbelow _ =>
    show t.introducedFirst ++ (if t.source.isSome then [] else allIntroducedFirst below)
      ⊆ t.introduced ++ allIntroduced below ++ allIntroduced rest
    refine List.Subset.trans ?_ (List.subset_append_left _ _)
    have hfirst := List.Subset.trans t.introducedFirst_subset
      (List.subset_append_left t.introduced (allIntroduced below))
    refine List.append_subset.mpr ⟨hfirst, ?_⟩
    split
    · exact List.nil_subset _
    · exact List.Subset.trans ihbelow (List.subset_append_right _ _)

/-- What a plan introduces is named after its entity. -/
theorem introduced_below (h : Formed parameters entity entries) :
    ∀ name ∈ allIntroduced entries, NamedBelow entity name := by
  induction h with
  | nil => exact List.forall_mem_nil _
  | value _ _ ih => exact ih
  | @traversal _ _ t below rest h _ _ ihbelow ihrest =>
    have hbelow : ∀ name ∈ allIntroduced below, NamedBelow _ name :=
      fun name hname => h.named.trans (ihbelow name hname)
    exact List.forall_mem_append.mpr
      ⟨List.forall_mem_append.mpr ⟨h.introduced_below, hbelow⟩, ihrest⟩

end Formed

end Plan

-- ================================================================= clauses

namespace Traversal

variable {parameters : Dict Json} {entity : String} {t : Traversal}
  {carried scope : List String}

/-- Variables that are carried along introduce no name. -/
theorem carried_freshIn (carried : List String) :
    ∀ item ∈ carried.map ReturnItem.carried, item.FreshIn scope := by
  intro item hitem
  obtain ⟨name, -, rfl⟩ := List.mem_map.mp hitem
  exact ⟨trivial, fun _ hrename => (by cases hrename)⟩

/-- A `WITH` is fresh if its last item is, and this has a new name or collects what has the
name. -/
theorem carrying_freshIn_iff {e : Expression} {name : String} :
    (∀ item ∈ carrying carried (.aliased e name), item.FreshIn scope)
      ↔ e.FreshIn scope ∧ (name ∉ scope ∨ e.Collects name) := by
  rw [carrying, List.forall_mem_append, List.forall_mem_singleton]
  constructor
  · rintro ⟨-, he, hname⟩
    exact ⟨he, hname name rfl⟩
  · rintro ⟨he, hname⟩
    refine ⟨carried_freshIn carried, he, fun other hother => ?_⟩
    cases hother
    exact hname

/-- A list with one more name is distinct if the list is and does not have the name. -/
theorem nodup_append_singleton {name : String} :
    (carried ++ [name]).Nodup ↔ carried.Nodup ∧ name ∉ carried := by
  rw [List.nodup_append_comm]
  exact List.nodup_cons.trans and_comm

namespace Formed

/-- A list that is filtered is fresh exactly where no variable of the
condition is in scope. -/
theorem matching_freshIn_iff (h : t.Formed parameters entity) {source : Expression}
    (hsource : t.source = some source) :
    t.matching.FreshIn scope ↔ ∀ name ∈ t.arguments.condition.binders, name ∉ scope := by
  have hfresh : source.FreshIn scope := (h.source source hsource).freshIn
  unfold matching
  rw [hsource]
  dsimp only
  split
  · next halways =>
    unfold Predicate.isAlways at halways
    split at halways
    · next hcondition =>
      rw [hcondition]
      exact ⟨fun _ => List.forall_mem_nil _, fun _ => hfresh⟩
    · cases halways
  · constructor
    · rintro ⟨-, hfilter, -⟩ name hname hmem
      exact h.condition.freshIn_iff.mp hfilter name hname (List.mem_append_left _ hmem)
    · intro hbinders
      refine ⟨hfresh, h.condition.freshIn_iff.mpr fun name hname hmem => ?_, trivial⟩
      rcases List.mem_append.mp hmem with hmem | hmem
      · exact hbinders name hname hmem
      · exact (h.condition.binders_below name hname).ne (List.mem_singleton.mp hmem)

/-- What matches entities of a source collects nothing. -/
theorem not_collects_matching (h : t.Formed parameters entity) {source : Expression}
    (hsource : t.source = some source) (name : String) : ¬t.matching.Collects name := by
  unfold matching
  rw [hsource]
  dsimp only
  split
  · exact (h.source source hsource).not_collects
  · rintro ⟨result, lower, upper, heq | heq⟩
    · unfold Expression.sliced at heq
      split at heq
      · cases heq
      · cases heq
    · cases heq

/-- The opening is fresh exactly where nothing that it introduces first is in
scope, nor its own variable among those carried. -/
theorem opening_freshIn_iff (h : t.Formed parameters entity) (hnodup : carried.Nodup)
    (hsub : carried ⊆ scope) :
    Clause.AllFreshIn scope (t.opening carried)
      ↔ (∀ name ∈ t.introducedFirst, name ∉ scope) ∧ t.entity ∉ carried := by
  have hlist := t.listName_below
  unfold opening introducedFirst
  rw [List.forall_mem_cons]
  cases hsource : t.source with
  | none =>
    have hpattern : t.pattern.FreshIn scope ↔ t.entity ∉ scope :=
      t.shape.pattern_freshIn_iff
    constructor
    · rintro ⟨⟨hown, hfilter⟩, -⟩
      refine ⟨⟨hpattern.mp hown, fun name hname hmem => ?_⟩, fun hmem => ?_⟩
      · exact h.condition.freshIn_iff.mp hfilter name hname (List.mem_append_left _ hmem)
      · exact hpattern.mp hown (hsub hmem)
    · rintro ⟨⟨hown, hbinders⟩, -⟩
      refine ⟨⟨hpattern.mpr hown, h.condition.freshIn_iff.mpr fun name hname hmem => ?_⟩, trivial⟩
      rcases List.mem_append.mp hmem with hmem | hmem
      · exact hbinders name hname hmem
      · exact (h.condition.binders_below name hname).ne (List.mem_singleton.mp hmem)
  | some source =>
    have hnames := filterMap_name?_carrying carried t.matching t.listName
    constructor
    · rintro ⟨⟨-, hitems, -⟩, ⟨-, hown⟩, -⟩
      obtain ⟨hmatching, hname⟩ := carrying_freshIn_iff.mp hitems
      rw [Clause.scopeAfter, hnames] at hown
      have hnew := hname.resolve_right (h.not_collects_matching hsource t.listName)
      exact ⟨⟨hnew, (h.matching_freshIn_iff hsource).mp hmatching⟩,
        fun hmem => hown (List.mem_append_left _ hmem)⟩
    · rintro ⟨⟨hnew, hbinders⟩, hown⟩
      have hmatching := (h.matching_freshIn_iff hsource).mpr hbinders
      have hitems : ∀ item ∈ carrying carried (.aliased t.matching t.listName),
          item.FreshIn scope := carrying_freshIn_iff.mpr ⟨hmatching, .inl hnew⟩
      refine ⟨⟨?_, hitems, OrderBy.freshIn_none _⟩, ⟨?_, ?_⟩, trivial⟩
      · rw [hnames]
        exact nodup_append_singleton.mpr ⟨hnodup, fun hmem => hnew (hsub hmem)⟩
      · exact ⟨⟨⟨trivial, trivial⟩, trivial⟩, ⟨trivial, trivial⟩, trivial⟩
      · rw [Clause.scopeAfter, hnames]
        intro hmem
        rcases List.mem_append.mp hmem with hmem | hmem
        · exact hown hmem
        · exact t.listName_below.ne (List.mem_singleton.mp hmem).symm

/-- The scope behind the opening: the list of a statement is left in it. -/
theorem scopeAfterAll_opening (h : t.source.isSome = true) :
    Clause.scopeAfterAll scope (t.opening carried) = carried ++ [t.listName] ++ [t.entity] := by
  obtain ⟨source, hsource⟩ := Option.isSome_iff_exists.mp h
  unfold opening
  rw [hsource]
  show (carrying carried (.aliased t.matching t.listName)).filterMap ReturnItem.name?
    ++ [t.entity] = _
  rw [filterMap_name?_carrying]

/-- Behind a match the entity is in scope. -/
theorem scopeAfterAll_matching (h : t.source.isSome = false) :
    Clause.scopeAfterAll scope (t.opening carried) = scope ++ [t.entity] := by
  unfold opening
  rw [Option.isNone_iff_eq_none.mp (Option.isSome_eq_false_iff.mp h)]
  rfl

end Formed

/-- The order of the entities introduces no name. -/
theorem orderByClause_freshIn (a : ScopeArguments) (entity : String) (scope : List String) :
    OrderBy.FreshIn scope (a.orderByClause entity) := by
  intro keys hkeys key hkey
  obtain ⟨property, hproperty⟩ := ScopeArguments.eq_property_of_mem hkeys hkey
  rw [hproperty]
  exact trivial

/-- Sorting is fresh where the variables carried are distinct. -/
theorem sorting_freshIn (hnodup : carried.Nodup) :
    Clause.AllFreshIn scope (t.sorting carried) := by
  have horder := orderByClause_freshIn t.arguments t.entity
    ((carried.map ReturnItem.carried).filterMap ReturnItem.name?)
  unfold sorting
  split
  · exact trivial
  · next orderBy hsome =>
    rw [hsome] at horder
    refine ⟨⟨?_, carried_freshIn carried, horder⟩, trivial⟩
    rw [filterMap_name?_carried]
    exact hnodup

/-- The closing rebinds the variable of its own traversal and no other. -/
theorem closing_freshIn (hnodup : (carried ++ [t.entity]).Nodup) {projection : Expression}
    (hprojection : projection.FreshIn scope) :
    Clause.AllFreshIn scope (t.closing carried projection) := by
  refine ⟨⟨?_, carrying_freshIn_iff.mpr ⟨?_, .inr ?_⟩, OrderBy.freshIn_none _⟩, trivial⟩
  · rw [filterMap_name?_carrying]
    exact hnodup
  · have hcollect : (Expression.conditional (.isNull (.var t.entity)) (.literal .null)
        projection).collect.FreshIn scope := ⟨⟨trivial, trivial, hprojection⟩, trivial⟩
    have hlist := Expression.sliced_freshIn hcollect t.arguments.bounds.1 t.arguments.bounds.2
    unfold single
    split
    · exact hlist
    · exact ⟨hlist, trivial⟩
  · refine ⟨projection, t.arguments.bounds.1, t.arguments.bounds.2, ?_⟩
    unfold single
    split
    · exact .inl rfl
    · exact .inr rfl

end Traversal

namespace Plan.Formed

variable {parameters : Dict Json} {entity : String} {entries : List (String × Plan)}

/-- What a stage results in introduces no name. -/
theorem result_freshIn (h : Formed parameters entity entries) (carried scope : List String) :
    Expression.EntriesFreshIn scope (stageEntries carried entries).result := by
  induction h generalizing carried with
  | nil =>
    rw [stageEntries]
    exact trivial
  | value h _ ih =>
    rw [stageEntries, stage]
    exact ⟨h.freshIn, ih carried⟩
  | traversal h _ _ _ ihrest =>
    rw [stageEntries, stage]
    exact ⟨trivial, ihrest _⟩

/-- What is projected introduces nothing. -/
theorem projection_freshIn (h : Formed parameters entity entries)
    (carried scope : List String) :
    (Expression.map (stageEntries carried entries).result).FreshIn scope :=
  h.result_freshIn carried scope

end Plan.Formed

-- =============================================================== exactness

namespace Plan

/-- What is introduced for entries is new where it is introduced, given the
variables that are carried along and those that are in scope. -/
structure Fits (carried scope : List String) (entries : List (String × Plan)) : Prop where
  first : ∀ name ∈ allIntroducedFirst entries, name ∉ scope
  all : ∀ name ∈ allIntroduced entries, name ∉ carried
  apart : AllApart entries

variable {parameters : Dict Json} {entity : String} {carried scope : List String}
  {t : Traversal} {below rest entries : List (String × Plan)}

/-- The scope behind a stage has no name twice. -/
theorem Fits.nodup_scope (h : Fits carried scope entries) (hnodup : carried.Nodup) :
    (stageEntries carried entries).scope.Nodup := by
  rw [scope_stageEntries, List.nodup_append]
  refine ⟨hnodup, h.apart.nodup_kept, ?_⟩
  rintro name hcarried _ hkept rfl
  exact h.all name (kept_subset entries hkept) hcarried

/-- None of the names is in a scope with one more if none is in the scope, and the
one more is none of them. -/
theorem forall_not_mem_append_singleton {names scope : List String} {new : String} :
    (∀ name ∈ names, name ∉ scope ++ [new]) ↔ (∀ name ∈ names, name ∉ scope) ∧ new ∉ names := by
  constructor
  · intro h
    refine ⟨fun name hname hmem => h name hname (List.mem_append_left _ hmem), fun hnew => ?_⟩
    exact h new hnew (List.mem_append_right _ List.mem_cons_self)
  · rintro ⟨hscope, hnew⟩ name hname hmem
    rcases List.mem_append.mp hmem with hmem | hmem
    · exact hscope name hname hmem
    · exact hnew (List.mem_singleton.mp hmem ▸ hname)

/-- What is asked of a traversal and of the fields behind it is asked of its
opening, of what is below it and of the rest. -/
theorem fits_traversal_iff (hbelow : Formed parameters t.entity below)
    (hrest : Formed parameters entity rest) (hsub : carried ⊆ scope) (key : String) :
    Fits carried scope ((key, .traversal t below) :: rest)
      ↔ ((∀ name ∈ t.introducedFirst, name ∉ scope) ∧ t.entity ∉ carried)
        ∧ Fits (carried ++ [t.entity]) (Clause.scopeAfterAll scope (t.opening carried)) below
        ∧ Fits (carried ++ [t.entity]) (carried ++ [t.entity]) rest := by
  have hbelowFirst := hbelow.introducedFirst_subset
  have hnotOwn : t.entity ∉ allIntroduced below :=
    fun hmem => (hbelow.introduced_below _ hmem).ne rfl
  constructor
  · rintro ⟨hfirst, hall, ⟨hlist, hapart⟩, hkept, hrestApart⟩
    have hallBelow : ∀ name ∈ allIntroduced below, name ∉ carried := fun name hname =>
      hall name (List.mem_append_left _ (List.mem_append_right _ hname))
    have hallRest : ∀ name ∈ allIntroduced rest, name ∉ carried ++ [t.entity] :=
      forall_not_mem_append_singleton.mpr
        ⟨fun name hname => hall name (List.mem_append_right _ hname), hkept t.entity rfl⟩
    refine ⟨⟨fun name hname => hfirst name (List.mem_append_left _ hname), ?_⟩,
      ⟨?_, forall_not_mem_append_singleton.mpr ⟨hallBelow, hnotOwn⟩, hapart⟩,
      fun name hname => hallRest name (hrest.introducedFirst_subset hname), hallRest, hrestApart⟩
    · exact hall t.entity (List.mem_append_left _ (List.mem_append_left _ List.mem_cons_self))
    -- with a source the list is in scope below, and otherwise what the match has bound
    · have hnotOwn : t.entity ∉ allIntroducedFirst below := fun hmem => hnotOwn (hbelowFirst hmem)
      cases hsource : t.source.isSome with
      | true =>
        rw [Traversal.Formed.scopeAfterAll_opening hsource]
        have hcarried := forall_not_mem_append_singleton.mpr
          ⟨fun name hname => hallBelow name (hbelowFirst hname), hlist hsource⟩
        exact forall_not_mem_append_singleton.mpr ⟨hcarried, hnotOwn⟩
      | false =>
        rw [Traversal.Formed.scopeAfterAll_matching hsource]
        refine forall_not_mem_append_singleton.mpr ⟨fun name hname => ?_, hnotOwn⟩
        refine hfirst name (List.mem_append_right _ ?_)
        rw [hsource, if_neg Bool.false_ne_true]
        exact hname
  · rintro ⟨⟨hfirst, hown⟩, hfitsBelow, hfitsRest⟩
    obtain ⟨hallBelow, -⟩ := forall_not_mem_append_singleton.mp hfitsBelow.all
    obtain ⟨hallRest, hnotRest⟩ := forall_not_mem_append_singleton.mp hfitsRest.all
    refine ⟨?_, ?_, ⟨fun hsource hname => ?_, hfitsBelow.apart⟩, ?_, hfitsRest.apart⟩
    · refine List.forall_mem_append.mpr ⟨hfirst, fun name hname hmem => ?_⟩
      -- without a list the match of the node below is in one clause with its own
      split at hname
      · cases hname
      · next hsource =>
        refine hfitsBelow.first name hname ?_
        rw [Traversal.Formed.scopeAfterAll_matching (Bool.eq_false_iff.mpr hsource)]
        exact List.mem_append_left _ hmem
    · refine List.forall_mem_append.mpr ⟨List.forall_mem_append.mpr ⟨?_, hallBelow⟩, hallRest⟩
      intro name hname
      rcases Traversal.eq_or_mem_introducedFirst hname with rfl | hname
      · exact hown
      · exact fun hmem => hfirst name hname (hsub hmem)
    · refine hfitsBelow.first t.listName hname ?_
      rw [Traversal.Formed.scopeAfterAll_opening hsource]
      exact List.mem_append_left _ (List.mem_append_right _ List.mem_cons_self)
    · intro name hname
      cases hname
      exact hnotRest

/-- The clauses of a plan are fresh exactly if what they introduce fits. -/
theorem Formed.allFreshIn_iff (h : Formed parameters entity entries) (hnodup : carried.Nodup)
    (hsub : carried ⊆ scope) (hentity : entity ∈ carried) :
    Clause.AllFreshIn scope (stageEntries carried entries).clauses
      ↔ Fits carried scope entries := by
  induction h generalizing carried scope with
  | nil =>
    rw [stageEntries]
    exact ⟨fun _ => ⟨List.forall_mem_nil _, List.forall_mem_nil _, trivial⟩, fun _ => trivial⟩
  | @value _ _ _ rest _ _ ih =>
    rw [stageEntries, stage]
    refine (ih hnodup hsub hentity).trans ⟨fun h => ?_, fun h => ?_⟩
    · exact ⟨h.first, h.all, trivial, fun _ hkept => (by cases hkept), h.apart⟩
    · exact ⟨h.first, h.all, h.apart.2.2⟩
  | @traversal _ key t below rest h hbelow hrest ihbelow ihrest =>
    have hown : t.entity ∈ carried ++ [t.entity] :=
      List.mem_append_right carried List.mem_cons_self
    have hentity' := List.mem_append_left [t.entity] hentity
    have hopened := (h.stageClosed_opening hentity).reached hsub
    -- behind a traversal its entity alone has come into scope
    have hafter : ∀ inside : List Clause, Clause.scopeAfterAll scope (inside
        ++ t.closing carried (.map (stageEntries (carried ++ [t.entity]) below).result))
        = carried ++ [t.entity] := by
      intro inside
      rw [Clause.scopeAfterAll_append]
      exact filterMap_name?_carrying _ _ _
    rw [fits_traversal_iff hbelow hrest hsub key, stageEntries, stage,
      Clause.allFreshIn_append, hafter, Clause.allFreshIn_append, Clause.allFreshIn_append,
      Clause.allFreshIn_append, h.opening_freshIn_iff hnodup hsub]
    constructor
    · rintro ⟨⟨⟨⟨hopening, hinside⟩, -⟩, -⟩, hbehind⟩
      have hnodup' := Traversal.nodup_append_singleton.mpr ⟨hnodup, hopening.2⟩
      exact ⟨hopening, (ihbelow hnodup' hopened hown).mp hinside,
        (ihrest hnodup' (List.Subset.refl _) hentity').mp hbehind⟩
    -- what sorts and closes introduces nothing that was not checked where it was opened
    · rintro ⟨hopening, hinside, hbehind⟩
      have hnodup' := Traversal.nodup_append_singleton.mpr ⟨hnodup, hopening.2⟩
      refine ⟨⟨⟨⟨hopening, (ihbelow hnodup' hopened hown).mpr hinside⟩, ?_⟩, ?_⟩,
        (ihrest hnodup' (List.Subset.refl _) hentity').mpr hbehind⟩
      · exact Traversal.sorting_freshIn (hinside.nodup_scope hnodup')
      · exact Traversal.closing_freshIn hnodup' (hbelow.projection_freshIn _ _)

end Plan

end PropertyGraphQL
