/-
What a plan is turned into is closed.

As one expression a plan is closed where its entity is in scope. As clauses
it carries a list of variables along, and the invariant relates that list
to the real scope: the variables carried are in scope before the clauses
and behind them, and none is lost on the way (`StageClosed`). The real
scope may have more in it, such as the list that a statement gave.
-/
import PropertyGraphQL.Compile.Staged
import PropertyGraphQL.Proofs.Outcome.Form
import PropertyGraphQL.Proofs.Scope.Closed

namespace PropertyGraphQL

open Cypher

variable {parameters : Dict Json} {entity : String} {scope : List String}

-- ================================================================= leaves

namespace Cypher.Expression

/-- A list of expressions is closed exactly if each of them is. -/
theorem allClosedIn_iff {P : String → Prop} {es : List Expression} :
    Expression.AllClosedIn P scope es ↔ ∀ e ∈ es, e.ClosedIn P scope := by
  induction es with
  | nil => exact ⟨fun _ => List.forall_mem_nil _, fun _ => trivial⟩
  | cons e rest ih => rw [Expression.AllClosedIn, ih, List.forall_mem_cons]

/-- The entries of a map are closed exactly if each of them is. -/
theorem entriesClosedIn_iff {P : String → Prop} {entries : List (String × Expression)} :
    Expression.EntriesClosedIn P scope entries
      ↔ ∀ entry ∈ entries, entry.2.ClosedIn P scope := by
  induction entries with
  | nil => exact ⟨fun _ => List.forall_mem_nil _, fun _ => trivial⟩
  | cons entry rest ih => rw [Expression.EntriesClosedIn, ih, List.forall_mem_cons]

/-- What is ground reads no variable and refers to parameters with a value. -/
theorem Ground.closedIn {e : Expression} (h : e.Ground parameters) :
    e.ClosedIn (· ∈ parameters.keys) scope := by
  induction h with
  | literal => exact trivial
  | parameter h => exact h
  | list _ ih => exact allClosedIn_iff.mpr ih
  | map _ ih => exact entriesClosedIn_iff.mpr ih

/-- What reads a node in scope is closed, with the parameters made. -/
theorem Reading.closedIn {e : Expression} (h : e.Reading parameters entity)
    (hentity : entity ∈ scope) : e.ClosedIn (· ∈ parameters.keys) scope := by
  induction h with
  | ground h => exact h.closedIn
  | var | property => exact hentity
  | call _ ih => exact allClosedIn_iff.mpr ih
  | map _ ih => exact entriesClosedIn_iff.mpr ih

/-- A slice of a closed list is closed. -/
theorem sliced_closedIn {P : String → Prop} {e : Expression} (h : e.ClosedIn P scope)
    (lower upper : Option Int) : (e.sliced lower upper).ClosedIn P scope := by
  unfold sliced
  split
  · exact h
  · exact h

end Cypher.Expression

-- ============================================================= conditions

/-- A pattern of a shape leads on from its source. -/
theorem RelationshipShape.pattern_closedIn {P : String → Prop} {source : String}
    (h : source ∈ scope) (shape : RelationshipShape) (target label : String) :
    (shape.pattern source target label).ClosedIn P scope := by
  refine ⟨fun name hname => ?_, trivial, trivial, trivial⟩
  cases hname
  exact h

/-- A condition on an entity reads that entity alone. -/
theorem Cypher.Predicate.Filtering.closedIn {p : Predicate}
    (h : p.Filtering (Expression.Ground parameters) entity) (hentity : entity ∈ scope) :
    p.ClosedIn (· ∈ parameters.keys) scope := by
  induction h generalizing scope with
  | always | never => exact trivial
  | compare compared => exact ⟨hentity, compared.closedIn⟩
  | isNull | isNotNull => exact hentity
  | @quantified entity name label _ shape _ _ ih =>
    have hitem (names : List String) :
        entity ++ "_" ++ name ∈ names ++ [entity ++ "_" ++ name] :=
      List.mem_append_right names List.mem_cons_self
    exact ⟨⟨shape.pattern_closedIn hentity _ label, trivial, hitem scope⟩, ih (hitem scope)⟩
  | conj _ _ ihp ihq | disj _ _ ihp ihq => exact ⟨ihp hentity, ihq hentity⟩
  | neg _ ih => exact ih hentity

-- ============================================================= traversals

namespace Traversal.Formed

variable {t : Traversal} (h : t.Formed parameters entity)

include h

/-- The pattern of a traversal is closed where the node it starts from is in scope. -/
theorem pattern_closedIn (hentity : entity ∈ scope) :
    t.pattern.ClosedIn (· ∈ parameters.keys) scope := by
  refine t.shape.pattern_closedIn ?_ t.entity t.label
  rw [h.parent]
  exact hentity

theorem condition_closedIn (scope : List String) :
    t.arguments.condition.ClosedIn (· ∈ parameters.keys) (scope ++ [t.entity]) :=
  h.condition.closedIn (List.mem_append_right scope List.mem_cons_self)

/-- The related entities are found where the entity is in scope. -/
theorem matching_closedIn (hentity : entity ∈ scope) :
    t.matching.ClosedIn (· ∈ parameters.keys) scope := by
  unfold matching
  split
  · exact ⟨h.pattern_closedIn hentity, h.condition_closedIn scope,
      List.mem_append_right scope List.mem_cons_self⟩
  · next source hsource =>
    have hclosed := (h.source source hsource).closedIn hentity
    split
    · exact hclosed
    · exact ⟨hclosed, h.condition_closedIn scope, trivial⟩

/-- The projected list of a traversal is closed if what it projects is. -/
theorem projected_closedIn (hentity : entity ∈ scope) {projection : Expression}
    (hprojection : projection.ClosedIn (· ∈ parameters.keys) (scope ++ [t.entity])) :
    (t.projected projection).ClosedIn (· ∈ parameters.keys) scope := by
  unfold projected
  split
  · exact ⟨h.pattern_closedIn hentity, h.condition_closedIn scope, hprojection⟩
  · next source hsource =>
    exact ⟨(h.source source hsource).closedIn hentity, h.condition_closedIn scope, hprojection⟩

/-- The ordered and sliced list of a traversal is closed if what it projects is. -/
theorem related_closedIn (hentity : entity ∈ scope) (sortFunction : String)
    {projection : Expression}
    (hprojection : projection.ClosedIn (· ∈ parameters.keys) (scope ++ [t.entity])) :
    (t.related sortFunction projection).ClosedIn (· ∈ parameters.keys) scope := by
  unfold related
  dsimp only
  split
  · exact Expression.sliced_closedIn (h.projected_closedIn hentity hprojection) _ _
  · refine ⟨Expression.sliced_closedIn ?_ _ _, trivial, hprojection⟩
    refine (⟨h.matching_closedIn hentity, ?_, trivial⟩ : Expression.AllClosedIn _ _ [_, _])
    refine Expression.allClosedIn_iff.mpr fun key hkey => ?_
    obtain ⟨⟨property, order⟩, -, rfl⟩ := List.mem_map.mp hkey
    cases order with
    | ascending | descending => exact trivial

end Traversal.Formed

/-- The first element of a closed list is closed. -/
theorem Traversal.single_closedIn {P : String → Prop} (t : Traversal) {list : Expression}
    (h : list.ClosedIn P scope) : (t.single list).ClosedIn P scope := by
  unfold single
  split
  · exact h
  · exact ⟨h, trivial⟩

/-- An item of a projection is closed if its expression is. -/
theorem projectionItem_closedIn {P : String → Prop} (entity key : String) {e : Expression}
    (h : e.ClosedIn P scope) : (projectionItem entity key e).ClosedIn P scope := by
  unfold projectionItem
  split
  · split
    · exact trivial
    · exact h
  · exact h

-- ============================================================ expressions

/-- The projection of an entity is closed where the entity is in scope. -/
theorem Plan.Formed.projectionItems_closedIn {entries : List (String × Plan)}
    (h : Plan.Formed parameters entity entries) (sortFunction : String)
    (hentity : entity ∈ scope) :
    MapItem.AllClosedIn (· ∈ parameters.keys) scope
      (Plan.projectionItems sortFunction entity entries) := by
  induction h generalizing scope with
  | nil =>
    rw [projectionItems]
    exact trivial
  | value h _ ih =>
    rw [projectionItems, expression]
    exact ⟨projectionItem_closedIn _ _ (h.closedIn hentity), ih hentity⟩
  | @traversal _ _ t _ _ h _ _ ihbelow ihrest =>
    rw [projectionItems, expression]
    have hmem : t.entity ∈ scope ++ [t.entity] :=
      List.mem_append_right scope List.mem_cons_self
    refine ⟨projectionItem_closedIn _ _ (t.single_closedIn ?_), ihrest hentity⟩
    exact h.related_closedIn hentity sortFunction ⟨hmem, ihbelow hmem⟩

-- ================================================================= clauses

/-- Clauses that carry the variables `carried` along and go on with those of
`exit`: in every scope that has the variables carried, they are closed and
leave the exit variables in scope, the variables carried among them. -/
structure StageClosed (P : String → Prop) (carried : List String) (clauses : List Clause)
    (exit : List String) : Prop where
  closed {scope : List String} : carried ⊆ scope → Clause.AllClosedIn P scope clauses
  reached {scope : List String} : carried ⊆ scope →
    exit ⊆ Clause.scopeAfterAll scope clauses
  kept : carried ⊆ exit

namespace StageClosed

variable {P : String → Prop} {carried middle exit : List String}

/-- A stage of no clauses carries on what it began with. -/
theorem nil : StageClosed P carried [] carried where
  closed _ := trivial
  reached h := h
  kept := List.Subset.refl _

/-- Stages one after another are a stage. -/
theorem append {first second : List Clause} (h : StageClosed P carried first middle)
    (h' : StageClosed P middle second exit) : StageClosed P carried (first ++ second) exit where
  closed hsub := Clause.allClosedIn_append.mpr ⟨h.closed hsub, h'.closed (h.reached hsub)⟩
  reached hsub := by
    rw [Clause.scopeAfterAll_append]
    exact h'.reached (h.reached hsub)
  kept := List.Subset.trans h.kept h'.kept

end StageClosed

/-- Carried names are the names they are carried under. -/
theorem filterMap_name?_carried (names : List String) :
    (names.map ReturnItem.carried).filterMap ReturnItem.name? = names := by
  rw [List.filterMap_map]
  exact List.filterMap_some

/-- Behind a clause that carries names and adds one, these are in scope. -/
theorem filterMap_name?_carrying (names : List String) (e : Expression) (name : String) :
    (carrying names (.aliased e name)).filterMap ReturnItem.name? = names ++ [name] := by
  rw [carrying, List.filterMap_append, filterMap_name?_carried]
  rfl

/-- Names that are in scope may be carried. -/
theorem carried_closedIn {P : String → Prop} {carried : List String} (hsub : carried ⊆ scope) :
    ∀ item ∈ carried.map ReturnItem.carried, item.expression.ClosedIn P scope := by
  intro item hitem
  obtain ⟨name, hname, rfl⟩ := List.mem_map.mp hitem
  exact hsub hname

/-- Names that are in scope may be carried with a closed expression added. -/
theorem carrying_closedIn {P : String → Prop} {carried : List String} (hsub : carried ⊆ scope)
    {e : Expression} (he : e.ClosedIn P scope) (name : String) :
    ∀ item ∈ carrying carried (.aliased e name), item.expression.ClosedIn P scope := by
  intro item hitem
  rcases List.mem_append.mp hitem with hitem | hitem
  · exact carried_closedIn hsub item hitem
  · rw [List.mem_singleton.mp hitem]
    exact he

namespace ScopeArguments

/-- What entities are sorted by are properties of theirs. -/
theorem eq_property_of_mem {a : ScopeArguments} {keys : OrderBy} {key : Expression × SortOrder}
    (hkeys : keys ∈ a.orderByClause entity) (hkey : key ∈ keys) :
    ∃ property, key.1 = .property entity property := by
  unfold orderByClause at hkeys
  split at hkeys
  · cases hkeys
  · cases hkeys
    obtain ⟨⟨property, _⟩, -, rfl⟩ := List.mem_map.mp hkey
    exact ⟨property, rfl⟩

/-- Ordering by properties of an entity is closed where the entity is in scope. -/
theorem orderByClause_closedIn {P : String → Prop} (a : ScopeArguments)
    (hentity : entity ∈ scope) : OrderBy.ClosedIn P scope (a.orderByClause entity) := by
  intro keys hkeys key hkey
  obtain ⟨property, hproperty⟩ := eq_property_of_mem hkeys hkey
  rw [hproperty]
  exact hentity

end ScopeArguments

namespace Traversal

variable {t : Traversal} {carried : List String}

/-- The opening brings the related entities into scope. -/
theorem Formed.stageClosed_opening (h : t.Formed parameters entity)
    (hentity : entity ∈ carried) :
    StageClosed (· ∈ parameters.keys) carried (t.opening carried) (carried ++ [t.entity]) := by
  refine ⟨fun hsub => ?_, fun hsub => ?_, List.subset_append_left _ _⟩
  · unfold opening
    split
    · exact ⟨⟨h.pattern_closedIn (hsub hentity), h.condition_closedIn _⟩, trivial⟩
    · refine ⟨⟨carrying_closedIn hsub (h.matching_closedIn (hsub hentity)) _,
        OrderBy.closedIn_none _ _⟩, ?_, trivial⟩
      have hlist : t.listName ∈ (carrying carried (.aliased t.matching t.listName)).filterMap
          ReturnItem.name? := by
        rw [filterMap_name?_carrying]
        exact List.mem_append_right _ List.mem_cons_self
      exact ⟨⟨⟨hlist, trivial⟩, trivial⟩, ⟨trivial, trivial⟩, hlist⟩
  · unfold opening
    split
    · exact subset_append_right hsub [t.entity]
    · show carried ++ [t.entity] ⊆ (carrying carried (.aliased t.matching t.listName)).filterMap
        ReturnItem.name? ++ [t.entity]
      rw [filterMap_name?_carrying]
      exact subset_append_right (List.subset_append_left _ _) [t.entity]

/-- Sorting changes nothing of the scope. -/
theorem stageClosed_sorting {P : String → Prop} (hentity : t.entity ∈ carried) :
    StageClosed P carried (t.sorting carried) carried := by
  have hclosed := t.arguments.orderByClause_closedIn (P := P) hentity
  unfold sorting
  split
  · exact .nil
  · next orderBy horder =>
    rw [horder] at hclosed
    refine ⟨fun hsub => ⟨⟨carried_closedIn hsub, ?_⟩, trivial⟩, fun _ => ?_, List.Subset.refl _⟩
    · rw [filterMap_name?_carried]
      exact hclosed
    · show carried ⊆ (carried.map ReturnItem.carried).filterMap ReturnItem.name?
      rw [filterMap_name?_carried]
      exact List.Subset.refl _

/-- The closing goes back from all that is in scope below a traversal to what
was carried before it, and the related entities. -/
theorem stageClosed_closing {P : String → Prop} {below : List String}
    (hsub : carried ++ [t.entity] ⊆ below) {projection : Expression}
    (hprojection : projection.ClosedIn P below) :
    (∀ {scope : List String}, below ⊆ scope →
      Clause.AllClosedIn P scope (t.closing carried projection))
    ∧ ∀ scope, Clause.scopeAfterAll scope (t.closing carried projection)
      = carried ++ [t.entity] := by
  refine ⟨fun hscope => ?_, fun scope => filterMap_name?_carrying _ _ _⟩
  have hall := List.Subset.trans hsub hscope
  have hentity := hall (List.mem_append_right carried List.mem_cons_self)
  have hcarried := List.Subset.trans (List.subset_append_left carried [t.entity]) hall
  refine ⟨⟨carrying_closedIn hcarried (t.single_closedIn ?_) _,
    OrderBy.closedIn_none _ _⟩, trivial⟩
  refine Expression.sliced_closedIn ?_ _ _
  refine (⟨?_, trivial⟩ : Expression.AllClosedIn _ _ [_])
  exact ⟨hentity, trivial, hprojection.mono hscope⟩

end Traversal

/-- The clauses of a plan carry what they started with through, and behind
them everything that the projection reads is in scope. -/
theorem Plan.Formed.stageClosed {entries : List (String × Plan)}
    (h : Plan.Formed parameters entity entries) {carried : List String}
    (hentity : entity ∈ carried) :
    let stage := Plan.stageEntries carried entries
    StageClosed (· ∈ parameters.keys) carried stage.clauses stage.scope
      ∧ Expression.EntriesClosedIn (· ∈ parameters.keys) stage.scope stage.result := by
  induction h generalizing carried with
  | nil =>
    rw [Plan.stageEntries]
    exact ⟨.nil, trivial⟩
  | value h _ ih =>
    rw [Plan.stageEntries, Plan.stage]
    obtain ⟨hrest, hresult⟩ := ih hentity
    exact ⟨hrest, (h.closedIn hentity).mono hrest.kept, hresult⟩
  | @traversal _ _ t below rest h _ _ ihbelow ihrest =>
    rw [Plan.stageEntries, Plan.stage]
    dsimp only
    -- below, the entity of the traversal is carried too
    have hown : t.entity ∈ carried ++ [t.entity] :=
      List.mem_append_right carried List.mem_cons_self
    obtain ⟨hbelow, hprojection⟩ := ihbelow hown
    obtain ⟨hrest, hresult⟩ := ihrest (List.mem_append_left [t.entity] hentity)
    have hinside := ((h.stageClosed_opening hentity).append hbelow).append
      (Traversal.stageClosed_sorting (hbelow.kept hown))
    generalize Plan.stageEntries (carried ++ [t.entity]) below = stage at *
    have hmap : (Expression.map stage.result).ClosedIn (· ∈ parameters.keys) stage.scope :=
      hprojection
    obtain ⟨hclosed, hafter⟩ := Traversal.stageClosed_closing hbelow.kept hmap
    -- whatever was in scope inside, only the list remains
    have hstage : StageClosed (· ∈ parameters.keys) carried _ (carried ++ [t.entity]) := {
      closed := fun hsub => Clause.allClosedIn_append.mpr
        ⟨hinside.closed hsub, hclosed (hinside.reached hsub)⟩
      reached := fun _ => by
        rw [Clause.scopeAfterAll_append, hafter]
        exact List.Subset.refl _
      kept := List.subset_append_left _ _ }
    exact ⟨hstage.append hrest, hrest.kept hown, hresult⟩

end PropertyGraphQL
