/-
Translations are closed.

Whatever a field is for, its clauses read nothing that is not in scope:
each purpose makes its clauses around the plan of the selection, which is
closed from the variable of the entity on (`Plan.Formed.stageClosed`).
-/
import PropertyGraphQL.Proofs.Outcome.Statement
import PropertyGraphQL.Proofs.Scope.Plan

namespace PropertyGraphQL

open Cypher

variable {c : Compiler} {vars parameters : Dict Json} {f : RootField} {entity : String}

/-- In both dialects the projection of an entity is closed behind the clauses
that it needs. -/
theorem Compiler.projected_closed {entries : List (String × Plan)}
    (h : Plan.Formed parameters entity entries) :
    ∃ exit, StageClosed (· ∈ parameters.keys) [entity] (c.projected entity entries).2 exit
      ∧ (c.projected entity entries).1.ClosedIn (· ∈ parameters.keys) exit := by
  have hentity : entity ∈ [entity] := List.mem_cons_self
  unfold projected
  cases c.options.dialect with
  | comprehension =>
    exact ⟨[entity], .nil, hentity, h.projectionItems_closedIn _ hentity⟩
  | staged =>
    obtain ⟨hclauses, hresult⟩ := h.stageClosed hentity
    exact ⟨_, hclauses, hresult⟩

namespace Outcome

/-- A node matched by its identity is closed in any scope. -/
theorem Identified.properties_closedIn {head : FieldHead} {t : EntityType} {id : PropertyField}
    {node : NodePattern} (h : Identified vars parameters head t id entity node)
    (scope : List String) : node.ClosedIn (· ∈ parameters.keys) scope := by
  obtain ⟨-, -, he⟩ := h
  exact ⟨he.ground.closedIn, trivial⟩

/-- A node matched by its identity is bound under the name of the entity. -/
theorem Identified.binder {head : FieldHead} {t : EntityType} {id : PropertyField}
    {node : NodePattern} (h : Identified vars parameters head t id entity node) :
    node.binder = some entity := by
  obtain ⟨-, -, -⟩ := h
  rfl

/-- A pattern of one identified node introduces the node. -/
theorem Identified.introduced {head : FieldHead} {t : EntityType} {id : PropertyField}
    {node : NodePattern} (h : Identified vars parameters head t id entity node) :
    (Pattern.node node).introduced = [entity] := by
  show node.binder.toList = [entity]
  rw [h.binder]
  rfl

/-- The clause that matches a node by its identity is closed in any scope. -/
theorem Identified.matching_closedIn {head : FieldHead} {t : EntityType} {id : PropertyField}
    {node : NodePattern} (h : Identified vars parameters head t id entity node)
    (scope : List String) :
    (Clause.matching (.node node) false .always).ClosedIn (· ∈ parameters.keys) scope :=
  ⟨Pattern.closedIn_node (h.properties_closedIn scope), trivial⟩

/-- What is returned behind a change is closed where the node is in scope. -/
theorem Returning.closedIn {t : EntityType} {clauses : List Clause}
    (h : Returning c vars parameters f t entity clauses) {scope : List String}
    (hentity : entity ∈ scope) :
    Clause.AllClosedIn (· ∈ parameters.keys) scope clauses := by
  cases h with
  | count =>
    refine ⟨⟨fun item hitem => ?_, OrderBy.closedIn_none _ _⟩, trivial⟩
    rw [List.mem_singleton.mp hitem]
    exact trivial
  | @selected entries _ hentries =>
    obtain ⟨exit, hclauses, hprojection⟩ := Compiler.projected_closed (c := c) hentries.formed
    have hsub : [entity] ⊆ scope := List.cons_subset.mpr ⟨hentity, List.nil_subset _⟩
    -- the projection is closed in whatever scope the clauses before it leave
    have hreturn : ∀ {scope : List String}, exit ⊆ scope →
        Clause.AllClosedIn (· ∈ parameters.keys) scope
          [.returnItems [.aliased (c.projected entity entries).1 f.head.responseKey]
            none none none] := by
      intro scope hexit
      refine ⟨⟨fun item hitem => ?_, OrderBy.closedIn_none _ _⟩, trivial⟩
      rw [List.mem_singleton.mp hitem]
      exact hprojection.mono hexit
    split
    · next hempty =>
      rw [List.isEmpty_iff.mp hempty] at hclauses
      exact hreturn (hclauses.reached hsub)
    · refine ⟨⟨carried_closedIn hsub, OrderBy.closedIn_none _ _⟩, ?_⟩
      have hown : [entity] ⊆ [entity] := List.Subset.refl _
      exact Clause.allClosedIn_append.mpr ⟨hclauses.closed hown, hreturn (hclauses.reached hown)⟩

/-- The clauses that relate two nodes, or undo it. -/
theorem Relating.closedIn {t : EntityType} {r : RelationshipField} {connect : Bool}
    {clauses : List Clause} (h : Relating c vars parameters f t r connect clauses) :
    Clause.AllClosedIn (· ∈ parameters.keys) [] clauses := by
  obtain ⟨-, -, -, -, hsource, -, -, hids⟩ := h
  have hcount : ∀ scope : List String,
      Clause.AllClosedIn (· ∈ parameters.keys) scope [f.head.countClause] := by
    intro scope
    refine ⟨⟨fun item hitem => ?_, OrderBy.closedIn_none _ _⟩, trivial⟩
    rw [List.mem_singleton.mp hitem]
    exact trivial
  refine ⟨hsource.matching_closedIn [], ?_⟩
  rw [Clause.scopeAfter, hsource.introduced]
  split
  · have hscope : ["from"] ++ ["to"] ⊆ ["from", "to"] := List.Subset.refl _
    refine ⟨⟨Pattern.closedIn_node trivial, List.mem_append_right _ List.mem_cons_self,
      hids.ground.closedIn⟩, ⟨⟨?_, trivial, trivial, trivial⟩, hscope⟩, hcount _⟩
    rintro name hname
    cases hname
    exact List.mem_cons_self
  · refine ⟨⟨⟨?_, trivial, trivial, trivial⟩, List.mem_append_right _ ?_,
      hids.ground.closedIn⟩, ?_, hcount _⟩
    · rintro name hname
      cases hname
      exact List.mem_cons_self
    · exact List.mem_cons_of_mem _ List.mem_cons_self
    · exact List.cons_subset.mpr ⟨List.mem_append_right _ List.mem_cons_self, List.nil_subset _⟩

/-- The clauses that a field comes to are closed, whatever it is for. -/
theorem Clauses.closedIn {purpose : Purpose} {clauses : List Clause}
    (h : Clauses c vars parameters f purpose clauses) :
    Clause.AllClosedIn (· ∈ parameters.keys) [] clauses := by
  cases h with
  | @select t a entries ha hentries =>
    -- the root is in scope behind the first clause, and stays there
    have hroot : rootVariable t.name f.head.responseKey
        ∈ [rootVariable t.name f.head.responseKey] := List.mem_cons_self
    obtain ⟨exit, hclauses, hprojection⟩ := Compiler.projected_closed (c := c) hentries.formed
    have hown := List.Subset.refl [rootVariable t.name f.head.responseKey]
    refine ⟨⟨Pattern.closedIn_node trivial, ha.filtering.closedIn hroot⟩, ?_⟩
    refine Clause.allClosedIn_append.mpr ⟨hclauses.closed hown, ⟨?_, ?_⟩, trivial⟩
    · intro item hitem
      rw [List.mem_singleton.mp hitem]
      exact hprojection.mono (hclauses.reached hown)
    · exact ScopeArguments.orderByClause_closedIn a (hclauses.reached hown (hclauses.kept hroot))
  | @create t _ _ _ _ hproperties hreturning =>
    have hroot := List.mem_singleton_self (rootVariable t.name f.head.responseKey)
    refine ⟨Pattern.closedIn_node trivial, fun item hitem => ?_, hreturning.closedIn hroot⟩
    rw [List.mem_singleton.mp hitem]
    exact ⟨hroot, hproperties.ground.closedIn⟩
  | @update t _ _ _ _ _ _ hnode _ hproperties hreturning =>
    have hroot := List.mem_singleton_self (rootVariable t.name f.head.responseKey)
    refine ⟨hnode.matching_closedIn [], ?_⟩
    rw [Clause.scopeAfter, hnode.introduced]
    refine ⟨fun item hitem => ?_, hreturning.closedIn hroot⟩
    rw [List.mem_singleton.mp hitem]
    exact ⟨hroot, hproperties.ground.closedIn⟩
  | delete _ _ hnode =>
    refine ⟨hnode.matching_closedIn [], ?_⟩
    rw [Clause.scopeAfter, hnode.introduced]
    refine ⟨List.Subset.refl _, ⟨fun item hitem => ?_, OrderBy.closedIn_none _ _⟩, trivial⟩
    rw [List.mem_singleton.mp hitem]
    exact trivial
  | connect h => exact h.closedIn
  | disconnect h => exact h.closedIn

end Outcome

/-- A translation that succeeds is closed, in both dialects: every clause
reads only variables that are in scope where it stands, and refers only to
parameters that are returned with the statement. -/
theorem Compiler.closed_of_translates {purpose : Purpose} {compiled : Compiled}
    (h : c.Translates f vars purpose compiled) :
    ∃ s, compiled.body = .clauses s
      ∧ Clause.AllClosedIn (· ∈ compiled.parameters.keys) [] s.clauses := by
  obtain ⟨clauses, hbody, hclauses⟩ := clauses_of_translates h
  exact ⟨_, hbody, hclauses.closedIn⟩

/-- The staged statement for people and their movies is closed. -/
theorem Compiler.closed_people :
    ∃ compiled s, (Compiler.movies .staged).Translates .people RootField.peopleVars
        (.select .person) compiled
      ∧ compiled.body = .clauses s
      ∧ Clause.AllClosedIn (· ∈ compiled.parameters.keys) [] s.clauses := by
  obtain ⟨compiled, h⟩ := translates_people .staged
  obtain ⟨s, hbody, hclosed⟩ := closed_of_translates h
  exact ⟨compiled, s, h, hbody, hclosed⟩

end PropertyGraphQL
