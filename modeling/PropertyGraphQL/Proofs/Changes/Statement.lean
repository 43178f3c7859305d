/-
What the statement of a field may change.

A statement that selects matches once, goes on with clauses of the nested
kinds and returns; it changes nothing. A statement for a mutation begins
with the clauses of its change, which are fixed for each kind of mutation
(`GeneratedMutation.kinds`), and everything behind them is as for a
selection. What the change writes is told apart by the clauses before it
(`Confined`): a node just made or the identified one, or a relationship
between the identified node and nodes that are listed. So no statement
writes to anything that its arguments do not name.
-/
import PropertyGraphQL.Proofs.Changes.Kinds
import PropertyGraphQL.Proofs.Outcome.Statement

namespace PropertyGraphQL

open Cypher

-- =================================================================== forms

namespace GeneratedMutation

/-- The type whose nodes a mutation is about. -/
def type : GeneratedMutation → EntityType
  | create t | update t | delete t | addRelationship t _ | deleteRelationship t _ => t

/-- The kinds of the clauses that make the change. -/
def kinds : GeneratedMutation → List ClauseKind
  | create _ => [.create, .set [.replace]]
  | update _ => [.matching false, .set [.merge]]
  | delete _ => [.matching false, .delete true]
  | addRelationship _ _ => [.matching false, .matching false, .merge]
  | deleteRelationship _ _ => [.matching false, .matching false, .delete false]

end GeneratedMutation

/-- The kinds of the clauses that a statement begins with. -/
def Purpose.kinds : Purpose → List ClauseKind
  | select _ => [.matching false]
  | change mutation => mutation.kinds

-- ============================================================= confinement

namespace Outcome

variable (c : Compiler) (vars parameters : Dict Json) (f : RootField)

/-- Clauses make the node of a variable, or match it by the label of its type
and by its identifying property, which equals a parameter with the value of
its argument. -/
inductive Tells (t : EntityType) (clauses : List Clause) (entity : String) : Prop where
  | made {labels : List String} (h : .create (.node ⟨some entity, labels, []⟩) ∈ clauses)
  | identified {id : PropertyField} {node : NodePattern} (hid : t.idPropertyField? = some id)
      (hnode : Identified vars parameters f.head t id entity node)
      (h : .matching (.node node) false .always ∈ clauses)

/-- Clauses match the nodes of a variable by the label of a related type, and
only those whose identifying property is in the list that the argument
gives. -/
inductive Lists (r : RelationshipField) (clauses : List Clause) (entity : String) : Prop where
  | intro {target : EntityType} {targetId : PropertyField} {x : Value} {j : Json}
      {ids : Expression} {pattern : Pattern}
      (htarget : c.catalog.type? r.shape.targetType = some target)
      (htargetId : target.idPropertyField? = some targetId)
      (hx : f.head.arguments.get? r.name = some x) (hj : x.StandsFor vars j)
      (hids : ids.BoundTo parameters (Compiler.targetIds j))
      (hnode : .labelled entity target.name ∈ pattern.start :: pattern.hops.map Prod.snd)
      (h : .matching pattern false (.compare .member (.property entity targetId.name) ids)
        ∈ clauses)

/-- What a mutation writes behind other clauses is what they tell: the node of
its type, or relationships of its field from that node to the nodes listed. -/
inductive Confined : GeneratedMutation → List Clause → Clause → Prop where
  | create {t : EntityType} {before : List Clause} {entity : String} :
      Confined (.create t) before (.create (.node ⟨some entity, t.allLabels, []⟩))
  | set {mutation : GeneratedMutation} {before : List Clause} {items : List SetItem}
      (h : ∀ item ∈ items, Tells vars parameters f mutation.type before item.target) :
      Confined mutation before (.set items)
  | delete {t : EntityType} {before : List Clause} {targets : List String}
      (h : ∀ entity ∈ targets, Tells vars parameters f t before entity) :
      Confined (.delete t) before (.delete targets true)
  | connect {t : EntityType} {r : RelationshipField} {before : List Clause}
      {source target : String} (hsource : Tells vars parameters f t before source)
      (htarget : Lists c vars parameters f r before target) :
      Confined (.addRelationship t r) before
        (.merge ((Pattern.node (.named source)).related
          ⟨none, r.shape.relationshipType, r.shape.direction⟩ (.named target)))
  | disconnect {t : EntityType} {r : RelationshipField} {before : List Clause}
      {targets : List String}
      (h : ∀ name ∈ targets, ∃ source target label condition,
        Tells vars parameters f t before source
          ∧ Lists c vars parameters f r before target
          ∧ .matching ((Pattern.node (.named source)).related
              ⟨some name, r.shape.relationshipType, r.shape.direction⟩
              (.labelled target label)) false condition ∈ before) :
      Confined (.deleteRelationship t r) before (.delete targets false)

/-- The discipline of a statement's clauses. -/
structure Disciplined (purpose : Purpose) (clauses : List Clause) : Prop where
  /-- The clauses of the purpose come first, then those for nested selections. -/
  form : ∃ middle, clauses.map Clause.kind = purpose.kinds ++ middle ++ [.returnItems]
    ∧ ∀ k ∈ middle, k ∈ ClauseKind.nested
  /-- A selection writes nothing, and a mutation only what it has told. -/
  confined : Clause.EachWrite (fun before clause => ∃ mutation, purpose = .change mutation
    ∧ Confined c vars parameters f mutation before clause) clauses
  separated : ClauseKind.SeparatedByWith (clauses.map Clause.kind)
  /-- The one clause that returns is the last. -/
  returning : (clauses.map Clause.kind).count .returnItems = 1
  /-- A single column is returned, under the key of the field. -/
  column : ∃ init projection orderBy skip limit,
    clauses = init ++ [.returnItems [.aliased projection f.head.responseKey] orderBy skip limit]

end Outcome

-- ============================================================ what follows

/-- The projection of an entity needs clauses of the nested kinds only. -/
theorem Compiler.kind_of_mem_projected {c : Compiler} {entity : String}
    {entries : List (String × Plan)} {clause : Clause}
    (h : clause ∈ (c.projected entity entries).2) : clause.kind ∈ ClauseKind.nested := by
  unfold projected at h
  split at h
  · cases h
  · exact Plan.kind_of_mem_stageEntries _ _ h

/-- What stands behind the first clauses of a statement: clauses for nested
selections, and the one that returns. -/
structure Cypher.Clause.Follow (key : String) (clauses : List Clause) : Prop where
  form : ∃ middle, clauses.map Clause.kind = middle ++ [.returnItems]
    ∧ ∀ k ∈ middle, k ∈ ClauseKind.nested
  column : ∃ init projection orderBy skip limit,
    clauses = init ++ [.returnItems [.aliased projection key] orderBy skip limit]

namespace Cypher.Clause.Follow

variable {key : String} {clauses : List Clause}

/-- Clauses that read below an entity, and one `RETURN` of a projection under the key, may
follow the writes. -/
theorem intro {reading : List Clause} (h : ∀ clause ∈ reading, clause.kind ∈ ClauseKind.nested)
    (projection : Expression) (orderBy : Option OrderBy) (skip limit : Option Int) :
    Follow key
      (reading ++ [.returnItems [.aliased projection key] orderBy skip limit]) where
  form := by
    refine ⟨reading.map Clause.kind, List.map_append, fun k hk => ?_⟩
    obtain ⟨clause, hclause, rfl⟩ := List.mem_map.mp hk
    exact h clause hclause
  column := ⟨reading, projection, orderBy, skip, limit, rfl⟩

/-- What follows the writes does not write. -/
theorem writes_kind (h : Follow key clauses) :
    ∀ k ∈ clauses.map Clause.kind, k.writes = false := by
  obtain ⟨middle, hkinds, hmiddle⟩ := h.form
  rw [hkinds]
  intro k hk
  rcases List.mem_append.mp hk with hk | hk
  · exact ClauseKind.writes_of_mem_nested (hmiddle k hk)
  · rw [List.mem_singleton.mp hk]
    rfl

theorem eachWrite (h : Follow key clauses) (P : List Clause → Clause → Prop) :
    EachWrite P clauses :=
  eachWrite_of_writes fun _ hclause => h.writes_kind _ (List.mem_map_of_mem hclause)

end Cypher.Clause.Follow

/-- Behind a change it stands so that what is read waits for a `WITH`. -/
theorem Outcome.Returning.follow {c : Compiler} {vars parameters : Dict Json} {f : RootField}
    {t : EntityType} {entity : String} {clauses : List Clause}
    (h : Returning c vars parameters f t entity clauses) :
    Clause.Follow f.head.responseKey clauses
      ∧ ClauseKind.AwaitsWith (clauses.map Clause.kind) := by
  have hreturn : ClauseKind.AwaitsWith [.returnItems] :=
    ClauseKind.awaitsWith_of_reads (by decide)
  cases h with
  | count => exact ⟨.intro (List.forall_mem_nil _) _ _ _ _, hreturn⟩
  | selected =>
    split
    · exact ⟨.intro (List.forall_mem_nil _) _ _ _ _, hreturn⟩
    · refine ⟨.intro (fun clause hclause => ?_) _ _ _ _, ClauseKind.awaitsWith_withItems _⟩
      rcases List.mem_cons.mp hclause with rfl | hclause
      · exact ClauseKind.withItems_mem_nested
      · exact Compiler.kind_of_mem_projected hclause

-- ================================================================== changes

/-- No purpose returns before what follows. -/
theorem Purpose.not_mem_kinds (purpose : Purpose) : .returnItems ∉ purpose.kinds := by
  cases purpose with
  | select t => exact (by decide : ClauseKind.returnItems ∉ [ClauseKind.matching false])
  | change mutation =>
    cases mutation with
    | _ => simp [kinds, GeneratedMutation.kinds]

/-- The clauses of a change separate nothing, so what follows them has to wait
for a `WITH`. -/
theorem GeneratedMutation.separatedByWith (mutation : GeneratedMutation)
    {following : List ClauseKind} (hwrites : ∀ k ∈ following, k.writes = false)
    (hawaits : ClauseKind.AwaitsWith following) :
    ClauseKind.SeparatedByWith (mutation.kinds ++ following) := by
  have hend := ClauseKind.separatedByWith_of_writes hwrites
  cases mutation with
  | create t => exact .cons (fun _ => hawaits.cons rfl) (.cons (fun _ => hawaits) hend)
  | update t => exact .cons nofun (.cons (fun _ => hawaits) hend)
  | delete t => exact .cons nofun (.cons (fun _ => hawaits) hend)
  | addRelationship t r => exact .cons nofun (.cons nofun (.cons (fun _ => hawaits) hend))
  | deleteRelationship t r => exact .cons nofun (.cons nofun (.cons (fun _ => hawaits) hend))

namespace Outcome

variable {c : Compiler} {vars parameters : Dict Json} {f : RootField}

/-- Clauses are disciplined if they begin as their purpose does, and what
follows is disciplined. -/
theorem Disciplined.of_follow {purpose : Purpose} (first : List Clause)
    {following : List Clause} (hfirst : first.map Clause.kind = purpose.kinds)
    (hfollow : Clause.Follow f.head.responseKey following)
    (hconfined : Clause.EachWrite (fun before clause => ∃ mutation, purpose = .change mutation
      ∧ Confined c vars parameters f mutation before clause) (first ++ following))
    (hseparated : ClauseKind.SeparatedByWith (purpose.kinds ++ following.map Clause.kind)) :
    Disciplined c vars parameters f purpose (first ++ following) := by
  obtain ⟨middle, hkinds, hmiddle⟩ := hfollow.form
  obtain ⟨init, projection, orderBy, skip, limit, rfl⟩ := hfollow.column
  have hall : (first ++ (init ++ [Clause.returnItems [.aliased projection f.head.responseKey]
      orderBy skip limit])).map Clause.kind = purpose.kinds ++ middle ++ [.returnItems] := by
    rw [List.map_append, hfirst, hkinds, List.append_assoc]
  refine ⟨⟨middle, hall, hmiddle⟩, hconfined, ?_, ?_, ?_⟩
  · rw [List.map_append, hfirst]
    exact hseparated
  · have hmem : .returnItems ∉ middle := fun hmem => by
      have := hmiddle _ hmem
      revert this
      decide
    rw [hall, List.count_append, List.count_append,
      List.count_eq_zero.mpr purpose.not_mem_kinds, List.count_eq_zero.mpr hmem]
    rfl
  · exact ⟨first ++ init, projection, orderBy, skip, limit, (List.append_assoc ..).symm⟩

/-- A selection has nothing to confine. -/
theorem Disciplined.of_select {t : EntityType} {pattern : Pattern} {condition : Predicate}
    {following : List Clause} (hfollow : Clause.Follow f.head.responseKey following) :
    Disciplined c vars parameters f (.select t)
      (.matching pattern false condition :: following) :=
  .of_follow [_] rfl hfollow (.cons nofun (hfollow.eachWrite _))
    (.cons nofun (ClauseKind.separatedByWith_of_writes hfollow.writes_kind))

/-- A change whose clauses are confined is disciplined, whatever is selected
behind it. -/
theorem Disciplined.of_change {mutation : GeneratedMutation} (first : List Clause)
    {following : List Clause} (hfirst : first.map Clause.kind = mutation.kinds)
    (hfollow : Clause.Follow f.head.responseKey following)
    (hawaits : ClauseKind.AwaitsWith (following.map Clause.kind))
    (hconfined : Clause.EachWrite (Confined c vars parameters f mutation)
      (first ++ following)) :
    Disciplined c vars parameters f (.change mutation) (first ++ following) :=
  .of_follow first hfirst hfollow
    (fun _ _ _ heq hwrites => ⟨mutation, rfl, hconfined heq hwrites⟩)
    (mutation.separatedByWith hfollow.writes_kind hawaits)

/-- The clause that counts what was changed may follow the writes, and need not wait for a
`WITH`. -/
theorem follow_countClause :
    Clause.Follow f.head.responseKey [f.head.countClause]
      ∧ ClauseKind.AwaitsWith ([f.head.countClause].map Clause.kind) :=
  ⟨.intro (List.forall_mem_nil _) _ _ _ _,
    ClauseKind.awaitsWith_of_reads (by decide : ∀ k ∈ [ClauseKind.returnItems], _)⟩

/-- Relationships are written from the identified node to the listed ones. -/
theorem Relating.disciplined {t : EntityType} {r : RelationshipField} {connect : Bool}
    {clauses : List Clause} (h : Relating c vars parameters f t r connect clauses) :
    Disciplined c vars parameters f
      (.change (if connect then .addRelationship t r else .deleteRelationship t r)) clauses := by
  obtain ⟨hid, htarget, htargetId, -, hsource, hx, hj, hids⟩ := h
  obtain ⟨hfollow, hawaits⟩ := follow_countClause (f := f)
  cases connect with
  | true =>
    refine .of_change (_ :: [_, _]) rfl hfollow hawaits (.cons nofun (.cons nofun (.cons ?_ ?_)))
    · intro _
      refine .connect (.identified hid hsource List.mem_cons_self) ?_
      exact .intro htarget htargetId hx hj hids List.mem_cons_self
        (List.mem_cons_of_mem _ List.mem_cons_self)
    · exact hfollow.eachWrite _
  | false =>
    refine .of_change (_ :: [_, _]) rfl hfollow hawaits (.cons nofun (.cons nofun (.cons ?_ ?_)))
    · intro _
      refine .disconnect fun name hname => ?_
      rw [List.mem_singleton.mp hname]
      refine ⟨"from", "to", _, _, .identified hid hsource List.mem_cons_self, ?_,
        List.mem_cons_of_mem _ List.mem_cons_self⟩
      exact .intro htarget htargetId hx hj hids
        (List.mem_cons_of_mem _ List.mem_cons_self)
        (List.mem_cons_of_mem _ List.mem_cons_self)
    · exact hfollow.eachWrite _

/-- The clauses of a purpose write and read in its order. -/
theorem Clauses.disciplined {purpose : Purpose} {clauses : List Clause}
    (h : Clauses c vars parameters f purpose clauses) :
    Disciplined c vars parameters f purpose clauses := by
  cases h with
  | select => exact .of_select (.intro (fun _ h => Compiler.kind_of_mem_projected h) _ _ _ _)
  | create _ _ hreturning =>
    obtain ⟨hfollow, hawaits⟩ := hreturning.follow
    refine .of_change [_, _] rfl hfollow hawaits (.cons ?_ (.cons ?_ ?_))
    · exact fun _ => .create
    -- the node is one that was made in the clause before
    · intro _
      refine .set fun item hitem => ?_
      rw [List.mem_singleton.mp hitem]
      exact .made List.mem_cons_self
    · exact hfollow.eachWrite _
  | update hid hnode _ _ hreturning =>
    obtain ⟨hfollow, hawaits⟩ := hreturning.follow
    refine .of_change [_, _] rfl hfollow hawaits (.cons nofun (.cons ?_ ?_))
    · intro _
      refine .set fun item hitem => ?_
      rw [List.mem_singleton.mp hitem]
      exact .identified hid hnode List.mem_cons_self
    · exact hfollow.eachWrite _
  | delete hid _ hnode =>
    obtain ⟨hfollow, hawaits⟩ := follow_countClause (f := f)
    refine .of_change [_, _] rfl hfollow hawaits (.cons nofun (.cons ?_ ?_))
    · intro _
      refine .delete fun entity hentity => ?_
      rw [List.mem_singleton.mp hentity]
      exact .identified hid hnode List.mem_cons_self
    · exact hfollow.eachWrite _
  | connect h => exact h.disciplined
  | disconnect h => exact h.disciplined

end Outcome

/-- Every statement is disciplined, in both dialects. One that selects is one
`MATCH`, clauses of the nested kinds and one `RETURN`, and writes nothing. One
for a mutation begins with the clauses of its change, which write only what is
told by its arguments, and reads behind them only after a `WITH`. The `RETURN`
is the last clause, and has a single column under the key of the field. -/
theorem Compiler.disciplined_of_translates {c : Compiler} {f : RootField} {vars : Dict Json}
    {purpose : Purpose} {compiled : Compiled} (h : c.Translates f vars purpose compiled) :
    ∃ s, compiled.body = .clauses s
      ∧ Outcome.Disciplined c vars compiled.parameters f purpose s.clauses := by
  obtain ⟨clauses, hbody, hclauses⟩ := clauses_of_translates h
  exact ⟨_, hbody, hclauses.disciplined⟩

-- ============================================================= an instance

namespace Compiler

variable {c : Compiler} {f : RootField} {vars : Dict Json}

/-- What is returned behind a change is known as soon as the plan of the selection
is. -/
theorem run_returning {t : EntityType} {entity : String} {entries : List (String × Plan)}
    {p q : Parameters} (hselected : f.selections.isEmpty = false)
    (hplan : (c.plan t entity f.selections).run p = .ok (entries, q)) :
    (c.returning f t entity).run p
      = .ok ((if (c.projected entity entries).2.isEmpty then []
            else .withItems [.carried entity] none :: (c.projected entity entries).2)
          ++ [.returnItems [.aliased (c.projected entity entries).1 f.head.responseKey]
            none none none], q) := by
  have hproject : (c.project t entity f.selections).run p
      = .ok (c.projected entity entries, q) := by
    unfold project projected
    rw [StateT.run_bind, hplan]
    cases c.options.dialect with
    | staged | comprehension => rfl
  unfold returning
  rw [hselected, if_neg Bool.false_ne_true, StateT.run_bind, hproject]
  rfl

/-- The clauses of an update are known as soon as what it returns is. -/
theorem run_updateClauses {t : EntityType} {id : PropertyField} {node : NodePattern}
    {given : Dict Json} {properties : Expression} {following : List Clause}
    {p p₁ p₂ p₃ q : Parameters} (hid : t.idPropertyField? = some id)
    (hnode : (f.head.identifiedNode t id (rootVariable t.name f.head.responseKey)).run p
      = .ok (node, p₁))
    (hgiven : (f.head.storedProperties t (some id.name)).run p₁ = .ok (given, p₂))
    (hproperties : (Compiling.bind "properties" (.obj given)).run p₂ = .ok (properties, p₃))
    (hreturning : (c.returning f t (rootVariable t.name f.head.responseKey)).run p₃
      = .ok (following, q)) :
    (c.updateClauses f t).run p
      = .ok (.matching (.node node) false .always
          :: .set [.merge (rootVariable t.name f.head.responseKey) properties] :: following,
        q) := by
  unfold updateClauses FieldHead.idProperty
  simp only [hid, StateT.run_bind, StateT.run_pure, pure_bind]
  simp only [hnode, hgiven, hproperties, hreturning, bind, Except.bind]
  rfl

/-- A mutation whose name is read is compiled to its clauses. -/
theorem mutation_eq_of_run {generated : GeneratedMutation} {clauses : List Clause}
    {p : Parameters} (hdeclared : c.catalog.mutations.get? f.head.name = none)
    (hnamed : c.catalog.mutationNamed? f.head.name = some generated)
    (hrun : (c.mutationClauses f generated).run ⟨vars, []⟩ = .ok (clauses, p)) :
    c.mutation f vars = .ok (finish f.head clauses p false) := by
  unfold mutation runWith
  simp only [hdeclared, hnamed, hrun]
  rfl

end Compiler

/-- People, told by their names. -/
def EntityType.named : EntityType := { EntityType.person with idProperty := some "name" }

/-- Movies and people who are told by their names. -/
def Catalog.named : Catalog :=
  { Catalog.empty with types := [("Movie", .movie), ("Person", .named)] }

def Compiler.named : Compiler := ⟨.named, { CompileOptions.standard with dialect := .staged }⟩

/-- A field that changes a person and asks for their movies. -/
def RootField.aging : RootField where
  head := ⟨"updatePerson", none, [("name", .var "name"), ("born", .int 1964)], []⟩
  selections :=
    [.field (.plain "born") [], .field (.plain "movies") [.field (.plain "title") []]]

/-- The statement of the field writes to a person, and reads behind that. -/
theorem Compiler.translates_aging :
    ∃ compiled, Compiler.named.Translates .aging [("name", .str "Keanu")]
      (.change (.update .named)) compiled := by
  have hpurpose : Compiler.named.purpose? true .aging = some (.change (.update .named)) := rfl
  have hnamed : Compiler.named.catalog.mutationNamed? "updatePerson" = some (.update .named) :=
    rfl
  have hroot : rootVariable EntityType.named.name RootField.aging.head.responseKey
      = "person" := by decide
  have hreturning := run_returning (c := .named) (f := .aging) (t := .named)
    (p := ⟨[("name", .str "Keanu")],
      [("name", .str "Keanu"), ("properties", .obj [("born", .int 1964)])]⟩) rfl
    (run_planFields_value rfl
      (run_planFields_traversal rfl (run_planFields_value rfl (run_planFields_nil _ _))
        (run_planFields_nil "person" _)))
  have hrun := run_updateClauses (c := .named) (f := .aging) (t := .named)
    (p := ⟨[("name", .str "Keanu")], []⟩) rfl rfl rfl rfl (hroot ▸ hreturning)
  have hcompiled := mutation_eq_of_run (c := .named) (f := .aging) rfl hnamed hrun
  exact ⟨_, .compile hpurpose hcompiled⟩

/-- The statement of an update of a person keeps to that order. -/
theorem Compiler.disciplined_aging :
    ∃ compiled s, Compiler.named.Translates .aging [("name", .str "Keanu")]
        (.change (.update .named)) compiled
      ∧ compiled.body = .clauses s
      ∧ Outcome.Disciplined .named [("name", .str "Keanu")] compiled.parameters .aging
          (.change (.update .named)) s.clauses := by
  obtain ⟨compiled, h⟩ := translates_aging
  obtain ⟨s, hbody, hdisciplined⟩ := disciplined_of_translates h
  exact ⟨compiled, s, h, hbody, hdisciplined⟩

end PropertyGraphQL
