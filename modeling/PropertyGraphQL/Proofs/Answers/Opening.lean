/-
What the opening of a traversal makes of rows.

Every row binds the variables that are in scope and no other
(`Environment.Binds`), so rows are told apart by the values of these. A plain
traversal is opened by an `OPTIONAL MATCH`: from each row go on as many rows as
there are targets, or one with null (`Traversal.opened`). They are the rows
before it with a new variable, so they are distinct if these are and no target
is reached twice.
-/
import PropertyGraphQL.Proofs.Answers.Bag
import PropertyGraphQL.Proofs.Answers.Plan
import PropertyGraphQL.Proofs.Freshness.Plan

namespace PropertyGraphQL

open Cypher

variable {db : Database} {parameters : Dict Json} {entity : String}

-- =================================================================== rows

namespace Cypher.Environment

variable {env env' : Environment} {scope : List String} {name : String}

/-- The variables that are bound are those in scope. -/
def Binds (env : Environment) (scope : List String) : Prop :=
  ∀ name, env name = none ↔ name ∉ scope

/-- The values of the variables in scope. -/
def tuple (env : Environment) (scope : List String) : List Datum := scope.map env.value

theorem Binds.eq_none (h : env.Binds scope) (hname : name ∉ scope) : env name = none :=
  (h name).mpr hname

/-- Variables in scope have their value. -/
theorem Binds.eq_value (h : env.Binds scope) (hname : name ∈ scope) :
    env name = some (env.value name) := by
  unfold value
  cases hvalue : env name with
  | none => exact absurd hname ((h name).mp hvalue)
  | some d => rfl

/-- Binding one more variable extends the scope by it. -/
theorem Binds.bind (h : env.Binds scope) (name : String) (d : Datum) :
    (env.bind name d).Binds (scope ++ [name]) := by
  intro other
  rw [List.mem_append, List.mem_singleton, not_or, ← h other]
  unfold Environment.bind
  split
  · next heq => exact ⟨nofun, fun hnot => absurd heq hnot.2⟩
  · next hne => exact ⟨fun hnone => ⟨hnone, hne⟩, fun hnot => hnot.1⟩

/-- The tuple of a scope depends on nothing but the variables in it. -/
theorem tuple_congr (h : ∀ name ∈ scope, env' name = env name) :
    env'.tuple scope = env.tuple scope := by
  refine List.map_congr_left fun name hname => ?_
  unfold value
  rw [h name hname]

/-- Rows with the same variables are told apart by their values. -/
theorem Binds.eq_of_tuple_eq (h : env.Binds scope) (h' : env'.Binds scope)
    (htuple : env.tuple scope = env'.tuple scope) : env = env' := by
  funext name
  by_cases hname : name ∈ scope
  · rw [h.eq_value hname, h'.eq_value hname, List.map_inj_left.mp htuple name hname]
  · rw [h.eq_none hname, h'.eq_none hname]

/-- A new variable changes no other. -/
theorem bind_of_mem (hnew : name ∉ scope) (d : Datum) :
    ∀ other ∈ scope, (env.bind name d) other = env other := by
  intro other hother
  refine bind_other env (fun heq => ?_) d
  exact hnew (heq ▸ hother)

/-- Rows differ if they differ before, or in the value of a new variable. -/
theorem bind_inj (h : env.Binds scope) (h' : env'.Binds scope) (hnew : name ∉ scope)
    {d d' : Datum} (heq : env.bind name d = env'.bind name d') : env = env' ∧ d = d' := by
  constructor
  · refine h.eq_of_tuple_eq h' ?_
    have htuple : (env.bind name d).tuple scope = (env'.bind name d').tuple scope := by rw [heq]
    rwa [tuple_congr (bind_of_mem hnew d), tuple_congr (bind_of_mem hnew d')] at htuple
  · have hvalue : (env.bind name d).value name = (env'.bind name d').value name := by rw [heq]
    rwa [value_bind_self, value_bind_self] at hvalue

end Cypher.Environment

-- ================================================================= opening

namespace Traversal

variable (db) in
/-- What the variable of a traversal stands for in the rows that go on from one
in which its parent has a value: the targets, or null if there are none. -/
def reaches (t : Traversal) : Datum → List Datum
  | .node n => if (t.targets db n).isEmpty then [.null] else (t.targets db n).map .node
  | _ => [.null]

variable {t : Traversal}

/-- A traversal reaches something from everywhere: null, if there is no target. -/
theorem reaches_ne_nil (t : Traversal) (d : Datum) : t.reaches db d ≠ [] := by
  unfold reaches
  split
  · split
    · exact List.cons_ne_nil _ _
    · next hne => exact fun hnil => hne (List.isEmpty_iff.mpr (List.map_eq_nil_iff.mp hnil))
  · exact List.cons_ne_nil _ _

/-- Where there is a match the variable stands for a target. -/
theorem eq_null_or_mem_of_mem_reaches {d d' : Datum} (h : d' ∈ t.reaches db d) :
    d' = .null ∨ ∃ n m, d = .node n ∧ d' = .node m ∧ m ∈ t.targets db n := by
  unfold reaches at h
  split at h
  · next n =>
    split at h
    · exact .inl (List.mem_singleton.mp h)
    · obtain ⟨m, hm, rfl⟩ := List.mem_map.mp h
      exact .inr ⟨n, m, rfl, rfl, hm⟩
  · exact .inl (List.mem_singleton.mp h)

/-- What a traversal reaches is distinct if the targets of every node are. -/
theorem nodup_reaches {d : Datum} (h : ∀ n, d = .node n → (t.targets db n).Nodup) :
    (t.reaches db d).Nodup := by
  unfold reaches
  split
  · next n =>
    split
    · exact List.nodup_singleton _
    · exact (h n rfl).map fun _ _ heq => Datum.node.inj heq
  · exact List.nodup_singleton _

variable (db) in
/-- The rows that go on from others, where the variable of a traversal stands for
what it reaches. -/
def opened (t : Traversal) (entity : String) (rows : List Cypher.Environment) :
    List Cypher.Environment :=
  rows.flatMap fun env => (t.reaches db (env.value entity)).map fun d => env.bind t.entity d

/-- An opened row is one of the rows before, with what its entity reaches bound. -/
theorem mem_opened {rows : List Cypher.Environment} {row : Cypher.Environment}
    (h : row ∈ t.opened db entity rows) :
    ∃ env ∈ rows, ∃ d ∈ t.reaches db (env.value entity), row = env.bind t.entity d := by
  obtain ⟨env, henv, hrow⟩ := List.mem_flatMap.mp h
  obtain ⟨d, hd, rfl⟩ := List.mem_map.mp hrow
  exact ⟨env, henv, d, hd, rfl⟩

/-- A pattern that starts from null is matched nowhere. -/
theorem matchings_null (hparent : t.parent = entity) {env : Cypher.Environment}
    (hn : env entity = some .null) : Pattern.matchings db env t.pattern = [] := by
  unfold pattern RelationshipShape.pattern Pattern.related Pattern.node NodePattern.named
  rw [Pattern.matchings, hparent]
  unfold Graph.starts
  rw [Option.bind_some, hn]
  rfl

/-- The row that goes on without a match has null for the variable alone. -/
theorem orNull_names (hparent : t.parent = entity) {env : Cypher.Environment} {d : Datum}
    (hn : env entity = some d) (hentity : env t.entity = none) :
    env.orNull t.pattern.names = env.bind t.entity .null := by
  have hnames : t.pattern.names = [entity, t.entity] := by
    rw [← hparent]
    rfl
  funext name
  unfold Environment.orNull Environment.bind Environment.value
  rw [hnames]
  by_cases hname : name = t.entity
  · rw [if_pos hname, if_pos (by rw [hname]; exact List.mem_cons_of_mem _ List.mem_cons_self),
      hname, hentity]
    rfl
  · rw [if_neg hname]
    split
    · next hmem =>
      rcases List.mem_cons.mp hmem with rfl | hmem
      · rw [hn]
        rfl
      · exact absurd (List.mem_singleton.mp hmem) hname
    · rfl

/-- Behind the opening of a traversal there is a row for every target, or one
with null. -/
theorem allRows?_opening (h : t.Formed parameters entity) (hsource : t.source = none)
    {scope : List String} {rows : List Cypher.Environment} (hbinds : ∀ env ∈ rows, env.Binds scope)
    (hentity : ∀ env ∈ rows, env entity = some .null ∨ ∃ n, env entity = some (.node n))
    (hfirst : ∀ name ∈ t.introducedFirst, name ∉ scope) :
    Clause.allRows? db rows (t.opening scope) = some (t.opened db entity rows) := by
  unfold introducedFirst at hfirst
  rw [hsource] at hfirst
  obtain ⟨hnew, hbinders⟩ := List.forall_mem_cons.mp hfirst
  unfold opening opened
  rw [hsource]
  show some _ = some _
  refine congrArg some (List.flatMap_congr fun env henv => ?_)
  have hb := hbinds env henv
  have hunbound := hb.eq_none hnew
  rcases hentity env henv with hnull | ⟨n, hn⟩
  · rw [matchings_null h.parent hnull, Environment.value_of_eq hnull,
      orNull_names h.parent hnull hunbound]
    rfl
  · rw [filter_matchings h hn hunbound fun name hname => hb.eq_none (hbinders name hname),
      Environment.value_of_eq hn, orNull_names h.parent hn hunbound]
    unfold reaches
    dsimp only
    rw [Bool.true_and, List.isEmpty_map]
    split
    · rfl
    · rw [List.map_map]
      rfl

end Traversal

end PropertyGraphQL
