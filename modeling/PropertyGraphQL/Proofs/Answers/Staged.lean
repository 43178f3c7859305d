/-
The clauses of a plan keep the rows and bind what the plan reads.

Behind the clauses of a plan there is a row for every row before them, in some
order, with a list more for each traversal (`Plan.Formed.allRows?_stageEntries`).
A traversal opens every row into one for each target, the clauses below it keep
these, and its closing brings back the rows before it, since each group has come
from one of them. For this the rows have to be distinct: two that are equal
become one group. So a traversal with others below it, whose opened rows are
grouped again further in, must not go to a node twice (`Plan.AllOnce`). Without
others below it, it may.
-/
import PropertyGraphQL.Proofs.Answers.Closing

namespace PropertyGraphQL

open Cypher

variable {db : Database} {parameters : Dict Json} {entity : String}

-- ============================================================== conditions

namespace Plan

variable (db)

mutual

/-- From a node on, no traversal with traversals below it goes to a node more
than once. -/
def AllOnce (n : Nat) : List (String × Plan) → Prop
  | [] => True
  | (_, plan) :: rest => Once n plan ∧ AllOnce n rest

def Once (n : Nat) : Plan → Prop
  | .value _ => True
  | .traversal t below =>
      (kept below ≠ [] → (t.targets db n).Nodup) ∧ ∀ m ∈ t.targets db n, AllOnce m below

end

/-- The entity of a plan stands for null, or for a node that the plan may be
read from. -/
def Rooted (entity : String) (entries : List (String × Plan)) (env : Cypher.Environment) : Prop :=
  env entity = some .null ∨ ∃ n, env entity = some (.node n) ∧ AllOnce db n entries

/-- What has become of a row behind the clauses of a plan: nothing is lost, the
variables of the traversals are bound, and what is projected has what the plan
reads. -/
structure Reads (entity : String) (entries : List (String × Plan)) (scope : List String)
    (result : List (String × Expression)) (env env' : Cypher.Environment) : Prop where
  same : ∀ name ∈ scope, env' name = env name
  binds : env'.Binds (scope ++ kept entries)
  read : ∀ n, env entity = some (.node n) →
    Datum.EntriesAlike (Expression.evalEntries db env' result) (readAll db entity n entries)

variable {db} {scope : List String} {key : String} {rest : List (String × Plan)}
  {result : List (String × Expression)} {env env' : Cypher.Environment}

theorem Rooted.isEntity {entries : List (String × Plan)} (h : Rooted db entity entries env) :
    env entity = some .null ∨ ∃ n, env entity = some (.node n) :=
  h.imp_right fun ⟨n, hn, _⟩ => ⟨n, hn⟩

theorem Rooted.tail {plan : Plan} (h : Rooted db entity ((key, plan) :: rest) env) :
    Rooted db entity rest env :=
  h.imp_right fun ⟨n, hn, honce⟩ => ⟨n, hn, honce.2⟩

/-- From the node that it is rooted in, the first plan goes to no node twice. -/
theorem Rooted.once {plan : Plan} (h : Rooted db entity ((key, plan) :: rest) env) {n : Nat}
    (hn : env.value entity = .node n) : Once db n plan := by
  rcases h with hnull | ⟨m, hm, honce⟩
  · rw [Environment.value_of_eq hnull] at hn
    cases hn
  · rw [Environment.value_of_eq hm] at hn
    cases hn
    exact honce.1

/-- Rows with the same entity root the same plans. -/
theorem Rooted.congr {entries : List (String × Plan)} (h : Rooted db entity entries env)
    (heq : env' entity = env entity) : Rooted db entity entries env' := by
  unfold Rooted
  rw [heq]
  exact h

/-- Where nothing is planned, a row stays as it is. -/
theorem Reads.nil (hbinds : env.Binds scope) : Reads db entity [] scope [] env env where
  same _ _ := rfl
  binds := by
    rw [kept, List.filterMap_nil, List.append_nil]
    exact hbinds
  read _ _ := .nil

/-- A value is read from the row as it is. -/
theorem Reads.value {e : Expression} (he : e.Reading parameters entity) (hentity : entity ∈ scope)
    (h : Reads db entity rest scope result env env') :
    Reads db entity ((key, .value e) :: rest) scope ((key, e) :: result) env env' := by
  refine ⟨h.same, h.binds, fun n hn => ?_⟩
  have hn' : env' entity = some (.node n) := (h.same entity hentity).trans hn
  have hvalue : e.eval db env' = Plan.read db entity n (.value e) := by
    rw [Plan.read]
    exact he.eval_eq ((Environment.value_of_eq hn').trans
      (Environment.value_bind_self _ _ _).symm)
  rw [Expression.evalEntries, readAll, hvalue]
  exact .cons (.same _) (h.read n hn)

/-- A list that is bound before what is planned behind it stays bound. -/
theorem Reads.traversal {t : Traversal} {below : List (String × Plan)} {elems : List Datum}
    (hnew : t.entity ∉ scope) (hentity : entity ∈ scope)
    (helems : ∀ n, env entity = some (.node n) →
      Datum.Alike (.list elems) (Plan.read db entity n (.traversal t below)))
    (h : Reads db entity rest (scope ++ [t.entity]) result (env.bind t.entity (.list elems)) env') :
    Reads db entity ((key, .traversal t below) :: rest) scope ((key, .var t.entity) :: result) env
      env' := by
  have hlist : (Expression.var t.entity).eval db env' = .list elems := by
    rw [Expression.eval, Environment.value_of_eq
      ((h.same _ (List.mem_append_right _ List.mem_cons_self)).trans
        (Environment.bind_self _ _ _))]
  refine ⟨fun name hname => ?_, ?_, fun n hn => ?_⟩
  · exact (h.same name (List.mem_append_left _ hname)).trans
      (Environment.bind_of_mem hnew _ name hname)
  · have hbinds := h.binds
    rw [List.append_assoc] at hbinds
    exact hbinds
  · rw [Expression.evalEntries, hlist, readAll]
    refine .cons (helems n hn) (h.read n ?_)
    exact (Environment.bind_of_mem hnew _ entity hentity).trans hn

end Plan

-- ================================================================= closing

namespace Traversal

variable {t : Traversal} {below : List (String × Plan)} {scope : List String}

/-- What is collected for a related entity: null for none. -/
def element (t : Traversal) (projection : Expression) : Expression :=
  .conditional (.isNull (.var t.entity)) (.literal .null) projection

/-- Without bounds, a closing `WITH` collects the elements of a list as they are. -/
theorem closing_eq (hbounds : t.arguments.bounds = (none, none)) (hmulti : t.multi = true)
    (scope : List String) (projection : Expression) :
    t.closing scope projection
      = [.withItems (carrying scope (.aliased (t.element projection).collect t.entity)) none] := by
  unfold closing single
  rw [hbounds, hmulti]
  rfl

/-- For no target, null is collected, hence nothing. -/
theorem eval_element_null {env : Cypher.Environment} (h : env t.entity = some .null)
    (projection : Expression) : (t.element projection).eval db env = .null := by
  have hvalue : (Expression.var t.entity).eval db env = .null := by
    rw [Expression.eval, Environment.value_of_eq h]
  unfold element
  rw [Expression.eval, Predicate.eval, hvalue]
  rfl

/-- For a target, its projection is collected. -/
theorem eval_element_node {env : Cypher.Environment} {m : Nat} (h : env t.entity = some (.node m))
    (projection : Expression) :
    (t.element projection).eval db env = projection.eval db env := by
  have hvalue : (Expression.var t.entity).eval db env = .node m := by
    rw [Expression.eval, Environment.value_of_eq h]
  unfold element
  rw [Expression.eval, Predicate.eval, hvalue]
  rfl

/-- From the rows of the targets is collected what is read from these. -/
theorem alike_collected_targets {result : List (String × Expression)} {env : Cypher.Environment}
    {ms : List Nat} {group : List Cypher.Environment}
    (h : List.Forall₂ (fun m => Plan.Reads db t.entity below (scope ++ [t.entity]) result
      (env.bind t.entity (.node m))) ms group) :
    List.Forall₂ Datum.Alike ((t.element (.map result)).collected db group)
      (ms.map fun m => .map (Plan.readAll db t.entity m below)) := by
  induction h with
  | nil => exact .nil
  | @cons m row ms group hread _ ih =>
    have hm : row t.entity = some (.node m) :=
      (hread.same _ (List.mem_append_right _ List.mem_cons_self)).trans
        (Environment.bind_self _ _ _)
    have hvalue : (t.element (.map result)).eval db row
        = .map (Expression.evalEntries db row result) := by
      rw [eval_element_node hm, Expression.eval]
    have hcollected : (t.element (.map result)).collected db (row :: group)
        = .map (Expression.evalEntries db row result)
          :: (t.element (.map result)).collected db group := by
      unfold Expression.collected
      rw [List.map_cons, hvalue]
      rfl
    rw [hcollected, List.map_cons]
    exact .cons (.map (hread.read m (Environment.bind_self _ _ _))) ih

/-- From the rows that go on from one are collected the maps of its targets, and
nothing from a row without a match. -/
theorem alike_collected_reaches {result : List (String × Expression)} {env : Cypher.Environment}
    {n : Nat} {group : List Cypher.Environment}
    (h : List.Forall₂ (Plan.Reads db t.entity below (scope ++ [t.entity]) result)
      ((t.reaches db (.node n)).map fun d => env.bind t.entity d) group) :
    List.Forall₂ Datum.Alike ((t.element (.map result)).collected db group)
      ((t.targets db n).map fun m => .map (Plan.readAll db t.entity m below)) := by
  unfold reaches at h
  dsimp only at h
  cases htargets : t.targets db n with
  | nil =>
    rw [htargets] at h
    cases h with
    | @cons _ row _ _ hread hrest =>
      cases hrest
      -- a node without related nodes keeps one row, where the entity is null, and nothing is
      -- collected
      have hnull : row t.entity = some .null :=
        (hread.same _ (List.mem_append_right _ List.mem_cons_self)).trans
          (Environment.bind_self _ _ _)
      have hcollected : (t.element (.map result)).collected db [row] = [] := by
        unfold Expression.collected
        rw [List.map_cons, eval_element_null hnull]
        rfl
      rw [hcollected]
      exact .nil
  | cons m rest =>
    rw [htargets] at h
    rw [List.isEmpty_cons, if_neg Bool.false_ne_true, List.map_map, List.forall₂_map_left_iff] at h
    exact alike_collected_targets h

end Traversal

-- ================================================================== groups

namespace Cypher.Environment

variable {scope : List String} {name : String} {rows : List Environment}
  {values : Environment → List Datum}

/-- Of rows that come from others by a new variable, those that carry what one of
these has come from that one. -/
theorem filter_flatMap_bind (hnew : name ∉ scope) (hbinds : ∀ env ∈ rows, env.Binds scope)
    (hnodup : rows.Nodup) {env : Environment} (henv : env ∈ rows) :
    (rows.flatMap fun env => (values env).map fun d => env.bind name d).filter
        (fun other => other.tuple scope = env.tuple scope)
      = (values env).map fun d => env.bind name d := by
  have hown : ((values env).map fun d => env.bind name d).filter
      (fun other => other.tuple scope = env.tuple scope)
        = (values env).map fun d => env.bind name d := by
    refine List.filter_eq_self.mpr fun other hother => ?_
    obtain ⟨d, -, rfl⟩ := List.mem_map.mp hother
    exact decide_eq_true (tuple_congr (bind_of_mem hnew d))
  -- rows that bind the same names to the same values are one row
  have hother : ∀ row ∈ rows, row ≠ env → ((values row).map fun d => row.bind name d).filter
      (fun other => other.tuple scope = env.tuple scope) = [] := by
    intro row hrow hne
    refine List.filter_eq_nil_iff.mpr fun other hother htuple => hne ?_
    obtain ⟨d, -, rfl⟩ := List.mem_map.mp hother
    refine (hbinds row hrow).eq_of_tuple_eq (hbinds env henv) ?_
    exact (tuple_congr (bind_of_mem hnew d)).symm.trans (of_decide_eq_true htuple)
  rw [List.filter_flatMap]
  clear hbinds
  induction rows with
  | nil => cases henv
  | cons first rest ih =>
    obtain ⟨hfirst, hrest⟩ := List.nodup_cons.mp hnodup
    obtain ⟨hotherFirst, hotherRest⟩ := List.forall_mem_cons.mp hother
    rw [List.flatMap_cons]
    rcases List.mem_cons.mp henv with rfl | henv
    · have hnone : (rest.flatMap fun row => ((values row).map fun d => row.bind name d).filter
          fun other => other.tuple scope = env.tuple scope) = [] := by
        refine List.flatMap_eq_nil_iff.mpr fun row hrow => hotherRest row hrow ?_
        exact fun heq => hfirst (heq ▸ hrow)
      rw [hown, hnone, List.append_nil]
    · rw [hotherFirst fun heq => hfirst (heq ▸ henv), List.nil_append]
      exact ih hrest henv hotherRest

/-- Rows that come from others by a new variable are distinct if they, and the
values for each of them, are. -/
theorem nodup_flatMap_bind (hnew : name ∉ scope) (hbinds : ∀ env ∈ rows, env.Binds scope)
    (hnodup : rows.Nodup) (hvalues : ∀ env ∈ rows, (values env).Nodup) :
    (rows.flatMap fun env => (values env).map fun d => env.bind name d).Nodup := by
  refine List.nodup_flatMap.mpr ⟨fun env henv => ?_, ?_⟩
  · refine (hvalues env henv).map fun d d' heq => ?_
    exact (bind_inj (hbinds env henv) (hbinds env henv) hnew heq).2
  · refine List.Pairwise.imp_of_mem ?_ hnodup
    intro env env' henv henv' hne row hrow hrow'
    obtain ⟨d, -, rfl⟩ := List.mem_map.mp hrow
    obtain ⟨d', -, heq⟩ := List.mem_map.mp hrow'
    exact hne (bind_inj (hbinds env henv) (hbinds env' henv') hnew heq.symm).1

/-- They carry what these carry. -/
theorem mem_map_tuple_flatMap_bind (hnew : name ∉ scope) (hvalues : ∀ env, values env ≠ [])
    (key : List Datum) :
    key ∈ (rows.flatMap fun env => (values env).map fun d => env.bind name d).map
        (fun env => env.tuple scope)
      ↔ key ∈ rows.map fun env => env.tuple scope := by
  simp only [List.mem_map, List.mem_flatMap]
  constructor
  · rintro ⟨_, ⟨env, henv, d, -, rfl⟩, rfl⟩
    exact ⟨env, henv, (tuple_congr (bind_of_mem hnew d)).symm⟩
  · rintro ⟨env, henv, rfl⟩
    obtain ⟨d, hd⟩ := List.exists_mem_of_ne_nil _ (hvalues env)
    exact ⟨_, ⟨env, henv, d, hd, rfl⟩, tuple_congr (bind_of_mem hnew d)⟩

end Cypher.Environment

-- ==================================================================== runs

/-- Related lists have related parts where their elements are told apart alike. -/
theorem forall₂_filter {α β : Type} {R : α → β → Prop} {p : α → Bool} {q : β → Bool}
    {as : List α} {bs : List β} (h : List.Forall₂ R as bs) (hpq : ∀ a b, R a b → p a = q b) :
    List.Forall₂ R (as.filter p) (bs.filter q) := by
  induction h with
  | nil => exact .nil
  | @cons a b as bs hab _ ih =>
    rw [List.filter_cons, List.filter_cons, hpq a b hab]
    split
    · exact .cons hab ih
    · exact ih

/-- Behind the closing of a traversal there is a row for every row before its
opening, with a list of what is read from the targets. -/
theorem Traversal.allRows?_closing {t : Traversal} {below : List (String × Plan)}
    {scope : List String} {result : List (String × Expression)}
    (hbounds : t.arguments.bounds = (none, none)) (hmulti : t.multi = true) (hscope : scope ≠ [])
    (hnew : t.entity ∉ scope) {rows : List Cypher.Environment}
    (hbinds : ∀ env ∈ rows, env.Binds scope) (hnodup : rows.Nodup)
    {out reordered : List Cypher.Environment} (hperm : out.Perm reordered)
    (hreads : List.Forall₂ (Plan.Reads db t.entity below (scope ++ [t.entity]) result)
      (t.opened db entity rows) reordered) :
    ∃ (closed : List Cypher.Environment) (elems : Cypher.Environment → List Datum),
      Clause.allRows? db out (t.closing scope (.map result)) = some closed
      ∧ closed.Perm (rows.map fun env => env.bind t.entity (.list (elems env)))
      ∧ ∀ env ∈ rows, ∀ n, env entity = some (.node n) →
        Datum.Alike (.list (elems env)) (Plan.read db entity n (.traversal t below)) := by
  -- rows grow below a traversal, and keep what was in scope before it
  have htuple : ∀ env env' : Cypher.Environment,
      Plan.Reads db t.entity below (scope ++ [t.entity]) result env env' →
        env.tuple scope = env'.tuple scope := fun env env' h =>
    (Environment.tuple_congr fun name hname => h.same name (List.mem_append_left _ hname)).symm
  -- no row is lost on the way, as one without related nodes stays with none
  have hmem : ∀ key, key ∈ out.map (fun env => env.tuple scope)
      ↔ key ∈ rows.map fun env => env.tuple scope := by
    intro key
    have hsame : (t.opened db entity rows).map (fun env => env.tuple scope)
        = reordered.map fun env => env.tuple scope := by
      rw [← List.forall₂_eq_eq_eq, List.forall₂_map_left_iff, List.forall₂_map_right_iff]
      exact hreads.imp htuple
    rw [(hperm.map _).mem_iff, ← hsame]
    exact Environment.mem_map_tuple_flatMap_bind hnew (fun env => t.reaches_ne_nil _) key
  refine ⟨_, fun env => (t.element (.map result)).collected db
    (out.filter fun other => other.tuple scope = env.tuple scope), ?_,
    Environment.perm_tabulate hscope hnew hbinds hnodup hmem (t.element (.map result)), ?_⟩
  · rw [closing_eq hbounds hmulti]
    rfl
  · intro env henv n hn
    -- the group of a row are the rows made of it
    have hgroup := forall₂_filter (p := fun other => other.tuple scope = env.tuple scope)
      (q := fun other => other.tuple scope = env.tuple scope) hreads
      fun row row' hrow => by rw [htuple row row' hrow]
    unfold opened at hgroup
    rw [Environment.filter_flatMap_bind hnew hbinds hnodup henv,
      Environment.value_of_eq hn] at hgroup
    rw [Plan.read]
    refine .list ?_ (alike_collected_reaches hgroup)
    exact ((hperm.filter _).map _).filter _

section

variable {t : Traversal} {below rest : List (String × Plan)} {key : String} {scope : List String}
  {rows : List Cypher.Environment}

/-- Behind the opening of a traversal the plan below it may be read from what it
reaches. -/
theorem Traversal.rooted_opened
    (hroot : ∀ env ∈ rows, Plan.Rooted db entity ((key, .traversal t below) :: rest) env) :
    ∀ row ∈ t.opened db entity rows, Plan.Rooted db t.entity below row := by
  intro row hrow
  obtain ⟨env, henv, d, hd, rfl⟩ := mem_opened hrow
  unfold Plan.Rooted
  rw [Environment.bind_self]
  rcases eq_null_or_mem_of_mem_reaches hd with rfl | ⟨n, m, hn, rfl, hm⟩
  · exact .inl rfl
  · exact .inr ⟨m, rfl, ((hroot env henv).once hn).2 m hm⟩

/-- Distinct rows are distinct when they are opened, since the traversed entity is new and the
targets of a node are distinct. -/
theorem Traversal.nodup_opened (hnew : t.entity ∉ scope) (hbinds : ∀ env ∈ rows, env.Binds scope)
    (hroot : ∀ env ∈ rows, Plan.Rooted db entity ((key, .traversal t below) :: rest) env)
    (hnodup : rows.Nodup) (hkept : Plan.kept below ≠ []) : (t.opened db entity rows).Nodup :=
  Environment.nodup_flatMap_bind hnew hbinds hnodup fun env henv =>
    nodup_reaches fun _ hn => ((hroot env henv).once hn).1 hkept

/-- An opened row binds the scope and the traversed entity. -/
theorem Traversal.binds_opened (hbinds : ∀ env ∈ rows, env.Binds scope) :
    ∀ row ∈ t.opened db entity rows, row.Binds (scope ++ [t.entity]) := by
  intro row hrow
  obtain ⟨env, henv, d, -, rfl⟩ := mem_opened hrow
  exact (hbinds env henv).bind _ _

/-- The clauses of a plain traversal do not sort. -/
theorem Traversal.sorting_eq_nil (h : t.arguments.orderBy = []) (scope : List String) :
    t.sorting scope = [] := by
  unfold sorting ScopeArguments.orderByClause
  rw [h]
  rfl

variable {name : String} {closed : List Cypher.Environment} {d : Cypher.Environment → Datum}

/-- Rows with a new variable bind it too. -/
theorem Cypher.Environment.binds_of_perm
    (h : closed.Perm (rows.map fun env => env.bind name (d env)))
    (hbinds : ∀ env ∈ rows, env.Binds scope) : ∀ row ∈ closed, row.Binds (scope ++ [name]) := by
  intro row hrow
  obtain ⟨env, henv, rfl⟩ := List.mem_map.mp (h.mem_iff.mp hrow)
  exact (hbinds env henv).bind _ _

/-- Distinct rows stay distinct when each is given a value under a new name, in whatever order. -/
theorem Cypher.Environment.nodup_of_perm
    (h : closed.Perm (rows.map fun env => env.bind name (d env))) (hnew : name ∉ scope)
    (hbinds : ∀ env ∈ rows, env.Binds scope) (hnodup : rows.Nodup) : closed.Nodup := by
  refine h.nodup_iff.mpr (List.Nodup.map_on ?_ hnodup)
  intro env henv env' henv' heq
  exact (bind_inj (hbinds env henv) (hbinds env' henv') hnew heq).1

/-- What is planned behind a traversal is read from the same entity. -/
theorem Plan.rooted_of_perm (h : closed.Perm (rows.map fun env => env.bind name (d env)))
    (hnew : name ∉ scope) (hentity : entity ∈ scope)
    (hroot : ∀ env ∈ rows, Plan.Rooted db entity ((key, .traversal t below) :: rest) env) :
    ∀ row ∈ closed, Plan.Rooted db entity rest row := by
  intro row hrow
  obtain ⟨env, henv, rfl⟩ := List.mem_map.mp (h.mem_iff.mp hrow)
  exact (hroot env henv).tail.congr (Environment.bind_of_mem hnew _ entity hentity)

end

namespace Plan.Formed

variable {entries : List (String × Plan)}

/-- Behind the clauses of a plan there is a row for every row before them, and in
it is what the plan reads. -/
theorem allRows?_stageEntries (h : Formed parameters entity entries)
    (hplain : ∀ e ∈ allTraversals entries, e.IsPlain) {scope : List String}
    (hfits : Fits scope scope entries) (hentity : entity ∈ scope) {rows : List Cypher.Environment}
    (hbinds : ∀ env ∈ rows, env.Binds scope) (hroot : ∀ env ∈ rows, Rooted db entity entries env)
    (hnodup : kept entries ≠ [] → rows.Nodup) :
    ∃ out reordered, Clause.allRows? db rows (stageEntries scope entries).clauses = some out
      ∧ out.Perm reordered
      ∧ List.Forall₂ (Reads db entity entries scope (stageEntries scope entries).result) rows
        reordered := by
  -- on the plan; the rows are distinct for as long as any are still to be grouped
  induction h generalizing scope rows with
  | nil => exact ⟨rows, rows, rfl, .refl _, List.forall₂_same.mpr fun env henv =>
      .nil (hbinds env henv)⟩
  | @value entity key e rest he _ ih =>
    obtain ⟨out, reordered, hout, hperm, hreads⟩ := ih hplain
      ⟨hfits.first, hfits.all, hfits.apart.2.2⟩ hentity hbinds
      (fun env henv => (hroot env henv).tail) hnodup
    refine ⟨out, reordered, hout, hperm, hreads.imp fun env env' h => ?_⟩
    rw [stageEntries, stage]
    exact .value he hentity h
  | @traversal entity key t below rest ht hbelow hrest ihbelow ihrest =>
    obtain ⟨hown, hplainRest⟩ := List.forall_mem_append.mp hplain
    obtain ⟨hplain, hplainBelow⟩ := List.forall_mem_cons.mp hown
    obtain ⟨hsource, horder, hbounds, hmulti⟩ := Traversal.plain_of_emitted hplain
    obtain ⟨⟨hfirst, hnew⟩, hfitsBelow, hfitsRest⟩ :=
      (fits_traversal_iff hbelow hrest (List.Subset.refl _) key).mp hfits
    rw [Traversal.Formed.scopeAfterAll_matching (by rw [hsource]; rfl)] at hfitsBelow
    have hnodup : rows.Nodup := hnodup (List.cons_ne_nil _ _)
    have hopening : Clause.allRows? db rows (t.opening scope) = _ :=
      Traversal.allRows?_opening ht hsource hbinds (fun env henv => (hroot env henv).isEntity)
        hfirst
    -- from the opened rows the plan below is read, from those behind the closing the rest
    obtain ⟨inside, reordered, hinside, hperm, hreads⟩ := ihbelow hplainBelow hfitsBelow
      (List.mem_append_right _ List.mem_cons_self) (Traversal.binds_opened hbinds)
      (Traversal.rooted_opened hroot) (Traversal.nodup_opened hnew hbinds hroot hnodup)
    obtain ⟨closed, elems, hclosing, hclosed, helems⟩ := Traversal.allRows?_closing hbounds hmulti
      (List.ne_nil_of_mem hentity) hnew hbinds hnodup hperm hreads
    obtain ⟨out, reordered', hout, hperm', hreads'⟩ := ihrest hplainRest hfitsRest
      (List.mem_append_left _ hentity) (Environment.binds_of_perm hclosed hbinds)
      (rooted_of_perm hclosed hnew hentity hroot)
      fun _ => Environment.nodup_of_perm hclosed hnew hbinds hnodup
    obtain ⟨final, hfinal, hperm''⟩ := List.perm_comp_forall₂ hclosed.symm hreads'
    refine ⟨out, final, ?_, hperm'.trans hperm''.symm, ?_⟩
    · rw [stageEntries, stage]
      dsimp only
      rw [Traversal.sorting_eq_nil horder, List.append_nil, Clause.allRows?_append,
        Clause.allRows?_append, Clause.allRows?_append, hopening, Option.bind_some, hinside,
        Option.bind_some, hclosing, Option.bind_some, hout]
    · rw [List.forall₂_map_left_iff] at hfinal
      refine ((List.forall₂_and_left rows final).mpr ⟨helems, hfinal⟩).imp ?_
      rintro env env' ⟨halike, hread⟩
      rw [stageEntries, stage]
      exact .traversal hnew hentity halike hread

end Plan.Formed

end PropertyGraphQL
