/-
Kinds of clauses, and the order in which they may follow each other.

What kinds of clauses a statement has is seen without looking into them.
Nested selections need clauses of three kinds only, none of which writes
(`kind_of_mem_stageEntries`). Behind a clause that writes, what is read
needs a `WITH` before it; since nothing writes behind the change itself, it
is enough that what follows it waits for one (`AwaitsWith`). What a clause
writes is said of it with the clauses before it (`EachWrite`).
-/
import PropertyGraphQL.Compile.Staged

namespace PropertyGraphQL

open Cypher

namespace Cypher

-- =================================================================== kinds

/-- What is done to the properties or labels of an entity. -/
inductive SetKind where
  | replace
  | merge
  | labels
deriving DecidableEq, Repr

namespace SetItem

def kind : SetItem → SetKind
  | replace .. => .replace
  | merge .. => .merge
  | labels .. => .labels

/-- The variable of the entity that is changed. -/
def target : SetItem → String
  | replace target _ => target
  | merge target _ => target
  | labels target _ => target

end SetItem

/-- What a clause does, as its keywords tell. -/
inductive ClauseKind where
  | matching (optional : Bool)
  | withItems
  | unwind
  | create
  | merge
  | set (items : List SetKind)
  | delete (detach : Bool)
  | returnItems
deriving DecidableEq, Repr

namespace ClauseKind

/-- Whether the graph is changed. -/
def writes : ClauseKind → Bool
  | create | merge | set _ | delete _ => true
  | _ => false

/-- Whether rows are looked for, in the graph or in a list. -/
def reads : ClauseKind → Bool
  | matching _ | unwind => true
  | _ => false

/-- The kinds of clauses that nested selections need. -/
def nested : List ClauseKind := [.matching true, .withItems, .unwind]

theorem withItems_mem_nested : withItems ∈ nested := by decide

theorem writes_of_mem_nested {k : ClauseKind} (h : k ∈ nested) : k.writes = false := by
  revert k
  decide

end ClauseKind

def Clause.kind : Clause → ClauseKind
  | .matching _ optional _ => .matching optional
  | .withItems .. => .withItems
  | .unwind .. => .unwind
  | .create _ => .create
  | .merge _ => .merge
  | .set items => .set (items.map SetItem.kind)
  | .delete _ detach => .delete detach
  | .returnItems .. => .returnItems

-- ============================================================== separation

namespace ClauseKind

/-- Nothing is read before a `WITH`. -/
def AwaitsWith (kinds : List ClauseKind) : Prop :=
  ∀ ⦃between after : List ClauseKind⦄ ⦃read : ClauseKind⦄,
    kinds = between ++ read :: after → read.reads = true → .withItems ∈ between

/-- Between a clause that writes and one behind it that reads stands a
`WITH`. -/
def SeparatedByWith (kinds : List ClauseKind) : Prop :=
  ∀ ⦃before behind : List ClauseKind⦄ ⦃written : ClauseKind⦄,
    kinds = before ++ written :: behind → written.writes = true → AwaitsWith behind

/-- Anything may be read behind a `WITH`. -/
theorem awaitsWith_withItems (kinds : List ClauseKind) : AwaitsWith (.withItems :: kinds) := by
  intro between after read heq hread
  cases between with
  | nil =>
    cases heq
    cases hread
  | cons first rest =>
    cases heq
    exact List.mem_cons_self

/-- Where nothing is read, nothing is read too early. -/
theorem awaitsWith_of_reads {kinds : List ClauseKind} (h : ∀ k ∈ kinds, k.reads = false) :
    AwaitsWith kinds := by
  intro between after read heq hread
  have hmem : read ∈ kinds := heq ▸ List.mem_append_right between List.mem_cons_self
  rw [h read hmem] at hread
  cases hread

/-- Where nothing is written, nothing needs to be separated. -/
theorem separatedByWith_of_writes {kinds : List ClauseKind}
    (h : ∀ k ∈ kinds, k.writes = false) : SeparatedByWith kinds := by
  intro before behind written heq hwritten
  have hmem : written ∈ kinds := heq ▸ List.mem_append_right before List.mem_cons_self
  rw [h written hmem] at hwritten
  cases hwritten

/-- A clause that reads may stand before all others. -/
theorem SeparatedByWith.cons {k : ClauseKind} {kinds : List ClauseKind}
    (hk : k.writes = true → AwaitsWith kinds) (h : SeparatedByWith kinds) :
    SeparatedByWith (k :: kinds) := by
  intro before behind written heq hwritten
  cases before with
  | nil =>
    cases heq
    exact hk hwritten
  | cons first rest =>
    cases heq
    exact h rfl hwritten

/-- A clause that does not read may precede clauses that await a `WITH`. -/
theorem AwaitsWith.cons {k : ClauseKind} {kinds : List ClauseKind} (hk : k.reads = false)
    (h : AwaitsWith kinds) : AwaitsWith (k :: kinds) := by
  intro between after read heq hread
  cases between with
  | nil =>
    cases heq
    rw [hk] at hread
    cases hread
  | cons first rest =>
    cases heq
    exact List.mem_cons_of_mem _ (h rfl hread)

end ClauseKind

-- ================================================================== writing

namespace Clause

/-- Every clause that writes is as `P` says, given the clauses before it. -/
def EachWrite (P : List Clause → Clause → Prop) (clauses : List Clause) : Prop :=
  ∀ ⦃before after : List Clause⦄ ⦃clause : Clause⦄,
    clauses = before ++ clause :: after → clause.kind.writes = true → P before clause

variable {P : List Clause → Clause → Prop} {clauses : List Clause}

/-- Where nothing is written, every write has any property. -/
theorem eachWrite_of_writes (h : ∀ clause ∈ clauses, clause.kind.writes = false) :
    EachWrite P clauses := by
  intro before after clause heq hwrites
  have hmem : clause ∈ clauses := heq ▸ List.mem_append_right before List.mem_cons_self
  rw [h clause hmem] at hwrites
  cases hwrites

/-- For a write in front, its own condition, and that of the others with it before them. -/
theorem EachWrite.cons {first : Clause} (hfirst : first.kind.writes = true → P [] first)
    (h : EachWrite (fun before => P (first :: before)) clauses) :
    EachWrite P (first :: clauses) := by
  intro before after clause heq hwrites
  cases before with
  | nil =>
    cases heq
    exact hfirst hwrites
  | cons _ rest =>
    cases heq
    exact h rfl hwrites

end Clause

end Cypher

-- ======================================================= nested selections

namespace Traversal

variable (t : Traversal) (scope : List String)

/-- The clauses that open a traversal are among those that read below an entity. -/
theorem kind_of_mem_opening {clause : Clause} (h : clause ∈ t.opening scope) :
    clause.kind ∈ ClauseKind.nested := by
  unfold opening at h
  split at h
  · rw [List.mem_singleton.mp h]
    exact List.mem_cons_self
  · rcases List.mem_cons.mp h with rfl | h
    · exact ClauseKind.withItems_mem_nested
    · rw [List.mem_singleton.mp h]
      exact List.mem_cons_of_mem _ (List.mem_cons_of_mem _ List.mem_cons_self)

/-- The clauses that sort a traversal are among those that read below an entity. -/
theorem kind_of_mem_sorting {clause : Clause} (h : clause ∈ t.sorting scope) :
    clause.kind ∈ ClauseKind.nested := by
  unfold sorting at h
  split at h
  · cases h
  · rw [List.mem_singleton.mp h]
    exact ClauseKind.withItems_mem_nested

/-- The clauses that close a traversal are among those that read below an entity. -/
theorem kind_of_mem_closing {projection : Expression} {clause : Clause}
    (h : clause ∈ t.closing scope projection) : clause.kind ∈ ClauseKind.nested := by
  rw [closing, List.mem_singleton] at h
  rw [h]
  exact ClauseKind.withItems_mem_nested

end Traversal

namespace Plan

mutual

/-- What is read from an entity needs clauses of the nested kinds only. -/
theorem kind_of_mem_stageEntries (scope : List String) (entries : List (String × Plan))
    {clause : Clause} (h : clause ∈ (stageEntries scope entries).clauses) :
    clause.kind ∈ ClauseKind.nested := by
  match entries with
  | [] =>
    rw [stageEntries] at h
    cases h
  | (_, plan) :: rest =>
    rw [stageEntries] at h
    rcases List.mem_append.mp h with h | h
    · exact kind_of_mem_stage scope plan h
    · exact kind_of_mem_stageEntries _ rest h

/-- All clauses of a stage read below an entity. -/
theorem kind_of_mem_stage (scope : List String) (plan : Plan) {clause : Clause}
    (h : clause ∈ (stage scope plan).clauses) : clause.kind ∈ ClauseKind.nested := by
  match plan with
  | .value e =>
    rw [stage] at h
    cases h
  | .traversal t entries =>
    rw [stage] at h
    simp only [List.mem_append] at h
    rcases h with ((h | h) | h) | h
    · exact t.kind_of_mem_opening scope h
    · exact kind_of_mem_stageEntries _ entries h
    · exact t.kind_of_mem_sorting _ h
    · exact t.kind_of_mem_closing _ h

end

end Plan

end PropertyGraphQL
