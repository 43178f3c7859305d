/-
The snapshot of the schema that requests are compiled against, and the
calls that provide it.

A snapshot is made of the stored schema document or, without one, of
samples of the graph. It is used until the graph is seen to have another
fingerprint, the document is replaced or deleted, or the context is reset.

Calls run at the same time. A call that needs something from outside is a
`Pending` state: it gives up control until `Need.Answer` is there, and
`Context.resume` is the one indivisible step that it then takes. What
other calls do meanwhile is seen through the context only, which every
step is given anew. Snapshots are built and documents replaced and deleted
under a lock; that a step is taken when the lock is granted, and only if
it is free, is up to whoever runs the calls.

Every step brings a call closer to its end (`rank_resume_lt`).
-/
import PropertyGraphQL.Compile.Mutation
import PropertyGraphQL.Model.Sample
import PropertyGraphQL.Model.Schema
import PropertyGraphQL.Service.Error

namespace PropertyGraphQL

/-- A view of the schema, which does not change. -/
structure Snapshot where
  /-- Every snapshot of a context has another. -/
  id : Nat
  /-- Compiles requests against the catalog of the schema. -/
  compiler : Compiler
  /-- The fingerprint of the graph when the snapshot was made. -/
  fingerprint : Int

/-- How a context works. -/
structure ContextSettings where
  options : CompileOptions
  /-- The least number of milliseconds between two comparisons of a snapshot
  with the graph. -/
  checkInterval : Nat
  /-- Whether the graph is sampled if no document is stored. -/
  samples : Bool

/-- What calls share. -/
structure Context where
  current : Option Snapshot
  /-- When a snapshot was last made or its comparison with the graph begun. -/
  lastCheck : Nat
  /-- The number of snapshots made, which is the id of the next. -/
  made : Nat
  /-- Whether a call holds the lock. -/
  locked : Bool

namespace Context

/-- A context without snapshot. -/
def fresh : Context := ⟨none, 0, 0, false⟩

end Context

-- =============================================================== calls

/-- What can be asked of a context. -/
inductive Call where
  /-- The current snapshot, made anew if need be. -/
  | snapshot
  /-- Store a document and use it from now on. -/
  | replace (document : String)
  /-- Forget the stored document. -/
  | delete
deriving DecidableEq, Repr

/-- What a call ends with. -/
inductive Outcome where
  | served (s : Snapshot)
  | deleted
  | failed (error : ServiceError)

/-- What a call waits for. -/
inductive Need where
  | lock
  /-- The fingerprint of the graph. -/
  | fingerprint
  /-- The stored document. -/
  | load
  | save (document : String)
  | delete
  /-- Samples of at most `size` nodes for every label. -/
  | sample (size : Nat)
deriving DecidableEq, Repr

/-- What ends the wait. -/
abbrev Need.Answer : Need → Type
  | .lock => Unit
  | .fingerprint => Except DatabaseError Int
  | .load => Except StoreError (Option String)
  | .save _ => Except StoreError Unit
  | .delete => Except StoreError Unit
  | .sample _ => Except DatabaseError (List LabelSample)

/-- A call that waits. -/
inductive Pending where
  /-- The snapshot seen is due for a comparison with the graph. -/
  | comparing (seen : Snapshot)
  /-- A snapshot is to be made instead of `stale`, once the lock is there. -/
  | building (stale : Option Snapshot)
  | fingerprinting (stale : Option Snapshot)
  | loading (stale : Option Snapshot) (fingerprint : Int)
  | sampling (stale : Option Snapshot) (fingerprint : Int)
  /-- The document is to be replaced, once the lock is there. -/
  | replacing (document : String)
  | saving (document : String) (catalog : Catalog)
  /-- The document is stored; the snapshot for it wants a fingerprint. -/
  | confirming (catalog : Catalog)
  /-- The document is to be deleted, once the lock is there. -/
  | deleting
  | erasing

/-- What a waiting call waits for. -/
def Pending.need : Pending → Need
  | comparing _ => .fingerprint
  | building _ => .lock
  | fingerprinting _ => .fingerprint
  | loading .. => .load
  | sampling .. => .sample sampleSize
  | replacing _ => .lock
  | saving document _ => .save document
  | confirming _ => .fingerprint
  | deleting => .lock
  | erasing => .delete

/-- A call under way, or at its end. -/
inductive Task where
  | finished (outcome : Outcome)
  | waiting (p : Pending)

-- =============================================================== steps

namespace Context

/-- Whether the snapshot is to be compared with the graph. -/
def checkDue (c : Context) (settings : ContextSettings) (now : Nat) : Bool :=
  settings.checkInterval ≤ now - c.lastCheck

/-- Drop the current snapshot. -/
def reset (c : Context) : Context := { c with current := none }

/-- Give the lock back. -/
def unlock (c : Context) : Context := { c with locked := false }

/-- Begin a call. -/
def start (settings : ContextSettings) (now : Nat) (c : Context) : Call → Context × Task
  | .snapshot =>
      match c.current with
      | none => (c, .waiting (.building none))
      | some s =>
          if c.checkDue settings now then
            ({ c with lastCheck := now }, .waiting (.comparing s))
          else (c, .finished (.served s))
  | .replace document => (c, .waiting (.replacing document))
  | .delete => (c, .waiting .deleting)

/-- Make a snapshot and use it; the lock is given back. -/
def commit (settings : ContextSettings) (now : Nat) (c : Context) (catalog : Catalog)
    (fingerprint : Int) : Context × Task :=
  let s : Snapshot := ⟨c.made, ⟨catalog, settings.options⟩, fingerprint⟩
  (⟨some s, now, c.made + 1, false⟩, .finished (.served s))

/-- Fail under the lock, which is given back. -/
def fail (c : Context) (error : ServiceError) : Context × Task :=
  (c.unlock, .finished (.failed error))

/-- Fail to make a snapshot instead of `stale`, which serves on. -/
def abandon (c : Context) (stale : Option Snapshot) (error : ServiceError) : Context × Task :=
  match stale with
  | some s => (c.unlock, .finished (.served s))
  | none => c.fail error

/-- The snapshot that another call has made instead of `stale` meanwhile. -/
def replacement? (c : Context) (stale : Option Snapshot) : Option Snapshot :=
  c.current.filter fun s => stale.all fun old => old.id ≠ s.id

/-- Make the snapshot that a catalog gives. -/
def conclude {ε : Type} (settings : ContextSettings) (now : Nat) (c : Context)
    (stale : Option Snapshot) (fingerprint : Int) (wrap : ε → ServiceError) :
    Except ε Catalog → Context × Task
  | .ok catalog => c.commit settings now catalog fingerprint
  | .error e => c.abandon stale (wrap e)

/-- Go on with a call that waited. -/
def resume (settings : ContextSettings) (now : Nat) (c : Context) :
    (p : Pending) → p.need.Answer → Context × Task
  | .comparing seen, .ok fingerprint =>
      if fingerprint = seen.fingerprint then (c, .finished (.served seen))
      else (c, .waiting (.building (some seen)))
  | .comparing seen, .error _ => (c, .finished (.served seen))
  | .building stale, () =>
      match c.replacement? stale with
      | some s => (c, .finished (.served s))
      | none => ({ c with locked := true }, .waiting (.fingerprinting stale))
  | .fingerprinting stale, .ok fingerprint => (c, .waiting (.loading stale fingerprint))
  | .fingerprinting stale, .error e => c.abandon stale (.database e)
  | .loading stale fingerprint, .ok (some document) =>
      c.conclude settings now stale fingerprint .schema (Catalog.parse document)
  | .loading stale fingerprint, .ok none =>
      if settings.samples then (c, .waiting (.sampling stale fingerprint))
      else c.commit settings now .empty fingerprint
  | .loading stale _, .error e => c.abandon stale (.store e)
  | .sampling stale fingerprint, .ok samples =>
      c.conclude settings now stale fingerprint .model (Catalog.ofSamples samples)
  | .sampling stale _, .error e => c.abandon stale (.database e)
  | .replacing document, () =>
      match Catalog.parse document with
      | .ok catalog => ({ c with locked := true }, .waiting (.saving document catalog))
      | .error e => (c, .finished (.failed (.schema e)))
  | .saving _ catalog, .ok () => (c, .waiting (.confirming catalog))
  | .saving .., .error e => c.fail (.store e)
  | .confirming catalog, .ok fingerprint => c.commit settings now catalog fingerprint
  | .confirming _, .error e => c.fail (.database e)
  | .deleting, () => ({ c with locked := true }, .waiting .erasing)
  | .erasing, .ok () => (c.reset.unlock, .finished .deleted)
  | .erasing, .error e => c.fail (.store e)

end Context

-- ============================================================ progress

/-- The number of steps that a waiting call takes at most. -/
def Pending.rank : Pending → Nat
  | comparing _ => 5
  | building _ => 4
  | fingerprinting _ => 3
  | loading .. => 2
  | sampling .. => 1
  | replacing _ => 3
  | saving .. => 2
  | confirming _ => 1
  | deleting => 2
  | erasing => 1

/-- The number of steps that a call takes at most. -/
def Task.rank : Task → Nat
  | finished _ => 0
  | waiting p => p.rank

@[simp] theorem Task.rank_finished (outcome : Outcome) : (Task.finished outcome).rank = 0 := rfl

@[simp] theorem Task.rank_waiting (p : Pending) : (Task.waiting p).rank = p.rank := rfl

namespace Context

@[simp] theorem rank_commit (settings : ContextSettings) (now : Nat) (c : Context)
    (catalog : Catalog) (fingerprint : Int) :
    (c.commit settings now catalog fingerprint).2.rank = 0 := rfl

@[simp] theorem rank_fail (c : Context) (error : ServiceError) :
    (c.fail error).2.rank = 0 := rfl

@[simp] theorem rank_abandon (c : Context) (stale : Option Snapshot) (error : ServiceError) :
    (c.abandon stale error).2.rank = 0 := by
  cases stale <;> rfl

@[simp] theorem rank_conclude {ε : Type} (settings : ContextSettings) (now : Nat) (c : Context)
    (stale : Option Snapshot) (fingerprint : Int) (wrap : ε → ServiceError)
    (result : Except ε Catalog) :
    (c.conclude settings now stale fingerprint wrap result).2.rank = 0 := by
  cases result <;> simp [conclude]

/-- Every step brings a call closer to its end. -/
theorem rank_resume_lt (settings : ContextSettings) (now : Nat) (c : Context) (p : Pending)
    (answer : p.need.Answer) :
    (c.resume settings now p answer).2.rank < p.rank := by
  cases p with
  | comparing seen =>
      cases answer with
      | error e => simp [resume, Pending.rank]
      | ok fingerprint =>
          simp only [resume]
          split <;> simp [Pending.rank]
  | building stale =>
      cases answer
      simp only [resume]
      split <;> simp [Pending.rank]
  | fingerprinting stale => cases answer <;> simp [resume, Pending.rank]
  | loading stale fingerprint =>
      cases answer with
      | error e => simp [resume, Pending.rank]
      | ok document =>
          cases document with
          | some document => simp [resume, Pending.rank]
          | none =>
              simp only [resume]
              split <;> simp [Pending.rank]
  | sampling stale fingerprint => cases answer <;> simp [resume, Pending.rank]
  | replacing document =>
      cases answer
      simp only [resume]
      split <;> simp [Pending.rank]
  | saving document catalog => cases answer <;> simp [resume, Pending.rank]
  | confirming catalog => cases answer <;> simp [resume, Pending.rank]
  | deleting =>
      cases answer
      simp [resume, Pending.rank]
  | erasing => cases answer <;> simp [resume, Pending.rank]

end Context

end PropertyGraphQL
