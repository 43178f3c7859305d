/-
Calls that run at the same time.

In a `World` calls are under way against one context, and against what they
ask things of. A step of it (`Step`) is one of four things: what is outside
moves on by itself, the context is reset, a call begins, or a waiting call
gets its answer and takes its next indivisible step. Which of them comes
next is open, so the runs of a world are all the interleavings of its
calls. The one thing a step asks of the order is the lock: it is granted
only while it is free.

What a call does with an answer is said once, by `Resumed`, and all that
follows about runs is read off there. First of it is that the lock does its
work: at most one call is past it, and the lock is taken while one is
(`Run.heldBy`).
-/
import PropertyGraphQL.Service.Context

namespace PropertyGraphQL

-- ================================================= beginning and resuming

/-- All that a call does when it begins. -/
inductive Started (settings : ContextSettings) (now : Nat) (c : Context) :
    Call → Context × Task → Prop
  | missing (h : c.current = none) :
      Started settings now c .snapshot (c, .waiting (.building none))
  | due {s : Snapshot} (h : c.current = some s) (hdue : c.checkDue settings now = true) :
      Started settings now c .snapshot ({ c with lastCheck := now }, .waiting (.comparing s))
  | recent {s : Snapshot} (h : c.current = some s) (hdue : c.checkDue settings now = false) :
      Started settings now c .snapshot (c, .finished (.served s))
  | replace {document : String} :
      Started settings now c (.replace document) (c, .waiting (.replacing document))
  | delete : Started settings now c .delete (c, .waiting .deleting)

/-- How a call begins is one of the cases. -/
theorem Context.started (settings : ContextSettings) (now : Nat) (c : Context) (call : Call) :
    Started settings now c call (c.start settings now call) := by
  cases call with
  | snapshot =>
    simp only [start]
    split
    · next h => exact .missing h
    · next s h =>
      split
      · next hdue => exact .due h hdue
      · next hdue => exact .recent h ((Bool.not_eq_true _).mp hdue)
  | replace document => exact .replace
  | delete => exact .delete

/-- The answers on which the making of a snapshot fails, the snapshot it was to
replace, and the error. -/
inductive Pending.Fails :
    (p : Pending) → p.need.Answer → Option Snapshot → ServiceError → Prop
  | fingerprinting {stale : Option Snapshot} {e : DatabaseError} :
      Fails (.fingerprinting stale) (.error e) stale (.database e)
  | loading {stale : Option Snapshot} {fingerprint : Int} {e : StoreError} :
      Fails (.loading stale fingerprint) (.error e) stale (.store e)
  | parsing {stale : Option Snapshot} {fingerprint : Int} {document : String} {e : SchemaError}
      (h : Catalog.parse document = .error e) :
      Fails (.loading stale fingerprint) (.ok (some document)) stale (.schema e)
  | sampling {stale : Option Snapshot} {fingerprint : Int} {e : DatabaseError} :
      Fails (.sampling stale fingerprint) (.error e) stale (.database e)
  | inferring {stale : Option Snapshot} {fingerprint : Int} {samples : List LabelSample}
      {e : ModelError} (h : Catalog.ofSamples samples = .error e) :
      Fails (.sampling stale fingerprint) (.ok samples) stale (.model e)

/-- All that a waiting call does with its answer. -/
inductive Resumed (settings : ContextSettings) (now : Nat) (c : Context) :
    (p : Pending) → p.need.Answer → Context × Task → Prop
  -- comparing
  | alike {seen : Snapshot} :
      Resumed settings now c (.comparing seen) (.ok seen.fingerprint)
        (c, .finished (.served seen))
  | outdated {seen : Snapshot} {fingerprint : Int} (h : fingerprint ≠ seen.fingerprint) :
      Resumed settings now c (.comparing seen) (.ok fingerprint)
        (c, .waiting (.building (some seen)))
  | unseen {seen : Snapshot} {e : DatabaseError} :
      Resumed settings now c (.comparing seen) (.error e) (c, .finished (.served seen))
  -- making a snapshot
  | overtaken {stale : Option Snapshot} {s : Snapshot} (h : c.replacement? stale = some s) :
      Resumed settings now c (.building stale) () (c, .finished (.served s))
  | building {stale : Option Snapshot} (h : c.replacement? stale = none) :
      Resumed settings now c (.building stale) ()
        ({ c with locked := true }, .waiting (.fingerprinting stale))
  | fingerprinted {stale : Option Snapshot} {fingerprint : Int} :
      Resumed settings now c (.fingerprinting stale) (.ok fingerprint)
        (c, .waiting (.loading stale fingerprint))
  | read {stale : Option Snapshot} {fingerprint : Int} {document : String} {catalog : Catalog}
      (h : Catalog.parse document = .ok catalog) :
      Resumed settings now c (.loading stale fingerprint) (.ok (some document))
        (c.commit settings now catalog fingerprint)
  | sampling {stale : Option Snapshot} {fingerprint : Int} (h : settings.samples = true) :
      Resumed settings now c (.loading stale fingerprint) (.ok none)
        (c, .waiting (.sampling stale fingerprint))
  | bare {stale : Option Snapshot} {fingerprint : Int} (h : settings.samples = false) :
      Resumed settings now c (.loading stale fingerprint) (.ok none)
        (c.commit settings now .empty fingerprint)
  | inferred {stale : Option Snapshot} {fingerprint : Int} {samples : List LabelSample}
      {catalog : Catalog} (h : Catalog.ofSamples samples = .ok catalog) :
      Resumed settings now c (.sampling stale fingerprint) (.ok samples)
        (c.commit settings now catalog fingerprint)
  | abandoned {p : Pending} {answer : p.need.Answer} {stale : Option Snapshot}
      {e : ServiceError} (h : p.Fails answer stale e) :
      Resumed settings now c p answer (c.abandon stale e)
  -- replacing the document
  | unreadable {document : String} {e : SchemaError} (h : Catalog.parse document = .error e) :
      Resumed settings now c (.replacing document) () (c, .finished (.failed (.schema e)))
  | replacing {document : String} {catalog : Catalog}
      (h : Catalog.parse document = .ok catalog) :
      Resumed settings now c (.replacing document) ()
        ({ c with locked := true }, .waiting (.saving document catalog))
  | saved {document : String} {catalog : Catalog} :
      Resumed settings now c (.saving document catalog) (.ok ())
        (c, .waiting (.confirming catalog))
  | unsaved {document : String} {catalog : Catalog} {e : StoreError} :
      Resumed settings now c (.saving document catalog) (.error e) (c.fail (.store e))
  | confirmed {catalog : Catalog} {fingerprint : Int} :
      Resumed settings now c (.confirming catalog) (.ok fingerprint)
        (c.commit settings now catalog fingerprint)
  | unconfirmed {catalog : Catalog} {e : DatabaseError} :
      Resumed settings now c (.confirming catalog) (.error e) (c.fail (.database e))
  -- deleting the document
  | deleting :
      Resumed settings now c .deleting () ({ c with locked := true }, .waiting .erasing)
  | erased : Resumed settings now c .erasing (.ok ()) (c.reset.unlock, .finished .deleted)
  | unerased {e : StoreError} :
      Resumed settings now c .erasing (.error e) (c.fail (.store e))

/-- How a call goes on is one of the cases. -/
theorem Context.resumed (settings : ContextSettings) (now : Nat) (c : Context) (p : Pending)
    (answer : p.need.Answer) :
    Resumed settings now c p answer (c.resume settings now p answer) := by
  cases p with
  | comparing seen =>
    cases answer with
    | error e => exact .unseen
    | ok fingerprint =>
      simp only [resume]
      -- another fingerprint is the only reason to build anew
      split
      · next h => exact h ▸ .alike
      · next h => exact .outdated h
  | building stale =>
    cases answer
    simp only [resume]
    -- the lock is had, and another call may have built meanwhile
    split
    · next h => exact .overtaken h
    · next h => exact .building h
  | fingerprinting stale =>
    cases answer with
    | error e => exact .abandoned .fingerprinting
    | ok fingerprint => exact .fingerprinted
  | loading stale fingerprint =>
    cases answer with
    | error e => exact .abandoned .loading
    | ok stored =>
      cases stored with
      | none =>
        simp only [resume]
        -- with no document stored it is the sampler that decides
        split
        · next h => exact .sampling h
        · next h => exact .bare ((Bool.not_eq_true _).mp h)
      | some document =>
        simp only [resume]
        cases h : Catalog.parse document with
        | error e => exact .abandoned (.parsing h)
        | ok catalog => exact .read h
  | sampling stale fingerprint =>
    cases answer with
    | error e => exact .abandoned .sampling
    | ok samples =>
      simp only [resume]
      cases h : Catalog.ofSamples samples with
      | error e => exact .abandoned (.inferring h)
      | ok catalog => exact .inferred h
  | replacing document =>
    cases answer
    simp only [resume]
    split
    · next h => exact .replacing h
    · next h => exact .unreadable h
  | saving document catalog =>
    cases answer with
    | error e => exact .unsaved
    | ok => exact .saved
  | confirming catalog =>
    cases answer with
    | error e => exact .unconfirmed
    | ok fingerprint => exact .confirmed
  | deleting =>
    cases answer
    exact .deleting
  | erasing =>
    cases answer with
    | error e => exact .unerased
    | ok => exact .erased

-- ================================================================== worlds

/-- What is around a context. -/
structure Outside where
  State : Type
  /-- The time in milliseconds. -/
  clock : State → Nat
  /-- What may be answered to a call, and what that leaves. -/
  Answers : State → (need : Need) → need.Answer → State → Prop
  /-- What may happen while no call asks. -/
  Changes : State → State → Prop

/-- Calls against one context, in the order in which they began. -/
structure World (σ : Type) where
  context : Context
  outside : σ
  calls : List (Call × Task)

/-- A world in which no call has begun. -/
def World.fresh {σ : Type} (outside : σ) : World σ := ⟨.fresh, outside, []⟩

/-- What happens in a step. -/
inductive Event where
  /-- Nothing that the context takes part in. -/
  | pass
  | reset
  | start (call : Call)
  /-- The call with this number gets what it waits for. -/
  | resume (i : Nat) (p : Pending)

/-- One step of a world. -/
inductive Step (env : Outside) (settings : ContextSettings) :
    World env.State → Event → World env.State → Prop
  | pass {w : World env.State} {outside : env.State} (hchange : env.Changes w.outside outside) :
      Step env settings w .pass { w with outside }
  | reset {w : World env.State} :
      Step env settings w .reset { w with context := w.context.reset }
  | start {w : World env.State} {call : Call} {context : Context} {task : Task}
      (hstart : w.context.start settings (env.clock w.outside) call = (context, task)) :
      Step env settings w (.start call) ⟨context, w.outside, w.calls ++ [(call, task)]⟩
  | resume {w : World env.State} {i : Nat} {call : Call} {p : Pending} {answer : p.need.Answer}
      {outside : env.State} {context : Context} {task : Task}
      (hcall : w.calls[i]? = some (call, .waiting p))
      (hfree : p.need = .lock → w.context.locked = false)
      (hanswer : env.Answers w.outside p.need answer outside)
      (hresume : w.context.resume settings (env.clock outside) p answer = (context, task)) :
      Step env settings w (.resume i p) ⟨context, outside, w.calls.set i (call, task)⟩

/-- Steps one after the other. -/
inductive Run (env : Outside) (settings : ContextSettings) :
    World env.State → List Event → World env.State → Prop
  | nil {w : World env.State} : Run env settings w [] w
  | cons {w w' w'' : World env.State} {event : Event} {events : List Event}
      (hstep : Step env settings w event w') (hrun : Run env settings w' events w'') :
      Run env settings w (event :: events) w''

variable {env : Outside} {settings : ContextSettings}

/-- Runs one after another are a run. -/
theorem Run.append {w w' w'' : World env.State} {events events' : List Event}
    (hrun : Run env settings w events w') (hrun' : Run env settings w' events' w'') :
    Run env settings w (events ++ events') w'' := by
  induction hrun with
  | nil => exact hrun'
  | cons hstep _ ih => exact .cons hstep (ih hrun')

/-- What the steps with some events preserve, a run with those events preserves. -/
theorem Run.invariant {holds : World env.State → Prop} (allowed : Event → Prop)
    (hpreserved : ∀ {w event w'}, allowed event → holds w → Step env settings w event w' →
      holds w')
    {w w' : World env.State} {events : List Event} (hrun : Run env settings w events w')
    (hallowed : ∀ event ∈ events, allowed event) (h : holds w) : holds w' := by
  induction hrun with
  | nil => exact h
  | cons hstep _ ih =>
    obtain ⟨hfirst, hrest⟩ := List.forall_mem_cons.mp hallowed
    exact ih hrest (hpreserved hfirst h hstep)

-- ============================================================ single calls

/-- A list with one added has that one at the end and its own before. -/
theorem getElem?_concat {α : Type} (l : List α) (a : α) (i : Nat) :
    (l ++ [a])[i]? = if i < l.length then l[i]? else if i = l.length then some a else none := by
  rcases Nat.lt_trichotomy i l.length with hi | rfl | hi
  · rw [List.getElem?_append_left hi, if_pos hi]
  · rw [List.getElem?_concat_length, if_neg (Nat.lt_irrefl _), if_pos rfl]
  · rw [if_neg (Nat.lt_asymm hi), if_neg (Nat.ne_of_gt hi), List.getElem?_eq_none]
    rw [List.length_append, List.length_singleton]
    exact hi

/-- Where a call is behind a step: where it was before, or where the step has brought
it. -/
inductive Step.Origin (env : Outside) (settings : ContextSettings) (w w' : World env.State)
    (event : Event) (j : Nat) (call : Call) (task : Task) : Prop
  | kept (h : w.calls[j]? = some (call, task)) (hevent : ∀ p, event ≠ .resume j p)
  | began (hj : j = w.calls.length) (hevent : event = .start call)
      (h : Started settings (env.clock w.outside) w.context call (w'.context, task))
  | resumed {p : Pending} {answer : p.need.Answer} (hevent : event = .resume j p)
      (h : w.calls[j]? = some (call, .waiting p))
      (hanswer : env.Answers w.outside p.need answer w'.outside)
      (hresumed : Resumed settings (env.clock w'.outside) w.context p answer (w'.context, task))

/-- A call behind a step is as before, has begun in it, or has gone on in it. -/
theorem Step.origin {w w' : World env.State} {event : Event}
    (hstep : Step env settings w event w') {j : Nat} {call : Call} {task : Task}
    (h : w'.calls[j]? = some (call, task)) : Origin env settings w w' event j call task := by
  cases hstep with
  | pass | reset => exact .kept h nofun
  | @start started context task' hstart =>
    rw [getElem?_concat] at h
    split at h
    · exact .kept h nofun
    · split at h
      · next hj =>
        cases h
        exact .began hj rfl (hstart ▸ w.context.started ..)
      · cases h
  | @resume i resumed p answer outside context task' hcall _ hanswer hresume =>
    by_cases hj : j = i
    · subst hj
      rw [List.getElem?_set_self (List.getElem?_eq_some_iff.mp hcall).1] at h
      cases h
      exact .resumed rfl hcall hanswer (hresume ▸ w.context.resumed ..)
    · rw [List.getElem?_set_ne (Ne.symm hj)] at h
      exact .kept h fun q heq => hj (Event.resume.inj heq).1.symm

-- ================================================================ the lock

/-- Whether a call is past the lock. -/
def Pending.holdsLock : Pending → Bool
  | fingerprinting _ | loading .. | sampling .. | saving .. | confirming _ | erasing => true
  | comparing _ | building _ | replacing _ | deleting => false

def Task.holdsLock : Task → Bool
  | finished _ => false
  | waiting p => p.holdsLock

/-- A step takes the lock if the call is past it then, and gives it back if the call
no longer is. -/
theorem Resumed.locked {now : Nat} {c : Context} {p : Pending} {answer : p.need.Answer}
    {next : Context × Task} (h : Resumed settings now c p answer next)
    (hlocked : p.holdsLock = true → c.locked = true) :
    next.1.locked = (next.2.holdsLock || (c.locked && !p.holdsLock)) := by
  cases h with
  | alike | outdated | unseen | overtaken | unreadable =>
    exact (Bool.and_true _).symm
  | building | replacing | deleting => rfl
  | fingerprinted | sampling | saved => exact hlocked rfl
  | read | bare | inferred | confirmed => exact (Bool.and_false _).symm
  | unsaved | unconfirmed | erased | unerased => exact (Bool.and_false _).symm
  | @abandoned _ _ stale _ hfails =>
    cases hfails <;> cases stale <;> exact (Bool.and_false _).symm

/-- A call that a step brings past the lock was past it, or waited for it. -/
theorem Resumed.need_eq_lock {now : Nat} {c : Context} {p : Pending} {answer : p.need.Answer}
    {next : Context × Task} (h : Resumed settings now c p answer next)
    (hnext : next.2.holdsLock = true) (hp : p.holdsLock = false) : p.need = .lock := by
  cases h with
  | building | replacing | deleting => rfl
  | alike | outdated | unseen | overtaken | unreadable => cases hnext
  | fingerprinted | sampling | saved | read | bare | inferred | confirmed => cases hp
  | unsaved | unconfirmed | erased | unerased => cases hp
  | abandoned hfails => cases hfails <;> cases hp

/-- Beginning leaves the lock alone. -/
theorem Started.locked {now : Nat} {c : Context} {call : Call} {next : Context × Task}
    (h : Started settings now c call next) :
    next.1.locked = c.locked ∧ next.2.holdsLock = false := by
  cases h with
  | missing | due | recent | replace | delete => exact ⟨rfl, rfl⟩

namespace World

variable {σ : Type}

/-- Whether the call with a number is past the lock. -/
def holds (w : World σ) (i : Nat) : Bool := w.calls[i]?.any fun entry => entry.2.holdsLock

/-- The lock is taken exactly while a call is past it, and no other call is. -/
structure HeldBy (w : World σ) (holder : Option Nat) : Prop where
  locked : w.context.locked = holder.isSome
  holds_iff : ∀ i, w.holds i = true ↔ holder = some i

theorem heldBy_fresh (outside : σ) : (World.fresh outside).HeldBy none :=
  ⟨rfl, fun _ => iff_of_false Bool.false_ne_true nofun⟩

theorem holds_eq {w : World σ} {i : Nat} {call : Call} {task : Task}
    (hcall : w.calls[i]? = some (call, task)) : w.holds i = task.holdsLock := by
  rw [holds, hcall, Option.any_some]

/-- A call that begins is not past the lock. -/
theorem holds_start {w : World σ} {context : Context} {call : Call} {task : Task}
    (htask : task.holdsLock = false) (i : Nat) :
    World.holds ⟨context, w.outside, w.calls ++ [(call, task)]⟩ i = w.holds i := by
  unfold holds
  rw [getElem?_concat]
  split
  · rfl
  · next hi =>
    rw [List.getElem?_eq_none (Nat.le_of_not_lt hi)]
    split
    · exact htask
    · rfl

/-- A call that is brought on is past the lock if what it does then is. -/
theorem holds_resume {w : World σ} {context : Context} {outside : σ} {i : Nat} {call : Call}
    {before task : Task} (hcall : w.calls[i]? = some (call, before)) (j : Nat) :
    World.holds ⟨context, outside, w.calls.set i (call, task)⟩ j
      = if j = i then task.holdsLock else w.holds j := by
  obtain ⟨hi, -⟩ := List.getElem?_eq_some_iff.mp hcall
  unfold holds
  by_cases hj : j = i
  · rw [if_pos hj, hj, List.getElem?_set_self hi, Option.any_some]
  · rw [if_neg hj, List.getElem?_set_ne (Ne.symm hj)]

namespace HeldBy

variable {w : World σ} {holder : Option Nat} {i : Nat} {call : Call} {before task : Task}
  {context : Context} {outside : σ}

theorem eq_some (h : w.HeldBy holder) (hcall : w.calls[i]? = some (call, task))
    (htask : task.holdsLock = true) : holder = some i :=
  (h.holds_iff i).mp ((holds_eq hcall).trans htask)

/-- While a call is past the lock, no other is. -/
theorem not_holdsLock (h : w.HeldBy holder) {j : Nat} {other : Call}
    (hcall : w.calls[i]? = some (call, task)) (htask : task.holdsLock = true)
    (hother : w.calls[j]? = some (other, before)) (hj : j ≠ i) : before.holdsLock = false := by
  cases hbefore : before.holdsLock with
  | false => rfl
  | true =>
    have hi := h.eq_some hcall htask
    rw [h.eq_some hother hbefore] at hi
    exact absurd (Option.some.inj hi) hj

/-- A call goes past the lock, or on behind it, where no other is. -/
theorem take (hcall : w.calls[i]? = some (call, before))
    (hothers : ∀ j, w.holds j = true → j = i) (htask : task.holdsLock = true)
    (hcontext : context.locked = true) :
    HeldBy ⟨context, outside, w.calls.set i (call, task)⟩ (some i) := by
  refine ⟨hcontext, fun j => ?_⟩
  rw [holds_resume hcall]
  by_cases hj : j = i
  · rw [if_pos hj, hj]
    exact iff_of_true htask rfl
  · rw [if_neg hj]
    exact iff_of_false (fun hholds => hj (hothers j hholds)) fun heq =>
      hj (Option.some.inj heq).symm

/-- A call gives the lock back. -/
theorem leave (h : w.HeldBy holder) (hcall : w.calls[i]? = some (call, before))
    (hbefore : before.holdsLock = true) (htask : task.holdsLock = false)
    (hcontext : context.locked = false) :
    HeldBy ⟨context, outside, w.calls.set i (call, task)⟩ none := by
  refine ⟨hcontext, fun j => iff_of_false ?_ nofun⟩
  rw [holds_resume hcall, htask]
  by_cases hj : j = i
  · rw [if_pos hj]
    exact nofun
  · rw [if_neg hj, h.holds_iff j, h.eq_some hcall hbefore]
    exact fun heq => hj (Option.some.inj heq).symm

/-- A call goes on before the lock or without it. -/
theorem pass (h : w.HeldBy holder) (hcall : w.calls[i]? = some (call, before))
    (hbefore : before.holdsLock = false) (htask : task.holdsLock = false)
    (hcontext : context.locked = w.context.locked) :
    HeldBy ⟨context, outside, w.calls.set i (call, task)⟩ holder := by
  refine ⟨hcontext.trans h.locked, fun j => ?_⟩
  rw [holds_resume hcall, htask, ← h.holds_iff j]
  by_cases hj : j = i
  · rw [if_pos hj, hj, holds_eq hcall, hbefore]
  · rw [if_neg hj]

end HeldBy

end World

/-- A step hands the lock over as the call that it brings on wants it. -/
theorem Step.heldBy {w w' : World env.State} {event : Event}
    (hstep : Step env settings w event w') (h : ∃ holder, w.HeldBy holder) :
    ∃ holder, w'.HeldBy holder := by
  obtain ⟨holder, h⟩ := h
  cases hstep with
  | pass => exact ⟨holder, h.locked, h.holds_iff⟩
  | reset => exact ⟨holder, h.locked, h.holds_iff⟩
  | @start call context task hstart =>
    obtain ⟨hlocked, htask⟩ := (hstart ▸ w.context.started ..).locked
    refine ⟨holder, hlocked.trans h.locked, fun i => ?_⟩
    rw [World.holds_start htask]
    exact h.holds_iff i
  | @resume i call p answer outside context task hcall hfree hanswer hresume =>
    have hresumed := hresume ▸ w.context.resumed settings (env.clock outside) p answer
    have hholder : p.holdsLock = true → holder = some i := h.eq_some hcall
    have hlocked := hresumed.locked fun hp => by rw [h.locked, hholder hp, Option.isSome_some]
    cases htask : task.holdsLock with
    | true =>
      rw [htask, Bool.true_or] at hlocked
      refine ⟨some i, .take hcall (fun j hj => ?_) htask hlocked⟩
      -- this call was past the lock already, or the lock was free
      rw [h.holds_iff j] at hj
      cases hp : p.holdsLock with
      | true => exact Option.some.inj (hj.symm.trans (hholder hp))
      | false =>
        have hunlocked := hfree (hresumed.need_eq_lock htask hp)
        rw [h.locked, hj] at hunlocked
        cases hunlocked
    | false =>
      rw [htask, Bool.false_or] at hlocked
      cases hp : p.holdsLock with
      | true =>
        rw [hp, Bool.not_true, Bool.and_false] at hlocked
        exact ⟨none, h.leave hcall hp htask hlocked⟩
      | false =>
        rw [hp, Bool.not_false, Bool.and_true] at hlocked
        exact ⟨holder, h.pass hcall hp htask hlocked⟩

/-- In every run of a fresh world the lock is taken exactly while a call is past it,
and one call only. -/
theorem Run.heldBy {outside : env.State} {events : List Event} {w : World env.State}
    (hrun : Run env settings (.fresh outside) events w) : ∃ holder, w.HeldBy holder :=
  hrun.invariant (fun _ => True) (fun _ h hstep => hstep.heldBy h) (fun _ _ => trivial)
    ⟨none, World.heldBy_fresh outside⟩

end PropertyGraphQL
