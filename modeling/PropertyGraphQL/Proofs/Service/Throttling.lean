/-
Comparisons with the graph are an interval apart.

A context keeps one time, that of the last check. It is set in two ways only:
a call for a snapshot is granted a check and sets it to the present, or a
snapshot is made and becomes current at that moment (`Step.check`). As long
as the clock does not go back, it never goes back either
(`Execution.lastCheck_le`), so it is never before any check that was granted
or any snapshot that was made. A check is granted only an interval behind it,
and hence an interval behind all of these (`Execution.Grants.time_le`).

What fails does not touch it, and the snapshot stays where it is
(`Execution.Disappoints.kept`). So where a check was granted or a snapshot was
made, this is the time of the last check until something else becomes of the
schema or the next check is granted (`Execution.Rests.later`); and that is so
for the first call an interval behind it (`Execution.Rests.checksNext`).

The clock is what the context reads from it. It may stand still, as one does
that has come to the greatest number it can show.
-/
import PropertyGraphQL.Proofs.Service.Execution
import PropertyGraphQL.Proofs.Service.Together

namespace PropertyGraphQL

variable {env : Outside} {settings : ContextSettings}

/-- Surroundings whose clock never goes back. -/
structure Outside.Forward (env : Outside) : Prop where
  change {s s' : env.State} : env.Changes s s' → env.clock s ≤ env.clock s'
  answer {s s' : env.State} {need : Need} {answer : need.Answer} :
    env.Answers s need answer s' → env.clock s ≤ env.clock s'

/-- Surroundings, as far as their clock does not go back. -/
def Outside.onward (env : Outside) : Outside where
  State := env.State
  clock := env.clock
  Answers s need answer s' := env.Answers s need answer s' ∧ env.clock s ≤ env.clock s'
  Changes s s' := env.Changes s s' ∧ env.clock s ≤ env.clock s'

theorem Outside.forward_onward (env : Outside) : env.onward.Forward where
  change h := h.2
  answer h := h.2

-- ========================================================== what steps do

theorem Context.checkDue_iff {c : Context} {now : Nat} :
    c.checkDue settings now = true ↔ settings.checkInterval ≤ now - c.lastCheck :=
  decide_eq_true_iff

/-- The time of the last check is set to the present where a snapshot is made, and
left alone otherwise. -/
theorem Resumed.lastCheck {now : Nat} {c : Context} {p : Pending} {answer : p.need.Answer}
    {next : Context × Task} (h : Resumed settings now c p answer next) :
    next.1.lastCheck = c.lastCheck ∧ next.1.made = c.made
      ∨ next.1.lastCheck = now ∧ ∃ s, c.Makes next.1 s := by
  cases h with
  | alike | outdated | unseen | overtaken | building | fingerprinted | sampling =>
    exact .inl ⟨rfl, rfl⟩
  | unreadable | replacing | saved | unsaved | unconfirmed => exact .inl ⟨rfl, rfl⟩
  | deleting | erased | unerased => exact .inl ⟨rfl, rfl⟩
  | @abandoned _ _ stale => cases stale <;> exact .inl ⟨rfl, rfl⟩
  | read | bare | inferred | confirmed => exact .inr ⟨rfl, _, rfl, rfl, rfl⟩

/-- What becomes of the time of the last check in a step. -/
inductive Step.Check (env : Outside) (settings : ContextSettings) (w w' : World env.State)
    (event : Event) : Prop
  | kept (hlast : w'.context.lastCheck = w.context.lastCheck)
      (hmade : w'.context.made = w.context.made)
  | granted {s : Snapshot} (hevent : event = .start .snapshot)
      (hcurrent : w.context.current = some s)
      (hdue : w.context.checkDue settings (env.clock w.outside) = true)
      (hlast : w'.context.lastCheck = env.clock w.outside)
      (hmade : w'.context.made = w.context.made)
  | made {s : Snapshot} (hmakes : w.context.Makes w'.context s)
      (hlast : w'.context.lastCheck = env.clock w'.outside)

/-- What becomes of the time of the last check is one of three things. -/
theorem Step.check {w w' : World env.State} {event : Event}
    (hstep : Step env settings w event w') : Check env settings w w' event := by
  cases hstep with
  | pass | reset => exact .kept rfl rfl
  | start hstart =>
    have hstarted := hstart ▸ w.context.started ..
    have hmade := hstarted.made_eq
    cases hstarted with
    | missing | recent | replace | delete => exact .kept rfl hmade
    | due hcurrent hdue => exact .granted rfl hcurrent hdue rfl hmade
  | @resume i call p answer outside context task _ _ _ hresume =>
    have hresumed := hresume ▸ w.context.resumed settings (env.clock outside) p answer
    rcases hresumed.lastCheck with ⟨hlast, hmade⟩ | ⟨hlast, s, hmakes⟩
    · exact .kept hlast hmade
    · exact .made hmakes hlast

/-- A call that is due a check notes the time and compares. -/
theorem Context.start_of_due {c : Context} {now : Nat} {s : Snapshot}
    (hcurrent : c.current = some s) (hdue : c.checkDue settings now = true) :
    c.start settings now .snapshot
      = ({ c with lastCheck := now }, .waiting (.comparing s)) := by
  simp only [start, hcurrent, hdue, if_true]

/-- A call that begins and waits with a snapshot that it has seen is granted a check. -/
theorem Started.due_of_seen? {now : Nat} {c : Context} {call : Call} {p : Pending}
    {next : Context × Task} {s : Snapshot} (h : Started settings now c call next)
    (hp : next.2 = .waiting p) (hs : p.seen? = some s) :
    call = .snapshot ∧ c.current = some s ∧ c.checkDue settings now = true := by
  cases h with
  | due hcurrent hdue =>
    cases hp
    cases hs
    exact ⟨rfl, hcurrent, hdue⟩
  | recent => cases hp
  | missing | replace | delete =>
    cases hp
    cases hs

/-- A call that is granted a check sets the time, and waits to compare. -/
theorem Step.granted {w w' : World env.State} {s : Snapshot}
    (hstep : Step env settings w (.start .snapshot) w') (hcurrent : w.context.current = some s)
    (hdue : w.context.checkDue settings (env.clock w.outside) = true) :
    w'.context = { w.context with lastCheck := env.clock w.outside } ∧ w'.outside = w.outside
      ∧ w'.calls[w.calls.length]? = some (.snapshot, .waiting (.comparing s)) := by
  cases hstep with
  | start hstart =>
    rw [Context.start_of_due hcurrent hdue] at hstart
    cases hstart
    exact ⟨rfl, rfl, List.getElem?_concat_length⟩

/-- In no step does the clock go back. -/
theorem Step.clock_le (hforward : env.Forward) {w w' : World env.State} {event : Event}
    (hstep : Step env settings w event w') : env.clock w.outside ≤ env.clock w'.outside := by
  cases hstep with
  | pass hchange => exact hforward.change hchange
  | reset | start => exact Nat.le_refl _
  | resume _ _ hanswer => exact hforward.answer hanswer

/-- The last check is not in the future. -/
def Outside.Past (env : Outside) (w : World env.State) : Prop :=
  w.context.lastCheck ≤ env.clock w.outside

/-- The last check is never in the future. -/
theorem Step.past (hforward : env.Forward) {w w' : World env.State} {event : Event}
    (hstep : Step env settings w event w') (h : env.Past w) : env.Past w' := by
  have hclock := hstep.clock_le hforward
  unfold Outside.Past at h ⊢
  cases hstep.check with
  | kept hlast => exact hlast ▸ Nat.le_trans h hclock
  | granted _ _ _ hlast => exact hlast ▸ hclock
  | made _ hlast => exact Nat.le_of_eq hlast

/-- What drops the current snapshot is a reset, or a call that is through with deleting
the document. -/
theorem Step.dropped {w w' : World env.State} {event : Event} {s : Snapshot}
    (hstep : Step env settings w event w') (hdrops : event.drops = true)
    (hbefore : w.context.current = some s) (hafter : w'.context.current = none) :
    event = .reset ∨ ∃ i call, event = .resume i .erasing
      ∧ w'.calls[i]? = some (call, .finished .deleted) := by
  cases hstep with
  | pass | start => cases hdrops
  | reset => exact .inl rfl
  | @resume i call p answer outside context task hcall _ _ hresume =>
    obtain ⟨hi, -⟩ := List.getElem?_eq_some_iff.mp hcall
    cases p with
    | erasing =>
      cases answer with
      | error e =>
        cases hresume
        cases hbefore.symm.trans hafter
      | ok =>
        cases hresume
        exact .inr ⟨i, call, rfl, List.getElem?_set_self hi⟩
    | _ => cases hdrops

/-- Where the making of a snapshot fails, the one to be replaced serves on. -/
theorem Pending.Fails.resume_eq {p : Pending} {answer : p.need.Answer} {stale : Option Snapshot}
    {e : ServiceError} (h : p.Fails answer stale e) (now : Nat) (c : Context) :
    c.resume settings now p answer = c.abandon stale e := by
  cases h with
  | fingerprinting | loading | sampling => rfl
  | parsing hparse => simp only [Context.resume, hparse, Context.conclude]
  | inferring hinfer => simp only [Context.resume, hinfer, Context.conclude]

namespace Execution

variable (x : Execution env settings)

-- ================================================================ the clock

/-- The time at a moment. -/
def time (k : Nat) : Nat := env.clock (x.world k).outside

section

variable {x} {k l : Nat}

/-- A later moment is not earlier on the clock. -/
theorem time_le (hforward : env.Forward) (hkl : k ≤ l) (hl : l ≤ x.length) :
    x.time k ≤ x.time l := by
  induction l, hkl using Nat.le_induction with
  | base => exact Nat.le_refl _
  | succ l _ ih => exact Nat.le_trans (ih (by omega)) ((x.step l hl).clock_le hforward)

/-- At every moment the last check is in the past. -/
theorem lastCheck_le_time (hforward : env.Forward) (hk : k ≤ x.length) :
    (x.world k).context.lastCheck ≤ x.time k := by
  have hpast : env.Past (x.world k) :=
    x.invariant (fun outside => Nat.zero_le _) (Step.past hforward) hk
  exact hpast

/-- The time of the last check does not go back. -/
theorem lastCheck_le (hforward : env.Forward) (hkl : k ≤ l) (hl : l ≤ x.length) :
    (x.world k).context.lastCheck ≤ (x.world l).context.lastCheck := by
  induction l, hkl using Nat.le_induction with
  | base => exact Nat.le_refl _
  | succ l _ ih =>
    have hbefore := lastCheck_le_time hforward (Nat.le_of_lt hl)
    refine Nat.le_trans (ih (by omega)) ?_
    cases (x.step l hl).check with
    | kept hlast => exact Nat.le_of_eq hlast.symm
    | granted _ _ _ hlast => exact hlast ▸ hbefore
    | made _ hlast => exact hlast ▸ Nat.le_trans hbefore ((x.step l hl).clock_le hforward)

end

-- ================================================================== checks

/-- In step `k` a call for a snapshot begins, and is to compare the current one with the
graph. -/
structure Grants (k : Nat) (s : Snapshot) : Prop where
  within : k < x.length
  began : x.event k = .start .snapshot
  current : (x.world k).context.current = some s
  due : (x.world k).context.checkDue settings (x.time k) = true

/-- In step `k` the call `i` gets what it waits for. -/
structure Answered (k i : Nat) (p : Pending) (answer : p.need.Answer) : Prop where
  within : k < x.length
  event : x.event k = .resume i p
  waits : x.Waits k i p
  answers : env.Answers (x.world k).outside p.need answer (x.world (k + 1)).outside
  resumes : ∃ call task, (x.world (k + 1)).calls[i]? = some (call, task)
    ∧ (x.world k).context.resume settings (x.time (k + 1)) p answer
      = ((x.world (k + 1)).context, task)

/-- In step `k` a check of `s` comes to nothing: the fingerprint is not to be had, or the
snapshot to be made instead is not. -/
inductive Disappoints (k i : Nat) (s : Snapshot) : Prop
  | unseen {e : DatabaseError} (h : x.Answered k i (.comparing s) (.error e))
  | unbuilt {p : Pending} {answer : p.need.Answer} {e : ServiceError}
      (hfails : p.Fails answer (some s) e) (h : x.Answered k i p answer)

/-- In step `k` something else becomes of the schema: it is reset, another snapshot is
made (of the graph anew, or of a document that replaces the stored one), or the document
is deleted. -/
inductive Renews (k : Nat) : Prop
  | reset (h : x.event k = .reset)
  | made {s : Snapshot} (h : x.Becomes k s)
  | deleted {i : Nat} {call : Call} (hevent : x.event k = .resume i .erasing)
      (h : (x.world (k + 1)).calls[i]? = some (call, .finished .deleted))

/-- In step `m` the first call for a snapshot begins that is an interval behind the
moment `k`. -/
structure FirstSince (k m : Nat) : Prop where
  later : k ≤ m
  within : m < x.length
  began : x.event m = .start .snapshot
  since : x.time k + settings.checkInterval ≤ x.time m
  first : ∀ j, k ≤ j → j < m → x.event j = .start .snapshot →
    x.time j < x.time k + settings.checkInterval

/-- The call that begins in step `k` compares `s` with the graph; if this is another
since, it sets out to replace it. -/
structure Checks (k : Nat) (s : Snapshot) : Prop where
  granted : x.Grants k s
  compares : x.Waits (k + 1) (x.world k).calls.length (.comparing s)
  rebuilds : ∀ l fingerprint, fingerprint ≠ s.fingerprint →
    x.Answered l (x.world k).calls.length (.comparing s) (.ok fingerprint) →
      x.Waits (l + 1) (x.world k).calls.length (.building (some s))

/-- Unless something else becomes of the schema behind step `k`, the first call an interval
behind it compares `s` with the graph. No time passes in a step that grants a check, so
this is an interval behind the check itself. -/
def ChecksNext (k : Nat) (s : Snapshot) : Prop :=
  ∀ m, x.FirstSince (k + 1) m → (∀ j, k < j → j < m → ¬ x.Renews j) → x.Checks m s

/-- At moment `k` a snapshot is current, and the last check was at a time. -/
structure Rests (k : Nat) (s : Snapshot) (since : Nat) : Prop where
  current : (x.world k).context.current = some s
  last : (x.world k).context.lastCheck = since

variable {x} {k l m i since : Nat} {s : Snapshot}

namespace Grants

/-- A check that is granted sets the time of the last one. -/
theorem lastCheck_eq (h : x.Grants k s) : (x.world (k + 1)).context.lastCheck = x.time k := by
  obtain ⟨hcontext, -⟩ := (h.began ▸ x.step k h.within).granted h.current h.due
  rw [hcontext]
  rfl

/-- Behind a check that is granted the snapshot rests since then. -/
theorem rests (h : x.Grants k s) : x.Rests (k + 1) s (x.time (k + 1)) := by
  obtain ⟨hcontext, houtside, -⟩ := (h.began ▸ x.step k h.within).granted h.current h.due
  constructor
  · rw [hcontext]
    exact h.current
  · rw [hcontext, time, houtside]

/-- A call that is granted a check compares, and rebuilds what has changed. -/
theorem checks (h : x.Grants k s) : x.Checks k s where
  granted := h
  compares := ⟨.snapshot, ((h.began ▸ x.step k h.within).granted h.current h.due).2.2⟩
  rebuilds l fingerprint hother hanswered := by
    obtain ⟨call, task, hcall, hresume⟩ := hanswered.resumes
    simp only [Context.resume, if_neg hother, Prod.mk.injEq] at hresume
    obtain ⟨-, rfl⟩ := hresume
    exact ⟨call, hcall⟩

/-- A check is an interval behind whatever set the time of the last one before. -/
theorem time_le (h : x.Grants l s) (hforward : env.Forward) (hkl : k < l) :
    (x.world (k + 1)).context.lastCheck + settings.checkInterval ≤ x.time l := by
  have hlast : (x.world (k + 1)).context.lastCheck ≤ (x.world l).context.lastCheck :=
    lastCheck_le hforward hkl (Nat.le_of_lt h.within)
  have htime := lastCheck_le_time hforward (Nat.le_of_lt h.within)
  have hdue := Context.checkDue_iff.mp h.due
  omega

end Grants

/-- A snapshot that becomes current rests since then. -/
theorem Becomes.rests (h : x.Becomes k s) (hk : k < x.length) :
    x.Rests (k + 1) s (x.time (k + 1)) where
  current := h.2
  last := by
    have hmade := (h.makes hk).made
    cases (x.step k hk).check with
    | kept _ hkept | granted _ _ _ _ hkept => omega
    | made _ hlast => exact hlast

-- ================================================================ failures

/-- A check that comes to nothing leaves the current snapshot and the time of the last
check alone, and its call returns the snapshot it has seen. -/
theorem Disappoints.kept (h : x.Disappoints k i s) :
    (x.world (k + 1)).context.current = (x.world k).context.current
      ∧ (x.world (k + 1)).context.lastCheck = (x.world k).context.lastCheck
      ∧ x.Returned (k + 1) i s := by
  cases h with
  | unseen hanswered =>
    obtain ⟨call, task, hcall, hresume⟩ := hanswered.resumes
    obtain ⟨hcontext, rfl⟩ := Prod.mk.inj hresume
    rw [← hcontext]
    exact ⟨rfl, rfl, call, hcall⟩
  | unbuilt hfails hanswered =>
    obtain ⟨call, task, hcall, hresume⟩ := hanswered.resumes
    rw [hfails.resume_eq] at hresume
    obtain ⟨hcontext, rfl⟩ := Prod.mk.inj hresume
    rw [← hcontext]
    exact ⟨rfl, rfl, call, hcall⟩

/-- What a call waits for with a snapshot that it has seen, it waits for because it was
granted a check of it. -/
theorem exists_grants {p : Pending} (hk : k ≤ x.length) (hwaits : x.Waits k i p)
    (hseen : p.seen? = some s) : ∃ l, l < k ∧ x.Grants l s ∧ (x.world l).calls.length = i := by
  induction k generalizing p with
  | zero =>
    obtain ⟨outside, hworld⟩ := x.fresh
    obtain ⟨call, hcall⟩ := hwaits
    rw [hworld] at hcall
    cases hcall
  | succ k ih =>
    obtain ⟨call, hcall⟩ := hwaits
    have hbefore : ∀ {q : Pending}, x.Waits k i q → q.seen? = some s →
        ∃ l, l < k + 1 ∧ x.Grants l s ∧ (x.world l).calls.length = i := by
      intro q hq hs
      obtain ⟨l, hl, hgrants, hi⟩ := ih (Nat.le_of_lt hk) hq hs
      exact ⟨l, Nat.lt_succ_of_lt hl, hgrants, hi⟩
    cases (x.step k hk).origin hcall with
    | kept hcall => exact hbefore ⟨call, hcall⟩ hseen
    | resumed _ hcall _ hresumed =>
      exact hbefore ⟨call, hcall⟩ ((hresumed.seen?_eq rfl).symm.trans hseen)
    | began hi hevent hstarted =>
      obtain ⟨rfl, hcurrent, hdue⟩ := hstarted.due_of_seen? rfl hseen
      exact ⟨k, Nat.lt_succ_self _, ⟨hk, hevent, hcurrent, hdue⟩, hi.symm⟩

/-- A check that comes to nothing was granted before. -/
theorem Disappoints.grants (h : x.Disappoints k i s) :
    ∃ l, l < k ∧ x.Grants l s ∧ (x.world l).calls.length = i := by
  cases h with
  | unseen hanswered =>
    exact exists_grants (Nat.le_of_lt hanswered.within) hanswered.waits rfl
  | unbuilt hfails hanswered =>
    refine exists_grants (Nat.le_of_lt hanswered.within) hanswered.waits ?_
    cases hfails <;> rfl

-- ============================================================== the next check

/-- Until something else becomes of the schema or another check is granted, the snapshot
stays current and the time of the last check is the same. -/
theorem Rests.later (h : x.Rests k s since) (hforward : env.Forward) (hkl : k ≤ l)
    (hl : l ≤ x.length) (hkept : ∀ j, k ≤ j → j < l → ¬ x.Renews j)
    (hfirst : ∀ j, k ≤ j → j < l → x.event j = .start .snapshot →
      x.time j < since + settings.checkInterval) : x.Rests l s since := by
  induction l, hkl using Nat.le_induction with
  | base => exact h
  | succ l hkl ih =>
    obtain ⟨hcurrent, hlast⟩ := ih (Nat.le_of_lt hl) (fun j hj hjl => hkept j hj (by omega))
      (fun j hj hjl => hfirst j hj (by omega))
    have hnot := hkept l hkl (Nat.lt_succ_self _)
    have hstep := x.step l hl
    constructor
    · cases hstep.effect with
      | kept hsame => exact hsame.trans hcurrent
      | dropped hevent hnone =>
        rcases hstep.dropped hevent hcurrent hnone with hreset | ⟨_, _, hevent, hdeleted⟩
        · exact absurd (.reset hreset) hnot
        · exact absurd (.deleted hevent hdeleted) hnot
      | made _ _ _ _ _ hmakes => exact absurd (.made (becomes_of_makes hl hmakes)) hnot
    · cases hstep.check with
      | kept hsame => exact hsame.trans hlast
      | made hmakes => exact absurd (.made (becomes_of_makes hl hmakes)) hnot
      | granted hevent _ hdue =>
        -- this check would be an interval behind the last one already
        have hearly := hfirst l hkl (Nat.lt_succ_self _) hevent
        have hpast := lastCheck_le_time hforward (Nat.le_of_lt hl)
        have hinterval : settings.checkInterval ≤ x.time l - (x.world l).context.lastCheck :=
          Context.checkDue_iff.mp hdue
        omega

/-- The first call an interval behind the last check is granted the next one. -/
theorem Rests.checksNext (h : x.Rests (k + 1) s (x.time (k + 1))) (hforward : env.Forward) :
    x.ChecksNext k s := by
  intro m hm hkept
  obtain ⟨hcurrent, hlast⟩ := h.later hforward hm.later (Nat.le_of_lt hm.within) hkept hm.first
  have hsince := hm.since
  have hdue : settings.checkInterval ≤ x.time m - (x.world m).context.lastCheck := by omega
  exact Grants.checks ⟨hm.within, hm.began, hcurrent, Context.checkDue_iff.mpr hdue⟩

/-- **Checks are throttled.** Any two of them are an interval apart, and each is an
interval behind every snapshot that was made before. One that comes to nothing leaves the
snapshot in place. Unless something else becomes of the schema meanwhile, the first call
an interval behind a check, also one that comes to nothing, checks the same snapshot
again, and so does the first call an interval behind the making of a snapshot. -/
theorem checks_throttled (x : Execution env settings) (hforward : env.Forward) :
    (∀ k l s t, x.Grants k s → x.Grants l t → k < l →
        x.time k + settings.checkInterval ≤ x.time l)
      ∧ (∀ k l s t, x.Becomes k s → x.Grants l t → k < l →
        x.time (k + 1) + settings.checkInterval ≤ x.time l)
      ∧ (∀ f i s, x.Disappoints f i s →
        (x.world (f + 1)).context.current = (x.world f).context.current
          ∧ x.Returned (f + 1) i s
          ∧ ∃ k, k < f ∧ x.Grants k s ∧ (x.world k).calls.length = i ∧ x.ChecksNext k s)
      ∧ ∀ k s, k < x.length → x.Becomes k s → x.ChecksNext k s := by
  refine ⟨fun k l s t hk hl hkl => ?_, fun k l s t hk hl hkl => ?_, fun f i s hf => ?_,
    fun k s hlength hk => (hk.rests hlength).checksNext hforward⟩
  · have hbehind := hl.time_le hforward hkl
    rwa [hk.lastCheck_eq] at hbehind
  · have hbehind := hl.time_le hforward hkl
    rwa [(hk.rests (Nat.lt_trans hkl hl.within)).last] at hbehind
  · obtain ⟨hcurrent, -, hreturned⟩ := hf.kept
    obtain ⟨k, hkf, hgrants, hi⟩ := hf.grants
    exact ⟨hcurrent, hreturned, k, hkf, hgrants, hi, hgrants.rests.checksNext hforward⟩

-- ============================================================== an instance

/-- Services of which the database is down, which were asked for some fingerprints. -/
def downAt (time fingerprintCalls : Nat) : MemoryServices :=
  { MemoryServices.ofDocument none with
    time, fingerprintCalls, fingerprint := .error (.connection "down") }

/-- A snapshot is made; an hour later a call compares it with the graph, in vain, and
an hour later another call does so again. -/
def hourly : Execution Outside.memory.onward .steady where
  length := 9
  world
    | 0 => .fresh (.ofDocument none)
    | 1 => ⟨.fresh, .ofDocument none, [(.snapshot, .waiting (.building none))]⟩
    | 2 => ⟨⟨none, 0, 0, true⟩, .ofDocument none, [(.snapshot, .waiting (.fingerprinting none))]⟩
    | 3 => ⟨⟨none, 0, 0, true⟩, { MemoryServices.ofDocument none with fingerprintCalls := 1 },
        [(.snapshot, .waiting (.loading none 0))]⟩
    | 4 => ⟨⟨some Snapshot.bare, 0, 1, false⟩,
        { MemoryServices.ofDocument none with fingerprintCalls := 1 },
        [(.snapshot, .finished (.served Snapshot.bare))]⟩
    | 5 => ⟨⟨some Snapshot.bare, 0, 1, false⟩, downAt 3600000 1,
        [(.snapshot, .finished (.served Snapshot.bare))]⟩
    | 6 => ⟨⟨some Snapshot.bare, 3600000, 1, false⟩, downAt 3600000 1,
        [(.snapshot, .finished (.served Snapshot.bare)),
          (.snapshot, .waiting (.comparing Snapshot.bare))]⟩
    | 7 => ⟨⟨some Snapshot.bare, 3600000, 1, false⟩, downAt 3600000 2,
        [(.snapshot, .finished (.served Snapshot.bare)),
          (.snapshot, .finished (.served Snapshot.bare))]⟩
    | 8 => ⟨⟨some Snapshot.bare, 3600000, 1, false⟩, downAt 7200000 2,
        [(.snapshot, .finished (.served Snapshot.bare)),
          (.snapshot, .finished (.served Snapshot.bare))]⟩
    | _ => ⟨⟨some Snapshot.bare, 7200000, 1, false⟩, downAt 7200000 2,
        [(.snapshot, .finished (.served Snapshot.bare)),
          (.snapshot, .finished (.served Snapshot.bare)),
          (.snapshot, .waiting (.comparing Snapshot.bare))]⟩
  event
    | 0 | 5 | 8 => .start .snapshot
    | 1 => .resume 0 (.building none)
    | 2 => .resume 0 (.fingerprinting none)
    | 3 => .resume 0 (.loading none 0)
    | 6 => .resume 1 (.comparing Snapshot.bare)
    | _ => .pass
  fresh := ⟨.ofDocument none, rfl⟩
  step k hk := by
    match k with
    | 0 | 5 | 8 => exact .start rfl
    | 1 => exact .resume rfl (fun _ => rfl) ⟨rfl, Nat.le_refl _⟩ rfl
    | 2 | 3 | 6 => exact .resume rfl nofun ⟨rfl, Nat.le_refl _⟩ rfl
    | 4 | 7 => exact .pass ⟨rfl, by decide⟩
    | k + 9 => omega

theorem disappoints_hourly : hourly.Disappoints 6 1 Snapshot.bare :=
  .unseen ⟨by decide, rfl, ⟨.snapshot, rfl⟩, ⟨rfl, Nat.le_refl _⟩, .snapshot, _, rfl, rfl⟩

theorem firstSince_hourly : hourly.FirstSince 6 8 := by
  refine ⟨by decide, by decide, rfl, by decide, fun j hj hj' hevent => ?_⟩
  match j with
  | 6 | 7 => cases hevent

theorem not_renews_hourly (j : Nat) (hj : 5 < j) (hj' : j < 8) : ¬ hourly.Renews j := by
  intro h
  match j with
  | 6 | 7 =>
    cases h with
    | reset hevent | deleted hevent => cases hevent
    | made hbecomes => exact hbecomes.1 hbecomes.2

theorem checks_throttled_hourly :
    hourly.time 4 + 3600000 ≤ hourly.time 5 ∧ hourly.time 5 + 3600000 ≤ hourly.time 8
      ∧ hourly.Disappoints 6 1 Snapshot.bare ∧ hourly.Checks 8 Snapshot.bare := by
  obtain ⟨hapart, hbehind, hagain, -⟩ := checks_throttled hourly (Outside.forward_onward _)
  have hfirst : hourly.Grants 5 Snapshot.bare := ⟨by decide, rfl, rfl, rfl⟩
  have hsecond : hourly.Grants 8 Snapshot.bare := ⟨by decide, rfl, rfl, rfl⟩
  obtain ⟨-, -, k, hk, hgrants, hcall, hchecks⟩ := hagain 6 1 _ disappoints_hourly
  have hfive : k = 5 := by
    match k with
    | 5 => rfl
    | 0 => cases hcall
    | 1 | 2 | 3 | 4 => cases hgrants.began
  subst hfive
  exact ⟨hbehind 3 5 .bare .bare ⟨nofun, rfl⟩ hfirst (by decide),
    hapart 5 8 .bare .bare hfirst hsecond (by decide), disappoints_hourly,
    hchecks 8 firstSince_hourly not_renews_hourly⟩

end Execution

end PropertyGraphQL
