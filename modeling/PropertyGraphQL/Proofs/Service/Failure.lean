/-
What a service says about its failure changes nothing.

Let the same happen in two runs, step by step, and let the same be answered
to the same questions, except that where a service fails it says something
else (`RunPair`). Then the contexts are the same at every step, and so are
the calls, up to what services have said, which stays in the errors that
calls have ended with (`RunPair.sameRedacted`). No branch is taken on an
error, so it is enough to look at one step (`Context.sameStep_resume`).

That the two are asked the same is not assumed but follows: answers have to
agree only as long as the questions do (`Exchange.Agrees`), and only that
the same call is brought on is asked of the events (`Event.Alike`).
-/
import PropertyGraphQL.Proofs.Schema.Places
import PropertyGraphQL.Proofs.Service.Step
import PropertyGraphQL.Result.Row

namespace PropertyGraphQL

-- =============================================================== redaction

/-- An error without what a service says about its failure. -/
def ServiceError.redacted : ServiceError → ServiceError
  | .database _ => .database (.connection "")
  | .store _ => .store ⟨""⟩
  | e => e

/-- Whoever made the request is told nothing that is left out. -/
theorem ServiceError.publicMessage_redacted (e : ServiceError) :
    e.redacted.publicMessage = e.publicMessage := by
  cases e <;> rfl

theorem ServiceError.publicMessage_eq {e e' : ServiceError} (h : e.redacted = e'.redacted) :
    e.publicMessage = e'.publicMessage := by
  rw [← e.publicMessage_redacted, h, e'.publicMessage_redacted]

def Outcome.redacted : Outcome → Outcome
  | .failed e => .failed e.redacted
  | outcome => outcome

/-- Outcomes can differ in their errors only. -/
theorem Outcome.eq_or_failed {x y : Outcome} (h : x.redacted = y.redacted) :
    x = y ∨ ∃ e e', x = .failed e ∧ y = .failed e' ∧ e.redacted = e'.redacted := by
  cases x with
  | served s =>
    cases y with
    | served s' => exact .inl h
    | failed e | deleted => cases h
  | failed e =>
    cases y with
    | served s | deleted => cases h
    | failed e' => exact .inr ⟨e, e', rfl, rfl, Outcome.failed.inj h⟩
  | deleted =>
    cases y with
    | served s | failed e => cases h
    | deleted => exact .inl rfl

def Task.redacted : Task → Task
  | .finished outcome => .finished outcome.redacted
  | .waiting p => .waiting p

/-- What a call waits for shows nothing that is left out. -/
theorem Task.eq_waiting {task : Task} {p : Pending}
    (h : (Task.waiting p).redacted = task.redacted) : task = .waiting p := by
  cases task with
  | finished outcome => cases h
  | waiting p' =>
    cases h
    rfl

-- =============================================================== exchanges

/-- Results that are the same unless they are failures. -/
theorem SameSuccess.eq_or_error {ε α : Type} {x y : Except ε α} (h : SameSuccess x y) :
    x = y ∨ ∃ e e', x = .error e ∧ y = .error e' := by
  cases x with
  | ok a =>
    cases y with
    | ok b =>
      cases h
      exact .inl rfl
    | error e => cases h
  | error e =>
    cases y with
    | ok b => cases h
    | error e' => exact .inr ⟨e, e', rfl, rfl⟩

/-- Two answers that are the same unless they are failures. -/
def Need.SameAnswer : (need : Need) → need.Answer → need.Answer → Prop
  | .lock, _, _ => True
  | .fingerprint, a, b => SameSuccess a b
  | .load, a, b => SameSuccess a b
  | .save _, a, b => SameSuccess a b
  | .delete, a, b => SameSuccess a b
  | .sample _, a, b => SameSuccess a b

/-- An answer is the same as itself. -/
theorem Need.SameAnswer.refl (need : Need) (a : need.Answer) : need.SameAnswer a a := by
  cases need with
  | lock => exact trivial
  | fingerprint | load | save | delete | sample => exact SameSuccess.refl a

/-- A question to what is outside, and the answer to it. -/
inductive Exchange where
  | time (now : Nat)
  | answered (need : Need) (answer : need.Answer)
  | executed (statement : String) (parameters : Dict Json)
      (result : Except DatabaseError (List Row))

/-- If the questions are the same, so are the answers, unless both are failures. -/
def Exchange.Agrees : Exchange → Exchange → Prop
  | .time now, .time now' => now = now'
  | .answered need a, .answered need' b => ∀ h : need = need', need.SameAnswer a (h ▸ b)
  | .executed statement parameters x, .executed statement' parameters' y =>
      statement = statement' → parameters = parameters' → SameSuccess x y
  | _, _ => True

/-- An exchange agrees with itself. -/
theorem Exchange.Agrees.refl (x : Exchange) : x.Agrees x := by
  cases x with
  | time now => exact rfl
  | answered need a => exact fun _ => .refl need a
  | executed statement parameters result => exact fun _ _ => .refl result

-- ================================================================ one step

namespace Context

variable (settings : ContextSettings) (now : Nat) (c : Context)

/-- Two results of a step that differ in nothing but what services have said. -/
def SameStep (x y : Context × Task) : Prop := x.1 = y.1 ∧ x.2.redacted = y.2.redacted

theorem sameStep_fail {e e' : ServiceError} (h : e.redacted = e'.redacted) :
    SameStep (c.fail e) (c.fail e') :=
  ⟨rfl, congrArg (Task.finished ∘ Outcome.failed) h⟩

/-- To give up of errors that differ in what is hidden is the same. -/
theorem sameStep_abandon (stale : Option Snapshot) {e e' : ServiceError}
    (h : e.redacted = e'.redacted) : SameStep (c.abandon stale e) (c.abandon stale e') := by
  cases stale with
  | some s => exact ⟨rfl, rfl⟩
  | none => exact c.sameStep_fail h

/-- A call goes on alike with answers that are the same unless they are failures. -/
theorem sameStep_resume (p : Pending) {a b : p.need.Answer} (h : p.need.SameAnswer a b) :
    SameStep (c.resume settings now p a) (c.resume settings now p b) := by
  cases p with
  | building | replacing | deleting => exact ⟨rfl, rfl⟩
  | comparing seen =>
    obtain rfl | ⟨e, e', rfl, rfl⟩ := SameSuccess.eq_or_error h
    · exact ⟨rfl, rfl⟩
    · exact ⟨rfl, rfl⟩
  | fingerprinting stale | loading stale | sampling stale =>
    obtain rfl | ⟨e, e', rfl, rfl⟩ := SameSuccess.eq_or_error h
    · exact ⟨rfl, rfl⟩
    · exact c.sameStep_abandon stale rfl
  | saving | confirming | erasing =>
    obtain rfl | ⟨e, e', rfl, rfl⟩ := SameSuccess.eq_or_error h
    · exact ⟨rfl, rfl⟩
    · exact c.sameStep_fail rfl

end Context

-- ================================================================== two runs

/-- What is outside, if it has no other answer than this one. -/
def Outside.only (env : Outside) (x : Exchange) : Outside :=
  { env with
    Answers := fun s need answer s' =>
      env.Answers s need answer s' ∧ x = .answered need answer }

/-- A step in restricted surroundings is one in the surroundings. -/
theorem Step.of_only {env : Outside} {x : Exchange} {settings : ContextSettings}
    {w w' : World (env.only x).State} {event : Event}
    (hstep : Step (env.only x) settings w event w') : Step env settings w event w' := by
  cases hstep with
  | pass hchange => exact .pass hchange
  | reset => exact .reset
  | start hstart => exact .start hstart
  | resume hcall hfree hanswer hresume => exact .resume hcall hfree hanswer.1 hresume

/-- There is one answer at most in a step. -/
theorem Step.exists_only {env : Outside} {settings : ContextSettings} {w w' : World env.State}
    {event : Event} (hstep : Step env settings w event w') :
    ∃ x, Step (env.only x) settings w event w' := by
  cases hstep with
  | pass hchange => exact ⟨.time 0, .pass hchange⟩
  | reset => exact ⟨.time 0, .reset⟩
  | start hstart => exact ⟨.time 0, .start hstart⟩
  | resume hcall hfree hanswer hresume =>
    exact ⟨.answered _ _, .resume hcall hfree ⟨hanswer, rfl⟩ hresume⟩

/-- The same event, whatever is waited for. -/
def Event.Alike : Event → Event → Prop
  | .resume i _, .resume j _ => i = j
  | event, event' => event = event'

theorem Event.Alike.refl (event : Event) : event.Alike event := by
  cases event with
  | pass | reset | start | resume => exact rfl

/-- The same step of two worlds, at the same time, with answers that agree. -/
inductive StepPair (env env' : Outside) (settings : ContextSettings) (w : World env.State)
    (v : World env'.State) (w' : World env.State) (v' : World env'.State) : Prop
  | intro {x y : Exchange} {event event' : Event} (agrees : x.Agrees y)
      (alike : event.Alike event')
      (left : Step (env.only x) settings w event w')
      (right : Step (env'.only y) settings v event' v')
      (clock : env.clock w.outside = env'.clock v.outside)
      (clock' : env.clock w'.outside = env'.clock v'.outside)

/-- Two runs in which the same happens, except for what services say where they fail. -/
inductive RunPair (env env' : Outside) (settings : ContextSettings) :
    World env.State → World env'.State → World env.State → World env'.State → Prop
  | nil {w : World env.State} {v : World env'.State} : RunPair env env' settings w v w v
  | cons {w w' w'' : World env.State} {v v' v'' : World env'.State}
      (hstep : StepPair env env' settings w v w' v')
      (hrun : RunPair env env' settings w' v' w'' v'') :
      RunPair env env' settings w v w'' v''

/-- Each of the two is a run. -/
theorem RunPair.runs {env env' : Outside} {settings : ContextSettings} {w w' : World env.State}
    {v v' : World env'.State} (hrun : RunPair env env' settings w v w' v') :
    (∃ events, Run env settings w events w') ∧ ∃ events, Run env' settings v events v' := by
  induction hrun with
  | nil => exact ⟨⟨[], .nil⟩, [], .nil⟩
  | cons hstep _ ih =>
    obtain ⟨-, -, left, right, -, -⟩ := hstep
    obtain ⟨⟨events, hleft⟩, events', hright⟩ := ih
    exact ⟨⟨_, .cons (Step.of_only left) hleft⟩, _, .cons (Step.of_only right) hright⟩

/-- Every run is one of two, the other of which is the same. -/
theorem Run.pair {env : Outside} {settings : ContextSettings} {w w' : World env.State}
    {events : List Event} (hrun : Run env settings w events w') :
    RunPair env env settings w w w' w' := by
  induction hrun with
  | nil => exact .nil
  | cons hstep _ ih =>
    obtain ⟨x, hone⟩ := hstep.exists_only
    exact .cons (.intro (.refl x) (.refl _) hone hone rfl rfl) ih

/-- Two worlds that differ in nothing but what is outside and what it has said. -/
structure World.SameRedacted {σ τ : Type} (w : World σ) (v : World τ) : Prop where
  context : w.context = v.context
  calls : w.calls.map (Prod.map id Task.redacted) = v.calls.map (Prod.map id Task.redacted)

variable {env env' : Outside} {settings : ContextSettings}

/-- What waits in one of them waits in the other. -/
theorem World.SameRedacted.waiting {σ τ : Type} {w : World σ} {v : World τ}
    (h : w.SameRedacted v) {i : Nat} {call : Call} {p : Pending}
    (hcall : w.calls[i]? = some (call, .waiting p)) :
    v.calls[i]? = some (call, .waiting p) := by
  have hredacted := congrArg (fun calls => calls[i]?) h.calls
  simp only [List.getElem?_map, hcall, Option.map_some] at hredacted
  obtain ⟨⟨call', task⟩, hcall', heq⟩ := Option.map_eq_some_iff.mp hredacted.symm
  obtain ⟨hcallEq, htask⟩ := Prod.mk.inj heq
  rw [hcall', show call' = call from hcallEq, Task.eq_waiting htask.symm]

/-- The same step leaves them so, if its answers are the same unless both are failures. -/
theorem Step.sameRedacted (env env' : Outside) {w w' : World env.State} {v v' : World env'.State}
    {event event' : Event} (left : Step env settings w event w')
    (right : Step env' settings v event' v') (alike : event.Alike event')
    (hclock : env.clock w.outside = env'.clock v.outside)
    (hclock' : env.clock w'.outside = env'.clock v'.outside)
    (hanswers : ∀ need a b, env.Answers w.outside need a w'.outside →
      env'.Answers v.outside need b v'.outside → need.SameAnswer a b)
    (h : w.SameRedacted v) : w'.SameRedacted v' := by
  cases left with
  | pass =>
    cases right with
    | pass => exact ⟨h.context, h.calls⟩
    | reset | start | resume => cases alike
  | reset =>
    cases right with
    | reset => exact ⟨congrArg Context.reset h.context, h.calls⟩
    | pass | start | resume => cases alike
  | start hstart =>
    cases right with
    | start hstart' =>
      cases alike
      rw [← hclock, ← h.context, hstart] at hstart'
      cases hstart'
      refine ⟨rfl, ?_⟩
      simp only [List.map_append]
      exact congrArg (· ++ _) h.calls
    | pass | reset | resume => cases alike
  | @resume i call p a outside context task hcall _ hanswer hresume =>
    cases right with
    | @resume _ call' p' b outside' context' task' hcall' _ hanswer' hresume' =>
      cases alike
      cases hcall'.symm.trans (h.waiting hcall)
      have hsame := w.context.sameStep_resume settings (env.clock outside) p
        (hanswers p.need a b hanswer hanswer')
      rw [← hclock', ← h.context] at hresume'
      rw [hresume, hresume'] at hsame
      refine ⟨hsame.1, ?_⟩
      have hcalls : Prod.map id Task.redacted (call, task)
          = Prod.map id Task.redacted (call, task') := congrArg (Prod.mk call) hsame.2
      simp only [List.map_set, hcalls]
      exact congrArg (List.set · i _) h.calls
    | pass | reset | start => cases alike

/-- Steps in lockstep keep the worlds the same but for what is hidden. -/
theorem StepPair.sameRedacted {w w' : World env.State} {v v' : World env'.State}
    (hstep : StepPair env env' settings w v w' v') (h : w.SameRedacted v) :
    w'.SameRedacted v' := by
  obtain @⟨x, y, event, event', agrees, alike, left, right, hclock, hclock'⟩ := hstep
  refine Step.sameRedacted (env.only x) (env'.only y) left right alike hclock hclock' ?_ h
  rintro need a b ⟨-, rfl⟩ ⟨-, rfl⟩
  exact agrees rfl

/-- What services say about their failures has no effect on the contexts and calls of a run,
other than on the errors that calls end with. -/
theorem RunPair.sameRedacted {w w' : World env.State} {v v' : World env'.State}
    (hrun : RunPair env env' settings w v w' v') (h : w.SameRedacted v) :
    w'.SameRedacted v' := by
  induction hrun with
  | nil => exact h
  | cons hstep _ ih => exact ih (hstep.sameRedacted h)

end PropertyGraphQL
