/-
What runs is a run of a world.

`Task.run` takes a call to its end, and `Context.runTogether` lets calls
take turns; both ask services in memory. Each of their steps is a step of
the world with the same context, the same services and the same calls, so
what holds of every run of a world holds of what they come to. For calls in
turns this needs nothing (`Context.runs_runTogether`): a call whose lock is
held loses its turn. A call that runs alone never looks at the lock. It finds
it free because it holds it itself exactly while it is past it
(`Context.runs_run`).
-/
import PropertyGraphQL.Proofs.Service.Step
import PropertyGraphQL.Service.Memory

namespace PropertyGraphQL

open MemoryServices

/-- Services in memory, of which all but the document may change between steps. -/
def Outside.memory : Outside where
  State := MemoryServices
  clock := MemoryServices.time
  Answers s need answer s' := s.answer need = (answer, s')
  Changes s s' := s'.document = s.document

/-- Some steps lead from one world to another. -/
def World.Runs (settings : ContextSettings) (w w' : World MemoryServices) : Prop :=
  ∃ events, Run .memory settings w events w'

namespace World.Runs

variable {settings : ContextSettings} {w w' w'' : World MemoryServices} {event : Event}

theorem refl (w : World MemoryServices) : w.Runs settings w := ⟨[], .nil⟩

/-- A step before a run makes a run. -/
theorem head (hstep : Step .memory settings w event w') (h : w'.Runs settings w'') :
    w.Runs settings w'' := by
  obtain ⟨events, hrun⟩ := h
  exact ⟨event :: events, .cons hstep hrun⟩

/-- Runs one after another are a run. -/
theorem trans (h : w.Runs settings w') (h' : w'.Runs settings w'') : w.Runs settings w'' := by
  obtain ⟨events, hrun⟩ := h
  obtain ⟨events', hrun'⟩ := h'
  exact ⟨events ++ events', hrun.append hrun'⟩

end World.Runs

-- ================================================================== one call

/-- A call among others, with what it is run against. -/
def World.around (before rest : List (Call × Task)) (call : Call)
    (r : (Context × Task) × MemoryServices) : World MemoryServices :=
  ⟨r.1.1, r.2, before ++ (call, r.1.2) :: rest⟩

section

variable {settings : ContextSettings} {c : Context} {s : MemoryServices}
  {before rest : List (Call × Task)} {call : Call}

/-- A call among others takes its next step. -/
theorem Step.around {after : MemoryServices} {next : Context × Task} {p : Pending}
    {answer : p.need.Answer} (hfree : p.need = .lock → c.locked = false)
    (hanswer : s.answer p.need = (answer, after))
    (hresume : c.resume settings after.time p answer = next) :
    Step .memory settings (.around before rest call ((c, .waiting p), s))
      (.resume before.length p) (.around before rest call (next, after)) := by
  obtain ⟨context, task⟩ := next
  have hcall : (before ++ (call, Task.waiting p) :: rest)[before.length]?
      = some (call, .waiting p) := by
    simp
  have hset : (before ++ (call, Task.waiting p) :: rest).set before.length (call, task)
      = before ++ (call, task) :: rest := by
    simp
  have hstep : Step .memory settings (.around before rest call ((c, .waiting p), s))
      (.resume before.length p)
      ⟨context, after, (before ++ (call, .waiting p) :: rest).set before.length (call, task)⟩ :=
    .resume hcall hfree hanswer hresume
  rw [hset] at hstep
  exact hstep

/-- Until it loses its turn, a call takes steps. -/
theorem World.runs_advance (task : Task) :
    (World.around before rest call ((c, task), s)).Runs settings
      (.around before rest call ((task.advance services settings c).run s)) := by
  induction c, task using Task.advance.induct settings generalizing s with
  | case1 c outcome =>
    rw [Task.advance]
    exact .refl _
  | case2 c p hends =>
    rw [Task.advance, if_pos hends]
    exact .refl _
  | case3 c p hends ih =>
    have hfree : p.need = .lock → c.locked = false := by
      intro hneed
      rw [hneed] at hends
      exact (Bool.not_eq_true _).mp hends
    rw [Task.advance, if_neg hends]
    exact .head (.around hfree rfl rfl) (ih _ _)

/-- A turn of a call is made of steps. -/
theorem World.runs_turn (task : Task) :
    (World.around before rest call ((c, task), s)).Runs settings
      (.around before rest call ((task.turn services settings c).run s)) := by
  cases task with
  | finished outcome => exact .refl _
  | waiting p =>
    rw [Task.turn]
    split
    · exact runs_advance _
    · next hneed =>
      exact .head (.around (fun h => absurd h hneed) rfl rfl) (runs_advance _)

/-- A call that holds the lock exactly while it is past it goes to its end in steps. -/
theorem World.runs_run (task : Task) (hlocked : c.locked = task.holdsLock) :
    (World.around before rest call ((c, task), s)).Runs settings
      (.around before rest call
        ((((task.run services settings c).run s).1.1,
            .finished ((task.run services settings c).run s).1.2),
          ((task.run services settings c).run s).2)) := by
  induction c, task using Task.run.induct settings generalizing s with
  | case1 c outcome =>
    rw [Task.run]
    exact .refl _
  | case2 c p ih =>
    have hfree : p.need = .lock → c.locked = false := by
      intro hneed
      rw [hlocked]
      cases p with
      | building | replacing | deleting => rfl
      | _ => cases hneed
    have hnext := (c.resumed settings (s.answer p.need).2.time p (s.answer p.need).1).locked
      fun hp => hlocked.trans hp
    rw [hlocked, Task.holdsLock, Bool.and_not_self, Bool.or_false] at hnext
    rw [Task.run]
    exact .head (.around hfree rfl rfl) (ih _ _ hnext)

end

-- =================================================================== many calls

/-- Calls behind others, with what they are run against. -/
def World.behind (before : List (Call × Task)) (calls : List Call)
    (r : (Context × List Task) × MemoryServices) : World MemoryServices :=
  ⟨r.1.1, r.2, before ++ calls.zip r.1.2⟩

section

variable {settings : ContextSettings}

/-- The call in the middle may be counted to those that are through. -/
theorem World.around_eq_behind (before : List (Call × Task)) (call : Call) (calls : List Call)
    (tasks : List Task) (r : (Context × Task) × MemoryServices) :
    World.around before (calls.zip tasks) call r
      = World.behind (before ++ [(call, r.1.2)]) calls ((r.1.1, tasks), r.2) := by
  simp only [around, behind, List.append_assoc, List.cons_append, List.nil_append]

/-- The last of the calls that are through may be counted to the others. -/
theorem World.behind_append (before : List (Call × Task)) (call : Call) (calls : List Call)
    (task : Task) (r : (Context × List Task) × MemoryServices) :
    World.behind (before ++ [(call, task)]) calls r
      = World.behind before (call :: calls) ((r.1.1, task :: r.1.2), r.2) := by
  simp only [behind, List.zip_cons_cons, List.append_assoc, List.cons_append, List.nil_append]

/-- A turn of every call is made of steps. -/
theorem World.runs_turns (settings : ContextSettings) {tasks : List Task} {calls : List Call}
    (hlength : tasks.length = calls.length) (before : List (Call × Task)) (c : Context)
    (s : MemoryServices) :
    (World.behind before calls ((c, tasks), s)).Runs settings
        (.behind before calls ((Task.turns services settings c tasks).run s))
      ∧ ((Task.turns services settings c tasks).run s).1.2.length = calls.length := by
  induction tasks generalizing calls before c s with
  | nil => exact ⟨.refl _, hlength⟩
  | cons task tasks ih =>
    obtain _ | ⟨call, calls⟩ := calls
    · cases hlength
    · let first := (task.turn services settings c).run s
      have hfirst : (World.around before (calls.zip tasks) call ((c, task), s)).Runs settings
          (.around before (calls.zip tasks) call first) := runs_turn task
      obtain ⟨hothers, hcount⟩ := ih (Nat.succ.inj hlength) (before ++ [(call, first.1.2)])
        first.1.1 first.2
      rw [around_eq_behind before call calls tasks first] at hfirst
      have hboth := hfirst.trans hothers
      rw [behind_append] at hboth
      exact ⟨hboth, congrArg Nat.succ hcount⟩

/-- Rounds of turns are made of steps. -/
theorem World.runs_rounds {tasks : List Task} {calls : List Call}
    (hlength : tasks.length = calls.length) (before : List (Call × Task)) (c : Context)
    (s : MemoryServices) :
    (World.behind before calls ((c, tasks), s)).Runs settings
      (.behind before calls ((Task.rounds services settings c tasks).run s)) := by
  induction c, tasks using Task.rounds.induct generalizing s with
  | case1 c tasks ih =>
    let after := (Task.turns services settings c tasks).run s
    obtain ⟨hturns, hcount⟩ := runs_turns settings hlength before c s
    rw [Task.rounds]
    show (World.behind before calls ((c, tasks), s)).Runs settings
      (.behind before calls
        ((if Task.totalRank after.1.2 < Task.totalRank tasks then
            Task.rounds services settings after.1.1 after.1.2
          else pure after.1).run after.2))
    split
    · next hless => exact hturns.trans (ih _ _ hless hcount _)
    · exact hturns

/-- Calls that begin one after the other take steps. -/
theorem World.runs_launch (settings : ContextSettings) (calls : List Call)
    (before : List (Call × Task)) (c : Context) (s : MemoryServices) :
    (World.mk c s before).Runs settings
        (.behind before calls ((c.launch services settings calls).run s))
      ∧ ((c.launch services settings calls).run s).1.2.length = calls.length := by
  induction calls generalizing before c s with
  | nil =>
    have hnone : World.behind before [] ((c, []), s) = ⟨c, s, before⟩ := by
      simp only [behind, List.zip_nil_left, List.append_nil]
    exact ⟨hnone ▸ .refl _, rfl⟩
  | cons call calls ih =>
    let begun := c.start settings s.time call
    have hbegun : Step .memory settings ⟨c, s, before⟩ (.start call)
        (.around before [] call (begun, s)) := .start rfl
    let first := (begun.2.advance services settings begun.1).run s
    have hfirst : (World.around before [] call (begun, s)).Runs settings
        (.around before [] call first) := runs_advance _
    obtain ⟨hothers, hcount⟩ := ih (before ++ [(call, first.1.2)]) first.1.1 first.2
    have hall := (hfirst.head hbegun).trans hothers
    rw [behind_append] at hall
    exact ⟨hall, congrArg Nat.succ hcount⟩

/-- Calls that run at the same time are run by a world, one step after the other. -/
theorem Context.runs_runTogether (settings : ContextSettings) (calls : List Call) (c : Context)
    (s : MemoryServices) :
    (World.mk c s []).Runs settings
      (.behind [] calls ((c.runTogether services settings calls).run s)) := by
  obtain ⟨hlaunch, hcount⟩ := World.runs_launch settings calls [] c s
  exact hlaunch.trans (World.runs_rounds hcount _ _ _)

/-- So, when calls have run at the same time, the lock is taken exactly if one of them
is left past it, and one only. -/
theorem Context.heldBy_runTogether (calls : List Call) (s : MemoryServices) :
    ∃ holder,
      (World.behind [] calls
        ((fresh.runTogether services settings calls).run s)).HeldBy holder := by
  obtain ⟨events, hrun⟩ := runs_runTogether settings calls fresh s
  exact Run.heldBy hrun

/-- A call that runs alone is run by a world, if no lock is held when it begins. -/
theorem Context.runs_run (call : Call) (c : Context) (s : MemoryServices)
    (hfree : c.locked = false) :
    (World.mk c s []).Runs settings
      ⟨((c.run services settings call).run s).1.1, ((c.run services settings call).run s).2,
        [(call, .finished ((c.run services settings call).run s).1.2)]⟩ := by
  let begun := c.start settings s.time call
  have hbegun : Step .memory settings ⟨c, s, []⟩ (.start call)
      (.around [] [] call (begun, s)) := .start rfl
  obtain ⟨hlocked, htask⟩ := (c.started settings s.time call).locked
  exact .head hbegun (World.runs_run begun.2 (hlocked.trans (hfree.trans htask.symm)))

end

end PropertyGraphQL
