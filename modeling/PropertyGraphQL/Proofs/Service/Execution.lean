/-
Runs with their moments.

What happened between two moments of a run cannot be said of its two ends.
An `Execution` keeps the worlds in between: step `k` leads from the world at
moment `k` to that at moment `k + 1`. Every run of a fresh world is one
(`Run.exists_execution`).

A call is known by its number, which is the number of calls that began
before it, so a call that begins in step `k` has as its number the number of
calls at that moment.
-/
import PropertyGraphQL.Proofs.Service.Snapshots
import Mathlib.Data.Nat.Init

namespace PropertyGraphQL

/-- A run of a fresh world, moment by moment. -/
structure Execution (env : Outside) (settings : ContextSettings) where
  /-- The number of steps. -/
  length : Nat
  world : Nat → World env.State
  event : Nat → Event
  fresh : ∃ outside, world 0 = .fresh outside
  step : ∀ k, k < length → Step env settings (world k) (event k) (world (k + 1))

variable {env : Outside} {settings : ContextSettings}

/-- Calls are not forgotten. -/
theorem Step.length_calls_le {w w' : World env.State} {event : Event}
    (hstep : Step env settings w event w') : w.calls.length ≤ w'.calls.length := by
  cases hstep with
  | pass | reset => exact Nat.le_refl _
  | start => simp
  | resume => simp

/-- A call that begins is the last one. -/
theorem Step.length_calls_start {w w' : World env.State} {call : Call}
    (hstep : Step env settings w (.start call) w') : w'.calls.length = w.calls.length + 1 := by
  cases hstep with
  | start => simp

/-- What is brought on has waited. -/
theorem Step.waiting {w w' : World env.State} {i : Nat} {p : Pending}
    (hstep : Step env settings w (.resume i p) w') :
    ∃ call, w.calls[i]? = some (call, .waiting p) := by
  cases hstep with
  | resume hcall => exact ⟨_, hcall⟩

namespace Execution

-- ============================================================== invariants

section

variable (x : Execution env settings) {k l : Nat}

/-- What holds of fresh worlds and is preserved by steps holds at every moment. -/
theorem invariant {holds : World env.State → Prop} (hfresh : ∀ outside, holds (.fresh outside))
    (hstep : ∀ {w event w'}, Step env settings w event w' → holds w → holds w')
    (hk : k ≤ x.length) : holds (x.world k) := by
  induction k with
  | zero =>
    obtain ⟨outside, hworld⟩ := x.fresh
    rw [hworld]
    exact hfresh outside
  | succ k ih => exact hstep (x.step k hk) (ih (Nat.le_of_lt hk))

theorem numbered (hk : k ≤ x.length) : (x.world k).Numbered :=
  x.invariant World.numbered_fresh Step.numbered hk

theorem heldBy (hk : k ≤ x.length) : ∃ holder, (x.world k).HeldBy holder :=
  x.invariant (fun outside => ⟨none, World.heldBy_fresh outside⟩) Step.heldBy hk

/-- Snapshots made are not taken back. -/
theorem made_le (hkl : k ≤ l) (hl : l ≤ x.length) :
    (x.world k).context.made ≤ (x.world l).context.made := by
  induction l, hkl using Nat.le_induction with
  | base => exact Nat.le_refl _
  | succ l _ ih => exact Nat.le_trans (ih (by omega)) (x.step l hl).effect.made_le

/-- Calls are never forgotten. -/
theorem length_calls_le (hkl : k ≤ l) (hl : l ≤ x.length) :
    (x.world k).calls.length ≤ (x.world l).calls.length := by
  induction l, hkl using Nat.le_induction with
  | base => exact Nat.le_refl _
  | succ l _ ih => exact Nat.le_trans (ih (by omega)) (x.step l hl).length_calls_le

end

-- ============================================================ what happens

section

variable (x : Execution env settings)

/-- In step `k` a snapshot becomes the current one. -/
def Becomes (k : Nat) (s : Snapshot) : Prop :=
  (x.world k).context.current ≠ some s ∧ (x.world (k + 1)).context.current = some s

/-- At moment `k` the call `i` waits. -/
def Waits (k i : Nat) (p : Pending) : Prop :=
  ∃ call, (x.world k).calls[i]? = some (call, .waiting p)

/-- By moment `k` the call `i` has returned a snapshot. -/
def Returned (k i : Nat) (s : Snapshot) : Prop :=
  ∃ call, (x.world k).calls[i]? = some (call, .finished (.served s))

/-- In step `k` the call `i`, which is past the lock, is through with the making of a
snapshot: it returns it, and makes it the current one. -/
structure Builds (k i : Nat) (s : Snapshot) : Prop where
  within : k < x.length
  held : ∃ p, x.Waits k i p ∧ p.holdsLock = true
  returned : x.Returned (k + 1) i s
  becomes : x.Becomes k s

/-- A call for a snapshot that began in step `k` has returned it by moment `l`. -/
structure Serves (k l : Nat) (s : Snapshot) : Prop where
  began : x.event k = .start .snapshot
  later : k < l
  within : l ≤ x.length
  returned : x.Returned l (x.world k).calls.length s

end

section

variable {x : Execution env settings} {k l i : Nat} {s : Snapshot}

theorem Becomes.makes (h : x.Becomes k s) (hk : k < x.length) :
    (x.world k).context.Makes (x.world (k + 1)).context s :=
  (x.step k hk).effect.makes h.1 h.2

/-- A snapshot that is made was not the current one, for it has a new number. -/
theorem becomes_of_makes (hk : k < x.length)
    (h : (x.world k).context.Makes (x.world (k + 1)).context s) : x.Becomes k s := by
  refine ⟨fun hcurrent => ?_, h.current⟩
  have hlt := (x.numbered (Nat.le_of_lt hk)).current s hcurrent
  have hid := h.id
  omega

/-- What is current and was not so before became so in between. -/
theorem exists_becomes (hkl : k ≤ l) (hk : (x.world k).context.current ≠ some s)
    (hl : (x.world l).context.current = some s) : ∃ m, k ≤ m ∧ m < l ∧ x.Becomes m s := by
  induction l, hkl using Nat.le_induction with
  | base => exact absurd hl hk
  | succ l hkl ih =>
    by_cases hbefore : (x.world l).context.current = some s
    · obtain ⟨m, hkm, hml, hm⟩ := ih hbefore
      exact ⟨m, hkm, by omega, hm⟩
    · exact ⟨l, hkl, by omega, hbefore, hl⟩

/-- Only a step of a call that is past the lock makes a snapshot the current one. -/
theorem exists_builds (hk : k < x.length) (h : x.Becomes k s) :
    ∃ i p, x.event k = .resume i p ∧ x.Builds k i s := by
  have hmakes := h.makes hk
  cases (x.step k hk).effect with
  | kept _ hmade | dropped _ _ hmade =>
    have hnew := hmakes.made
    omega
  | @made i call p _ _ _ t hevent hcall _ hgives _ ht hreturned =>
    cases hmakes.current.symm.trans ht.current
    exact ⟨i, p, hevent, hk, ⟨p, ⟨call, hcall⟩, hgives.holdsLock⟩, ⟨call, hreturned⟩, h⟩

end

-- ================================================================ building up

/-- The execution in which nothing has happened. -/
def begin (env : Outside) (settings : ContextSettings) (outside : env.State) :
    Execution env settings where
  length := 0
  world _ := .fresh outside
  event _ := .pass
  fresh := ⟨outside, rfl⟩
  step _ hk := absurd hk (Nat.not_lt_zero _)

/-- One step more. -/
def extend (x : Execution env settings) {event : Event} {w : World env.State}
    (hstep : Step env settings (x.world x.length) event w) : Execution env settings where
  length := x.length + 1
  world k := if k ≤ x.length then x.world k else w
  event k := if k < x.length then x.event k else event
  fresh := x.fresh
  step k hk := by
    by_cases hbefore : k < x.length
    · rw [if_pos (Nat.le_of_lt hbefore), if_pos hbefore, if_pos (by omega)]
      exact x.step k hbefore
    · have hlast : k = x.length := by omega
      subst hlast
      rw [if_pos (Nat.le_refl _), if_neg hbefore, if_neg (by omega)]
      exact hstep

end Execution

/-- Every run is one of an execution. -/
theorem Run.exists_execution {outside : env.State} {events : List Event} {w : World env.State}
    (hrun : Run env settings (.fresh outside) events w) :
    ∃ x : Execution env settings, x.length = events.length ∧ x.world x.length = w := by
  suffices hafter : ∀ {w w' : World env.State} {events : List Event},
      Run env settings w events w' → ∀ x : Execution env settings, x.world x.length = w →
      ∃ y : Execution env settings, y.length = x.length + events.length
        ∧ y.world y.length = w' by
    obtain ⟨x, hlength, hworld⟩ := hafter hrun (.begin env settings outside) rfl
    exact ⟨x, hlength.trans (Nat.zero_add _), hworld⟩
  intro w w' events hrun
  induction hrun with
  | nil => exact fun x hx => ⟨x, rfl, hx⟩
  | @cons w w₁ w₂ event events hstep _ ih =>
    intro x hx
    subst hx
    obtain ⟨y, hlength, hworld⟩ := ih (x.extend hstep) (if_neg (Nat.not_succ_le_self _))
    refine ⟨y, ?_, hworld⟩
    rw [hlength, List.length_cons]
    show x.length + 1 + events.length = x.length + (events.length + 1)
    omega

-- ============================================================= an instance

/-- The snapshot of a graph of which nothing is known. -/
def Snapshot.bare : Snapshot := ⟨0, ⟨.empty, ContextSettings.steady.options⟩, 0⟩

end PropertyGraphQL
