/-
Which snapshots survive a reset.

A reset drops the current snapshot and asks nobody. So calls that begin
behind it never return a snapshot that was made before it, and hence none
but those with numbers that were still to be given (`World.Since`). But a
call that is past the lock at the time goes on with what it has learned of
the graph by then, and makes its snapshot the current one. Such a snapshot
is served to calls that began behind the reset, though its making had begun
before: it is lost on these (`not_reset_kept`), and on these only
(`survives_reset_iff`).
-/
import PropertyGraphQL.Proofs.Service.Execution
import PropertyGraphQL.Proofs.Service.Together

namespace PropertyGraphQL

variable {env : Outside} {settings : ContextSettings}

/-- Whatever is current, and whatever is known to calls with the number `first` or
greater ones, has the number `n` or a greater one. -/
structure World.Since {σ : Type} (n first : Nat) (w : World σ) : Prop where
  made : n ≤ w.context.made
  current : ∀ s, w.context.current = some s → n ≤ s.id
  seen : ∀ (i : Nat) (call : Call) (task : Task), first ≤ i → w.calls[i]? = some (call, task) →
    ∀ s, task.seen? = some s → n ≤ s.id

/-- In no step does an older snapshot become current or known to these calls. -/
theorem Step.since {w w' : World env.State} {event : Event} {n first : Nat}
    (hstep : Step env settings w event w') (h : w.Since n first) : w'.Since n first where
  made := Nat.le_trans h.made hstep.effect.made_le
  current s hs := by
    cases hstep.effect with
    | kept hcurrent => exact h.current s (hcurrent.symm.trans hs)
    | dropped _ hcurrent => cases hcurrent.symm.trans hs
    | made _ _ _ _ _ hmakes =>
      cases hmakes.current.symm.trans hs
      exact hmakes.id ▸ h.made
  seen i call task hi hcall s hs := by
    cases hstep.saw hcall hs with
    | before hcall hs => exact h.seen _ _ _ hi hcall s hs
    | current hcurrent => exact h.current s hcurrent
    | made hmakes => exact hmakes.id ▸ h.made

/-- Behind a reset nothing is current, and no call has begun. -/
theorem Step.since_reset {w w' : World env.State} (hstep : Step env settings w .reset w') :
    w'.Since w.context.made w'.calls.length := by
  cases hstep with
  | reset =>
    refine ⟨Nat.le_refl _, nofun, fun i call task hi hcall => ?_⟩
    rw [List.getElem?_eq_none hi] at hcall
    cases hcall

namespace Execution

variable {x : Execution env settings} {r k l t : Nat} {s : Snapshot}

/-- At moment `t` a call is past the lock, stays so, and comes through with the making
of `s`. -/
def UnderWay (x : Execution env settings) (t : Nat) (s : Snapshot) : Prop :=
  ∃ m i, t ≤ m ∧ x.Builds m i s
    ∧ ∀ u, t ≤ u → u ≤ m → ∃ p, x.Waits u i p ∧ p.holdsLock = true

/-- A call that begins behind a reset returns a snapshot that was made behind it. -/
theorem made_of_serves_reset (hreset : x.event r = .reset) (hlater : r < k)
    (hserves : x.Serves k l s) : (x.world r).context.made ≤ s.id := by
  have hl := hserves.within
  have hkl := hserves.later
  have hr : r < x.length := by omega
  have hsince : (x.world l).Since (x.world r).context.made (x.world (r + 1)).calls.length := by
    have hstart := (hreset ▸ x.step r hr).since_reset
    have hrl : r + 1 ≤ l := by omega
    clear hserves hkl
    induction l, hrl using Nat.le_induction with
    | base => exact hstart
    | succ l _ ih => exact (x.step l hl).since (ih (by omega))
  obtain ⟨call, hreturned⟩ := hserves.returned
  have hle := x.length_calls_le (by omega : r + 1 ≤ k) (by omega)
  exact hsince.seen _ _ _ hle hreturned s rfl

/-- Exactly what is under way when the context is reset survives the reset: of the
snapshots whose making had begun by then, calls that begin behind the reset are served
those that were being made at that moment, and no others. -/
theorem survives_reset_iff (hreset : x.event r = .reset) (hlater : r < k)
    (hserves : x.Serves k l s) : (∃ t, t ≤ r ∧ x.UnderWay t s) ↔ x.UnderWay r s := by
  refine ⟨?_, fun h => ⟨r, Nat.le_refl _, h⟩⟩
  rintro ⟨t, htr, m, i, htm, hbuilds, hheld⟩
  by_cases hm : r ≤ m
  · exact ⟨m, i, hm, hbuilds, fun u hru hum => hheld u (by omega) hum⟩
  · -- its making was over by then, so the reset has dropped it
    have hserved := made_of_serves_reset hreset hlater hserves
    have hmakes := hbuilds.becomes.makes hbuilds.within
    have hid := hmakes.id
    have hmade := hmakes.made
    have hl := hserves.within
    have hkl := hserves.later
    have hle := x.made_le (by omega : m + 1 ≤ r) (by omega)
    omega

-- ============================================================== an instance

/-- The context is reset while a call waits for the fingerprint; the call goes on to
make its snapshot, and the next one is served it. -/
def overtaken : Execution .memory .steady where
  length := 6
  world
    | 0 => .fresh (.ofDocument none)
    | 1 => ⟨.fresh, .ofDocument none, [(.snapshot, .waiting (.building none))]⟩
    | 2 | 3 => ⟨⟨none, 0, 0, true⟩, .ofDocument none,
        [(.snapshot, .waiting (.fingerprinting none))]⟩
    | 4 => ⟨⟨none, 0, 0, true⟩, { MemoryServices.ofDocument none with fingerprintCalls := 1 },
        [(.snapshot, .waiting (.loading none 0))]⟩
    | 5 => ⟨⟨some Snapshot.bare, 0, 1, false⟩,
        { MemoryServices.ofDocument none with fingerprintCalls := 1 },
        [(.snapshot, .finished (.served Snapshot.bare))]⟩
    | _ => ⟨⟨some Snapshot.bare, 0, 1, false⟩,
        { MemoryServices.ofDocument none with fingerprintCalls := 1 },
        [(.snapshot, .finished (.served Snapshot.bare)),
          (.snapshot, .finished (.served Snapshot.bare))]⟩
  event
    | 0 | 5 => .start .snapshot
    | 1 => .resume 0 (.building none)
    | 2 => .reset
    | 3 => .resume 0 (.fingerprinting none)
    | 4 => .resume 0 (.loading none 0)
    | _ => .pass
  fresh := ⟨.ofDocument none, rfl⟩
  step k hk := by
    match k with
    | 0 | 5 => exact .start rfl
    | 1 => exact .resume rfl (fun _ => rfl) rfl rfl
    | 2 => exact .reset
    | 3 | 4 => exact .resume rfl nofun rfl rfl
    | k + 6 => omega

theorem serves_overtaken : overtaken.Serves 5 6 Snapshot.bare :=
  ⟨rfl, by decide, Nat.le_refl _, .snapshot, rfl⟩

/-- The snapshot was being built when the reset came. -/
theorem underWay_overtaken : overtaken.UnderWay 2 Snapshot.bare := by
  refine ⟨4, 0, by decide, ⟨by decide, ⟨_, ⟨_, rfl⟩, rfl⟩, ⟨_, rfl⟩, nofun, rfl⟩, ?_⟩
  intro u hu hu'
  match u with
  | 2 | 3 | 4 => exact ⟨_, ⟨_, rfl⟩, rfl⟩

theorem survives_reset_iff_overtaken :
    overtaken.event 2 = .reset ∧ overtaken.Serves 5 6 Snapshot.bare
      ∧ ((∃ t, t ≤ 2 ∧ overtaken.UnderWay t Snapshot.bare)
        ↔ overtaken.UnderWay 2 Snapshot.bare) :=
  ⟨rfl, serves_overtaken, survives_reset_iff rfl (by decide) serves_overtaken⟩

/-- So a reset is lost, even where nothing happens but resets and calls for snapshots: a
call that begins behind it is served a snapshot whose making had begun. -/
theorem not_reset_kept :
    ¬ ∀ (env : Outside) (settings : ContextSettings) (x : Execution env settings),
      (∀ k, k < x.length → x.event k = .reset ∨ (x.event k).forSnapshot = true) →
        ∀ r t k l s, x.event r = .reset → t ≤ r → x.UnderWay t s → r < k → ¬ x.Serves k l s := by
  intro hall
  refine hall _ _ overtaken (fun k hk => ?_) 2 2 5 6 .bare rfl (Nat.le_refl _)
    underWay_overtaken (by decide) serves_overtaken
  match k with
  | 0 | 1 | 3 | 4 | 5 => exact .inr rfl
  | 2 => exact .inl rfl

end Execution

end PropertyGraphQL
