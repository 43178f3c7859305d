/-
Calls for a snapshot do not make the same one twice.

Calls that find the current snapshot missing or outdated all want to replace
it. They queue at the lock, and whoever is past it looks again: if what the
call has seen is no longer current, it returns what is. So while calls are
for snapshots only (`Undisturbed`), each value of the current snapshot is
replaced once, by a call that saw this value when it began, and the other
calls return what replaced it (`single_flight`).

The argument is about the numbers of snapshots. What becomes current has a
greater number than all before, and what is current is not dropped; so once
the current snapshot is another, it never again has the number that a call
saw (`Undisturbed.current_since`). While a call is past the lock, nobody else
makes a snapshot, so what it replaces is what it found there
(`Undisturbed.observed`). That a snapshot returned was current needs none of
this: it holds however the calls are disturbed (`current_of_serves`).
-/
import PropertyGraphQL.Proofs.Service.Execution
import PropertyGraphQL.Proofs.Service.Together

namespace PropertyGraphQL

variable {env : Outside} {settings : ContextSettings}

/-- A call for a snapshot that goes on behind the lock has found nothing that replaces
what it saw. -/
theorem Resumed.replacement?_eq_none {now : Nat} {c : Context} {p : Pending}
    {answer : p.need.Answer} {next : Context × Task} (h : Resumed settings now c p answer next)
    (hsnapshot : p.forSnapshot = true) (hbefore : p.holdsLock = false)
    (hafter : next.2.holdsLock = true) : c.replacement? p.seen? = none := by
  cases h with
  | building hnone => exact hnone
  | alike | outdated | unseen | overtaken => cases hafter
  | fingerprinted | sampling | read | bare | inferred => cases hbefore
  | abandoned hfails => cases hfails <;> cases hbefore
  | unreadable | replacing | saved | unsaved | confirmed | unconfirmed => cases hsnapshot
  | deleting | erased | unerased => cases hsnapshot

namespace Execution

variable {x : Execution env settings} {a b k l i : Nat} {s : Snapshot}

/-- Between two moments nothing happens but calls for snapshots: none resets the
context, and none replaces or deletes the document. -/
def Undisturbed (x : Execution env settings) (a b : Nat) : Prop :=
  ∀ k, a ≤ k → k < b → (x.event k).forSnapshot = true

-- =========================================================== what is current

/-- The current snapshot stays, or is one that was made since. -/
theorem Undisturbed.current_since (h : x.Undisturbed a b) (hb : b ≤ x.length) (hak : a ≤ k)
    (hkl : k ≤ l) (hlb : l ≤ b) :
    (x.world l).context.current = (x.world k).context.current
      ∨ ∃ s, (x.world l).context.current = some s ∧ (x.world k).context.made ≤ s.id := by
  induction l, hkl using Nat.le_induction with
  | base => exact .inl rfl
  | succ l hkl ih =>
    have hl : l < x.length := by omega
    cases (x.step l hl).effect with
    | kept hcurrent =>
      rw [hcurrent]
      exact ih (by omega)
    | dropped hevent =>
      rw [Event.not_drops (h l (by omega) hlb)] at hevent
      cases hevent
    | made _ _ _ _ _ hmakes =>
      refine .inr ⟨_, hmakes.current, ?_⟩
      rw [hmakes.id]
      exact x.made_le hkl (Nat.le_of_lt hl)

/-- What a call has replaced is not current again. -/
theorem Undisturbed.current_ne (h : x.Undisturbed a b) (hb : b ≤ x.length) (hak : a ≤ k)
    (hkl : k < l) (hlb : l ≤ b) (hbuilds : x.Builds k i s) :
    (x.world l).context.current ≠ (x.world k).context.current := by
  have hmakes := hbuilds.becomes.makes hbuilds.within
  have hid := hmakes.id
  have hmade := hmakes.made
  obtain ⟨t, ht, hle⟩ : ∃ t, (x.world l).context.current = some t
      ∧ (x.world k).context.made ≤ t.id := by
    rcases h.current_since hb (by omega : a ≤ k + 1) hkl hlb with hsame | ⟨t, ht, hle⟩
    · exact ⟨s, hsame.trans hmakes.current, by omega⟩
    · exact ⟨t, ht, by omega⟩
  intro hback
  have hlt := (x.numbered (by omega)).current t (hback.symm.trans ht)
  omega

-- ========================================================== what a call saw

/-- What a call has seen is what was current when it began; and once it is past the
lock, that is still current. -/
theorem Undisturbed.observed (h : x.Undisturbed a b) (hb : b ≤ x.length) (hak : a ≤ k)
    (hbegan : x.event k = .start .snapshot) (hkl : k < l) (hlb : l ≤ b) {p : Pending}
    (hwaits : x.Waits l (x.world k).calls.length p) :
    p.seen? = (x.world k).context.current
      ∧ (p.holdsLock = true → (x.world l).context.current = (x.world k).context.current) := by
  have hk : k < x.length := by omega
  induction l, hkl using Nat.le_induction generalizing p with
  | base =>
    obtain ⟨call, hcall⟩ := hwaits
    cases (x.step k hk).origin hcall with
    | kept hcall =>
      rw [List.getElem?_eq_none (Nat.le_refl _)] at hcall
      cases hcall
    | resumed hevent =>
      rw [hbegan] at hevent
      cases hevent
    | began _ hevent hstarted =>
      rw [hbegan] at hevent
      cases hevent
      refine ⟨hstarted.seen?_eq rfl, fun hholds => ?_⟩
      rw [show p.holdsLock = false from hstarted.locked.2] at hholds
      cases hholds
  | succ l hkl ih =>
    obtain ⟨call, hcall⟩ := hwaits
    have hl : l < x.length := by omega
    have hquiet := h l (by omega) hlb
    -- nobody drops what is current, so it changes only where a call makes a snapshot
    have hkept : (x.world (l + 1)).context.current = (x.world l).context.current
        ∨ ∃ j q, x.event l = .resume j q ∧ q.holdsLock = true ∧ x.Waits l j q
          ∧ ∃ t, x.Returned (l + 1) j t := by
      cases (x.step l hl).effect with
      | kept hcurrent => exact .inl hcurrent
      | dropped hevent =>
        rw [Event.not_drops hquiet] at hevent
        cases hevent
      | made hevent hcall _ hgives _ _ hreturned =>
        exact .inr ⟨_, _, hevent, hgives.holdsLock, ⟨_, hcall⟩, _, _, hreturned⟩
    cases (x.step l hl).origin hcall with
    | kept hbefore hevent =>
      obtain ⟨hseen, hcurrent⟩ := ih (by omega) ⟨call, hbefore⟩
      refine ⟨hseen, fun hholds => ?_⟩
      rcases hkept with hsame | ⟨j, q, hresume, hq, ⟨other, hother⟩, -⟩
      · exact hsame.trans (hcurrent hholds)
      · -- two calls would be past the lock
        obtain ⟨holder, hheld⟩ := x.heldBy (Nat.le_of_lt hl)
        have hj := hheld.eq_some hother hq
        rw [hheld.eq_some hbefore hholds] at hj
        cases hj
        exact absurd hresume (hevent q)
    | began hj =>
      have hlast := (hbegan ▸ x.step k hk).length_calls_start
      have hle := x.length_calls_le (by omega : k + 1 ≤ l) (Nat.le_of_lt hl)
      omega
    | @resumed q answer hevent hbefore _ hresumed =>
      obtain ⟨hseen, hcurrent⟩ := ih (by omega) ⟨call, hbefore⟩
      refine ⟨(hresumed.seen?_eq rfl).trans hseen, fun hholds => ?_⟩
      have hsame : (x.world (l + 1)).context.current = (x.world l).context.current := by
        rcases hkept with hsame | ⟨j, q', hevent', -, -, t, other, hreturned⟩
        · exact hsame
        · rw [hevent] at hevent'
          cases hevent'
          rw [hcall] at hreturned
          cases hreturned
      rw [hsame]
      cases hq : q.holdsLock with
      | true => exact hcurrent hq
      | false =>
        -- here the call gets the lock, and finds that nothing has replaced what it saw
        rw [hevent] at hquiet
        have hnone := hresumed.replacement?_eq_none hquiet hq hholds
        rcases h.current_since hb hak (by omega) (by omega : l ≤ b) with hsame | ⟨t, ht, hle⟩
        · exact hsame
        · obtain ⟨old, hold, hid⟩ := Context.replacement?_eq_none hnone ht
          have hlt := (x.numbered (by omega)).current old (hseen.symm.trans hold)
          omega

-- ============================================================= what is served

/-- What a call for a snapshot has seen was current when the call began, or has become
so since. -/
theorem current_of_seen {call : Call} {task : Task} (hkl : k < l) (hl : l ≤ x.length)
    (hcall : (x.world l).calls[(x.world k).calls.length]? = some (call, task))
    (hs : task.seen? = some s) :
    (x.world k).context.current = some s ∨ ∃ m, k ≤ m ∧ m < l ∧ x.Becomes m s := by
  induction l, hkl using Nat.le_induction generalizing call task with
  | base =>
    cases (x.step k hl).saw hcall hs with
    | before hcall =>
      rw [List.getElem?_eq_none (Nat.le_refl _)] at hcall
      cases hcall
    | current hcurrent => exact .inl hcurrent
    | made hmakes => exact .inr ⟨k, Nat.le_refl _, Nat.lt_succ_self _, becomes_of_makes hl hmakes⟩
  | succ l hkl ih =>
    cases (x.step l hl).saw hcall hs with
    | before hcall hs =>
      rcases ih (by omega) hcall hs with hcurrent | ⟨m, hkm, hml, hm⟩
      · exact .inl hcurrent
      · exact .inr ⟨m, hkm, by omega, hm⟩
    | current hcurrent =>
      by_cases hbefore : (x.world k).context.current = some s
      · exact .inl hbefore
      · obtain ⟨m, hkm, hml, hm⟩ := exists_becomes (by omega : k ≤ l) hbefore hcurrent
        exact .inr ⟨m, hkm, by omega, hm⟩
    | made hmakes => exact .inr ⟨l, by omega, Nat.lt_succ_self _, becomes_of_makes hl hmakes⟩

/-- What a call serves was current when it began, or became current meanwhile. -/
theorem current_of_serves (h : x.Serves k l s) :
    (x.world k).context.current = some s ∨ ∃ m, k ≤ m ∧ m < l ∧ x.Becomes m s := by
  obtain ⟨call, hreturned⟩ := h.returned
  exact current_of_seen h.later h.within hreturned rfl

/-- Making snapshots is single-flight. While nothing happens but calls for snapshots, the
current snapshot changes only where a call is through with making one; each value of it
is replaced once at most, and by a call that saw this value when it began. Every call
that returns a snapshot returns the one that was current when it began, or one that
became current before it returned. -/
theorem single_flight (x : Execution env settings) {a b : Nat} (hb : b ≤ x.length)
    (hundisturbed : x.Undisturbed a b) :
    (∀ k, a ≤ k → k < b → (x.world (k + 1)).context.current ≠ (x.world k).context.current →
        ∃ i s, x.Builds k i s)
      ∧ (∀ k l i j s t, a ≤ k → k < b → a ≤ l → l < b → x.Builds k i s → x.Builds l j t →
        (x.world k).context.current = (x.world l).context.current → k = l)
      ∧ (∀ k l s, a ≤ k → k < l → l < b → x.event k = .start .snapshot →
        x.Builds l (x.world k).calls.length s →
        (x.world l).context.current = (x.world k).context.current)
      ∧ ∀ k l s, a ≤ k → l ≤ b → x.Serves k l s →
        (x.world k).context.current = some s ∨ ∃ m, k ≤ m ∧ m < l ∧ x.Becomes m s := by
  refine ⟨fun k hak hkb hchanged => ?_, fun k l i j s t hak hkb hal hlb hk hl hsame => ?_,
    fun k l s hak hkl hlb hbegan hbuilds => ?_, fun k l s _ _ hserves => current_of_serves hserves⟩
  · have hk : k < x.length := by omega
    cases (x.step k hk).effect with
    | kept hcurrent => exact absurd hcurrent hchanged
    | dropped hevent =>
      rw [Event.not_drops (hundisturbed k hak hkb)] at hevent
      cases hevent
    | made _ _ _ _ _ hmakes =>
      obtain ⟨i, p, -, hbuilds⟩ := exists_builds hk (becomes_of_makes hk hmakes)
      exact ⟨i, _, hbuilds⟩
  -- of two builds the later one would find the snapshot of the earlier
  · rcases Nat.lt_trichotomy k l with hlt | heq | hgt
    · exact absurd hsame.symm (hundisturbed.current_ne hb hak hlt (by omega) hk)
    · exact heq
    · exact absurd hsame (hundisturbed.current_ne hb hal hgt (by omega) hl)
  · obtain ⟨p, hwaits, hholds⟩ := hbuilds.held
    exact (hundisturbed.observed hb hak hbegan hkl (by omega) hwaits).2 hholds

-- ============================================================== an instance

/-- Two calls begin without a snapshot; one of them makes it, the other waits for the
lock meanwhile. -/
def pair : Execution .memory .steady where
  length := 6
  world
    | 0 => .fresh (.ofDocument none)
    | 1 => ⟨.fresh, .ofDocument none, [(.snapshot, .waiting (.building none))]⟩
    | 2 => ⟨.fresh, .ofDocument none,
        [(.snapshot, .waiting (.building none)), (.snapshot, .waiting (.building none))]⟩
    | 3 => ⟨⟨none, 0, 0, true⟩, .ofDocument none,
        [(.snapshot, .waiting (.fingerprinting none)), (.snapshot, .waiting (.building none))]⟩
    | 4 => ⟨⟨none, 0, 0, true⟩, { MemoryServices.ofDocument none with fingerprintCalls := 1 },
        [(.snapshot, .waiting (.loading none 0)), (.snapshot, .waiting (.building none))]⟩
    | 5 => ⟨⟨some Snapshot.bare, 0, 1, false⟩,
        { MemoryServices.ofDocument none with fingerprintCalls := 1 },
        [(.snapshot, .finished (.served Snapshot.bare)), (.snapshot, .waiting (.building none))]⟩
    | _ => ⟨⟨some Snapshot.bare, 0, 1, false⟩,
        { MemoryServices.ofDocument none with fingerprintCalls := 1 },
        [(.snapshot, .finished (.served Snapshot.bare)),
          (.snapshot, .finished (.served Snapshot.bare))]⟩
  event
    | 0 | 1 => .start .snapshot
    | 2 => .resume 0 (.building none)
    | 3 => .resume 0 (.fingerprinting none)
    | 4 => .resume 0 (.loading none 0)
    | _ => .resume 1 (.building none)
  fresh := ⟨.ofDocument none, rfl⟩
  step k hk := by
    match k with
    | 0 | 1 => exact .start rfl
    | 2 | 5 => exact .resume rfl (fun _ => rfl) rfl rfl
    | 3 | 4 => exact .resume rfl nofun rfl rfl
    | k + 6 => omega

theorem single_flight_pair :
    pair.Undisturbed 0 6 ∧ pair.Builds 4 0 Snapshot.bare ∧ pair.Serves 1 6 Snapshot.bare
      ∧ ∃ m, 1 ≤ m ∧ m < 6 ∧ pair.Becomes m Snapshot.bare := by
  have hundisturbed : pair.Undisturbed 0 6 := by
    intro k _ hk
    match k with
    | 0 | 1 | 2 | 3 | 4 | 5 => rfl
  have hserves : pair.Serves 1 6 Snapshot.bare :=
    ⟨rfl, by decide, Nat.le_refl _, .snapshot, rfl⟩
  refine ⟨hundisturbed, ⟨by decide, ⟨_, ⟨_, rfl⟩, rfl⟩, ⟨_, rfl⟩, nofun, rfl⟩, hserves, ?_⟩
  obtain ⟨-, -, -, hserved⟩ := single_flight pair (Nat.le_refl _) hundisturbed
  rcases hserved 1 6 Snapshot.bare (Nat.zero_le _) (Nat.le_refl _) hserves with hcurrent | hbecomes
  · cases hcurrent
  · exact hbecomes

end Execution

end PropertyGraphQL
