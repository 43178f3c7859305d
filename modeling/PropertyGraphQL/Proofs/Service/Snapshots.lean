/-
What a step does to snapshots.

The current snapshot changes in two ways only: it is dropped, or a new one
is made and takes its place, by a call that is past the lock and then
returns it (`Step.effect`). A call comes to know a snapshot in three ways
only: it knew it before, it finds it current, or it makes it (`Step.saw`).
Whatever is to hold of all snapshots around is preserved if it holds of the
new one; the first instance is that their numbers are those of snapshots
already made (`Step.numbered`).
-/
import PropertyGraphQL.Proofs.Service.Serving

namespace PropertyGraphQL

variable {env : Outside} {settings : ContextSettings}

-- ================================================================= making

/-- From one context to the next a snapshot is made, which is the current one then. -/
structure Context.Makes (c c' : Context) (s : Snapshot) : Prop where
  current : c'.current = some s
  id : s.id = c.made
  made : c'.made = c.made + 1

/-- The answers on which a call makes a snapshot, and of what. -/
inductive Pending.Gives (settings : ContextSettings) :
    (p : Pending) → p.need.Answer → Catalog → Int → Prop
  | read {stale : Option Snapshot} {fingerprint : Int} {document : String} {catalog : Catalog}
      (h : Catalog.parse document = .ok catalog) :
      Gives settings (.loading stale fingerprint) (.ok (some document)) catalog fingerprint
  | bare {stale : Option Snapshot} {fingerprint : Int} (h : settings.samples = false) :
      Gives settings (.loading stale fingerprint) (.ok none) .empty fingerprint
  | inferred {stale : Option Snapshot} {fingerprint : Int} {samples : List LabelSample}
      {catalog : Catalog} (h : Catalog.ofSamples samples = .ok catalog) :
      Gives settings (.sampling stale fingerprint) (.ok samples) catalog fingerprint
  | confirmed {catalog : Catalog} {fingerprint : Int} :
      Gives settings (.confirming catalog) (.ok fingerprint) catalog fingerprint

/-- A call that makes a snapshot is past the lock. -/
theorem Pending.Gives.holdsLock {p : Pending} {answer : p.need.Answer} {catalog : Catalog}
    {fingerprint : Int} (h : p.Gives settings answer catalog fingerprint) : p.holdsLock = true := by
  cases h with
  | read | bare | inferred | confirmed => rfl

/-- What becomes of the current snapshot while a waiting call takes a step. -/
inductive Resumed.Effect (settings : ContextSettings) (c : Context) (p : Pending)
    (answer : p.need.Answer) (next : Context × Task) : Prop
  | kept (hcurrent : next.1.current = c.current) (hmade : next.1.made = c.made)
  | dropped (hp : p = .erasing) (hcurrent : next.1.current = none) (hmade : next.1.made = c.made)
  | made {catalog : Catalog} {fingerprint : Int} {s : Snapshot}
      (hgives : p.Gives settings answer catalog fingerprint)
      (hs : s = ⟨c.made, ⟨catalog, settings.options⟩, fingerprint⟩)
      (hmakes : c.Makes next.1 s) (hreturned : next.2 = .finished (.served s))

/-- What a call does on an answer is one of the few things a call can do. -/
theorem Resumed.effect {now : Nat} {c : Context} {p : Pending} {answer : p.need.Answer}
    {next : Context × Task} (h : Resumed settings now c p answer next) :
    Effect settings c p answer next := by
  cases h with
  | alike | outdated | unseen | overtaken | building | fingerprinted | sampling =>
    exact .kept rfl rfl
  | unreadable | replacing | saved | unsaved | unconfirmed | deleting | unerased =>
    exact .kept rfl rfl
  | @abandoned _ _ stale => cases stale <;> exact .kept rfl rfl
  | erased => exact .dropped rfl rfl rfl
  | read hparse => exact .made (.read hparse) rfl ⟨rfl, rfl, rfl⟩ rfl
  | bare hsamples => exact .made (.bare hsamples) rfl ⟨rfl, rfl, rfl⟩ rfl
  | inferred hsamples => exact .made (.inferred hsamples) rfl ⟨rfl, rfl, rfl⟩ rfl
  | confirmed => exact .made .confirmed rfl ⟨rfl, rfl, rfl⟩ rfl

/-- Beginning makes nothing. -/
theorem Started.made_eq {now : Nat} {c : Context} {call : Call} {next : Context × Task}
    (h : Started settings now c call next) : next.1.made = c.made := by
  cases h with
  | missing | due | recent | replace | delete => rfl

/-- Whether the current snapshot is dropped. -/
def Event.drops : Event → Bool
  | reset => true
  | resume _ .erasing => true
  | pass | start _ | resume .. => false

/-- Whether a call waits in order to get a snapshot. -/
def Pending.forSnapshot : Pending → Bool
  | comparing _ | building _ | fingerprinting _ | loading .. | sampling .. => true
  | replacing _ | saving .. | confirming _ | deleting | erasing => false

/-- Whether nothing happens but calls for snapshots. -/
def Event.forSnapshot : Event → Bool
  | pass => true
  | reset => false
  | start call => call = .snapshot
  | resume _ p => p.forSnapshot

/-- Events of calls for snapshots drop no snapshot. -/
theorem Event.not_drops {event : Event} (h : event.forSnapshot = true) :
    event.drops = false := by
  cases event with
  | pass | start => rfl
  | reset => cases h
  | resume i p =>
    cases p with
    | erasing => cases h
    | _ => rfl

/-- What becomes of the current snapshot in a step. -/
inductive Step.Effect (env : Outside) (settings : ContextSettings) (w w' : World env.State)
    (event : Event) : Prop
  | kept (hcurrent : w'.context.current = w.context.current)
      (hmade : w'.context.made = w.context.made)
  | dropped (hevent : event.drops = true) (hcurrent : w'.context.current = none)
      (hmade : w'.context.made = w.context.made)
  | made {i : Nat} {call : Call} {p : Pending} {answer : p.need.Answer} {catalog : Catalog}
      {fingerprint : Int} {s : Snapshot} (hevent : event = .resume i p)
      (hcall : w.calls[i]? = some (call, .waiting p))
      (hanswer : env.Answers w.outside p.need answer w'.outside)
      (hgives : p.Gives settings answer catalog fingerprint)
      (hs : s = ⟨w.context.made, ⟨catalog, settings.options⟩, fingerprint⟩)
      (hmakes : w.context.Makes w'.context s)
      (hreturned : w'.calls[i]? = some (call, .finished (.served s)))

/-- What a step does to the snapshot is one of the few things a step can do. -/
theorem Step.effect {w w' : World env.State} {event : Event}
    (hstep : Step env settings w event w') : Effect env settings w w' event := by
  cases hstep with
  | pass => exact .kept rfl rfl
  | reset => exact .dropped rfl rfl rfl
  | start hstart =>
    have hstarted := hstart ▸ w.context.started ..
    exact .kept hstarted.settled.1 hstarted.made_eq
  | @resume i call p answer outside context task hcall hfree hanswer hresume =>
    have hresumed := hresume ▸ w.context.resumed settings (env.clock outside) p answer
    cases hresumed.effect with
    | kept hcurrent hmade => exact .kept hcurrent hmade
    | dropped hp hcurrent hmade =>
      subst hp
      exact .dropped rfl hcurrent hmade
    | made hgives hs hmakes hreturned =>
      refine .made rfl hcall hanswer hgives hs hmakes ?_
      rw [List.getElem?_set_self (List.getElem?_eq_some_iff.mp hcall).1]
      exact congrArg (fun task => some (call, task)) hreturned

/-- Snapshots are never fewer than they were. -/
theorem Step.Effect.made_le {w w' : World env.State} {event : Event}
    (h : Effect env settings w w' event) : w.context.made ≤ w'.context.made := by
  cases h with
  | kept _ hmade | dropped _ _ hmade => exact Nat.le_of_eq hmade.symm
  | made _ _ _ _ _ hmakes => exact hmakes.made ▸ Nat.le_succ _

/-- A snapshot that was not current and is so behind a step was made in it. -/
theorem Step.Effect.makes {w w' : World env.State} {event : Event} {s : Snapshot}
    (h : Effect env settings w w' event) (hbefore : w.context.current ≠ some s)
    (hafter : w'.context.current = some s) : w.context.Makes w'.context s := by
  cases h with
  | kept hcurrent => exact absurd (hcurrent.symm.trans hafter) hbefore
  | dropped _ hcurrent => cases hcurrent.symm.trans hafter
  | made _ _ _ _ _ hmakes =>
    cases hmakes.current.symm.trans hafter
    exact hmakes

-- ================================================================= seeing

/-- A call that goes on has seen what it saw before. -/
theorem Resumed.seen?_eq {now : Nat} {c : Context} {p p' : Pending} {answer : p.need.Answer}
    {next : Context × Task} (h : Resumed settings now c p answer next)
    (hp' : next.2 = .waiting p') : p'.seen? = p.seen? := by
  cases h with
  | outdated | building | fingerprinted | sampling | replacing | saved | deleting =>
    cases hp'
    rfl
  | alike | unseen | overtaken | unreadable => cases hp'
  | read | bare | inferred | confirmed => cases hp'
  | unsaved | unconfirmed | erased | unerased => cases hp'
  | @abandoned _ _ stale => cases stale <;> cases hp'

/-- A call that begins, if it sees a snapshot at all, sees the current one. -/
theorem Started.seen?_eq {now : Nat} {c : Context} {p : Pending} {next : Context × Task}
    (h : Started settings now c .snapshot next) (hp : next.2 = .waiting p) :
    p.seen? = c.current := by
  cases h with
  | missing hcurrent | due hcurrent =>
    cases hp
    exact hcurrent.symm
  | recent => cases hp

/-- How a call comes to know a snapshot. -/
inductive Step.Saw {σ : Type} (w w' : World σ) (j : Nat) (s : Snapshot) : Prop
  | before {call : Call} {task : Task} (h : w.calls[j]? = some (call, task))
      (hs : task.seen? = some s)
  | current (h : w.context.current = some s)
  | made (h : w.context.Makes w'.context s)

/-- A snapshot a call has seen was seen before, was current, or is made now. -/
theorem Resumed.saw {now : Nat} {c : Context} {p : Pending} {answer : p.need.Answer}
    {next : Context × Task} {s : Snapshot} (h : Resumed settings now c p answer next)
    (hs : next.2.seen? = some s) :
    p.seen? = some s ∨ c.current = some s ∨ c.Makes next.1 s := by
  cases h with
  | alike | outdated | unseen | building | fingerprinted | sampling => exact .inl hs
  | overtaken hreplacement =>
    cases hs
    exact .inr (.inl (Context.current_of_replacement? hreplacement))
  | @abandoned _ _ stale _ hfails =>
    have hseen : p.seen? = stale := by
      cases hfails <;> rfl
    cases stale with
    | none => cases hs
    | some old => exact .inl (hseen.trans hs)
  | read | bare | inferred | confirmed =>
    cases hs
    exact .inr (.inr ⟨rfl, rfl, rfl⟩)
  | unreadable | replacing | saved | unsaved | unconfirmed => cases hs
  | deleting | erased | unerased => cases hs

/-- A snapshot a call has seen behind a step is accounted for before it. -/
theorem Step.saw {w w' : World env.State} {event : Event} {j : Nat} {call : Call} {task : Task}
    {s : Snapshot} (hstep : Step env settings w event w')
    (hcall : w'.calls[j]? = some (call, task)) (hs : task.seen? = some s) : Saw w w' j s := by
  cases hstep.origin hcall with
  | kept hcall => exact .before hcall hs
  | began _ _ hstarted => exact .current (hstarted.settled.2.2 s hs)
  | resumed _ hcall _ hresumed =>
    rcases hresumed.saw hs with hbefore | hcurrent | hmakes
    · exact .before hcall hbefore
    · exact .current hcurrent
    · exact .made hmakes

-- ================================================================ numbers

/-- The snapshots around have numbers that were given already. -/
structure World.Numbered {σ : Type} (w : World σ) : Prop where
  current : ∀ s, w.context.current = some s → s.id < w.context.made
  seen : ∀ (i : Nat) (call : Call) (task : Task), w.calls[i]? = some (call, task) →
    ∀ s, task.seen? = some s → s.id < w.context.made

theorem World.numbered_fresh {σ : Type} (outside : σ) : (World.fresh outside).Numbered :=
  ⟨nofun, fun _ _ _ h => by cases h⟩

/-- A step keeps the snapshots numbered below the counter. -/
theorem Step.numbered {w w' : World env.State} {event : Event}
    (hstep : Step env settings w event w') (h : w.Numbered) : w'.Numbered where
  current s hs := by
    cases hstep.effect with
    | kept hcurrent hmade => exact hmade ▸ h.current s (hcurrent.symm.trans hs)
    | dropped _ hcurrent => cases hcurrent.symm.trans hs
    | made _ _ _ _ _ hmakes =>
      cases hmakes.current.symm.trans hs
      have hid := hmakes.id
      have hmade := hmakes.made
      omega
  seen i call task hcall s hs := by
    have hle := hstep.effect.made_le
    cases hstep.saw hcall hs with
    | before hcall hs => exact Nat.lt_of_lt_of_le (h.seen _ _ _ hcall s hs) hle
    | current hcurrent => exact Nat.lt_of_lt_of_le (h.current s hcurrent) hle
    | made hmakes =>
      have hid := hmakes.id
      have hmade := hmakes.made
      omega

/-- What is not replaced was current, if anything was. -/
theorem Context.replacement?_eq_none {c : Context} {stale : Option Snapshot} {s : Snapshot}
    (h : c.replacement? stale = none) (hcurrent : c.current = some s) :
    ∃ old, stale = some old ∧ old.id = s.id := by
  cases stale with
  | none => simp [replacement?, hcurrent] at h
  | some old => exact ⟨old, rfl, by simpa [replacement?, hcurrent] using h⟩

end PropertyGraphQL
