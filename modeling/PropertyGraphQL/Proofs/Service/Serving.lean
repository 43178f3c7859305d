/-
The document last stored is the one that is served.

A replacement that returns a snapshot has stored its document, and holds the
lock until it has made the snapshot the current one. Behind it, and as long
as no other call that changes the document gets the lock, whatever is made
is made of that document (`Settled`): no call is past the lock that would
use anything else, and what is current shows the document or was dropped.

A call that began before may still serve what it saw then, since a snapshot
that cannot be made anew is served on. The calls that began behind the
replacement have seen nothing but the document: so the invariant speaks of
them by their numbers, and of the others not at all.

# Where the service ends

A call that waits for the lock has done nothing yet. It begins to change the
document when the lock is given to it (`Event.changesDocument`), and until then
the replacement is served (`Run.served_until_changed`). When the call began does
not count: one that was waiting already when the replacement returned gets the
lock behind it, and what it stores is served though nothing has begun since
(`Run.not_served_of_replaced`). If none was waiting, the lock is given for a
change only to a call that begins later (`Run.changesDocument_eq_false`).
-/
import PropertyGraphQL.Proofs.Service.Replacement
import PropertyGraphQL.Proofs.Service.Together

namespace PropertyGraphQL

-- ============================================================ the document

/-- Whether what is asked for changes the stored document. -/
def Need.writes : Need → Bool
  | save _ | delete => true
  | lock | fingerprint | load | sample _ => false

/-- Surroundings with a stored document: what was saved is loaded, and nobody else
writes. Whatever is asked for may fail. -/
structure Outside.KeepsDocument (env : Outside) (document : env.State → Option String) :
    Prop where
  change {s s' : env.State} : env.Changes s s' → document s' = document s
  load {s s' : env.State} {stored : Option String} :
    env.Answers s .load (.ok stored) s' → stored = document s
  save {s s' : env.State} {saved : String} :
    env.Answers s (.save saved) (.ok ()) s' → document s' = some saved
  other {s s' : env.State} {need : Need} {answer : need.Answer} (h : need.writes = false) :
    env.Answers s need answer s' → document s' = document s

variable {env : Outside} {settings : ContextSettings} {document : env.State → Option String}

/-- What writes is past the lock. -/
theorem Pending.holdsLock_of_writes {p : Pending} (h : p.need.writes = true) :
    p.holdsLock = true := by
  cases p with
  | saving | erasing => rfl
  | _ => cases h

-- ============================================================ what calls do

/-- What a call waits for is asked for its own sake: a replacement saves its own
document, and has stored it when it wants the fingerprint. -/
inductive Call.Awaits (stored : Option String) : Call → Pending → Prop
  | comparing {seen : Snapshot} : Awaits stored .snapshot (.comparing seen)
  | building {stale : Option Snapshot} : Awaits stored .snapshot (.building stale)
  | fingerprinting {stale : Option Snapshot} : Awaits stored .snapshot (.fingerprinting stale)
  | loading {stale : Option Snapshot} {fingerprint : Int} :
      Awaits stored .snapshot (.loading stale fingerprint)
  | sampling {stale : Option Snapshot} {fingerprint : Int} :
      Awaits stored .snapshot (.sampling stale fingerprint)
  | replacing {d : String} : Awaits stored (.replace d) (.replacing d)
  | saving {d : String} {catalog : Catalog} (h : Catalog.parse d = .ok catalog) :
      Awaits stored (.replace d) (.saving d catalog)
  | confirming {d : String} {catalog : Catalog} (h : Catalog.parse d = .ok catalog)
      (hstored : stored = some d) : Awaits stored (.replace d) (.confirming catalog)
  | deleting : Awaits stored .delete .deleting
  | erasing : Awaits stored .delete .erasing

namespace Call

variable {stored : Option String} {call : Call} {p : Pending}

/-- What is stored matters past the lock only. -/
theorem Awaits.of_not_holdsLock (h : call.Awaits stored p) (hp : p.holdsLock = false)
    (stored' : Option String) : call.Awaits stored' p := by
  cases h with
  | comparing => exact .comparing
  | building => exact .building
  | replacing => exact .replacing
  | deleting => exact .deleting
  | fingerprinting | loading | sampling | saving | confirming | erasing => cases hp

/-- A call that begins waits for something of its own. -/
theorem awaits_start {now : Nat} {c : Context} {task : Task} {c' : Context}
    (h : Started settings now c call (c', task)) (hp : task = .waiting p) :
    call.Awaits stored p := by
  cases h with
  | missing => cases hp; exact .building
  | due => cases hp; exact .comparing
  | recent => cases hp
  | replace => cases hp; exact .replacing
  | delete => cases hp; exact .deleting

/-- A call that goes on waits for something of its own, in the document as it is then. -/
theorem Awaits.resume (hstore : env.KeepsDocument document) {s s' : env.State} {now : Nat}
    {c : Context} {answer : p.need.Answer} {next : Context × Task}
    (h : call.Awaits (document s) p) (hanswer : env.Answers s p.need answer s')
    (hresumed : Resumed settings now c p answer next) {p' : Pending}
    (hp' : next.2 = .waiting p') : call.Awaits (document s') p' := by
  cases hresumed with
  | outdated => cases hp'; cases h; exact .building
  | building => cases hp'; cases h; exact .fingerprinting
  | fingerprinted => cases hp'; cases h; exact .loading
  | sampling => cases hp'; cases h; exact .sampling
  | replacing hparse => cases hp'; cases h; exact .saving hparse
  | saved =>
    cases hp'
    cases h with
    | saving hparse => exact .confirming hparse (hstore.save hanswer)
  | deleting => cases hp'; cases h; exact .erasing
  | alike | unseen | overtaken | unreadable => cases hp'
  | read | bare | inferred | confirmed => cases hp'
  | unsaved | unconfirmed | erased | unerased => cases hp'
  | @abandoned _ _ stale => cases stale <;> cases hp'

end Call

/-- Every waiting call awaits what it should. -/
def World.Awaits (document : env.State → Option String) (w : World env.State) : Prop :=
  ∀ (i : Nat) (call : Call) (p : Pending), w.calls[i]? = some (call, .waiting p) →
    call.Awaits (document w.outside) p

/-- Only a call that asks for it changes the document. -/
theorem Step.document_eq (hstore : env.KeepsDocument document) {w w' : World env.State}
    {event : Event} (hstep : Step env settings w event w') :
    document w'.outside = document w.outside
      ∨ ∃ i call p, event = .resume i p ∧ w.calls[i]? = some (call, .waiting p)
        ∧ p.need.writes = true := by
  cases hstep with
  | pass hchange => exact .inl (hstore.change hchange)
  | reset => exact .inl rfl
  | start => exact .inl rfl
  | @resume i call p answer outside context task hcall hfree hanswer hresume =>
    cases hwrites : p.need.writes with
    | false => exact .inl (hstore.other hwrites hanswer)
    | true => exact .inr ⟨i, call, p, rfl, hcall, hwrites⟩

/-- A step keeps it so that every call waits for something of its own. -/
theorem Step.awaits (hstore : env.KeepsDocument document) {w w' : World env.State}
    {event : Event} (hstep : Step env settings w event w')
    (h : w.Awaits document ∧ ∃ holder, w.HeldBy holder) :
    w'.Awaits document ∧ ∃ holder, w'.HeldBy holder := by
  refine ⟨fun j call q hq => ?_, hstep.heldBy h.2⟩
  obtain ⟨hawaits, holder, hheld⟩ := h
  cases hstep.origin hq with
  | began _ _ hstarted => exact Call.awaits_start hstarted rfl
  | resumed _ hcall hanswer hresumed =>
    exact (hawaits _ _ _ hcall).resume hstore hanswer hresumed rfl
  | kept hcall hevent =>
    rcases hstep.document_eq hstore with heq | ⟨i, other, p, hresume, hother, hwrites⟩
    · rw [heq]
      exact hawaits _ _ _ hcall
    · -- another call is past the lock, so this one is not
      refine (hawaits _ _ _ hcall).of_not_holdsLock ?_ _
      refine hheld.not_holdsLock hother (Pending.holdsLock_of_writes hwrites) hcall ?_
      rintro rfl
      exact hevent p hresume

/-- In every run, every waiting call awaits what it should. -/
theorem Run.awaits (hstore : env.KeepsDocument document) {outside : env.State}
    {events : List Event} {w : World env.State}
    (hrun : Run env settings (.fresh outside) events w) :
    w.Awaits document ∧ ∃ holder, w.HeldBy holder := by
  refine hrun.invariant (fun _ => True) (fun _ h hstep => hstep.awaits hstore h)
    (fun _ _ => trivial) ⟨fun i call p h => ?_, none, World.heldBy_fresh outside⟩
  cases h

-- =========================================== behind a replacement

/-- A snapshot of a document. -/
def Snapshot.Shows (document : String) (s : Snapshot) : Prop :=
  Catalog.parse document = .ok s.compiler.catalog

/-- The snapshot that a call has seen, and may end with. -/
def Pending.seen? : Pending → Option Snapshot
  | comparing seen => some seen
  | building stale | fingerprinting stale | loading stale _ | sampling stale _ => stale
  | replacing _ | saving .. | confirming _ | deleting | erasing => none

def Task.seen? : Task → Option Snapshot
  | finished (.served s) => some s
  | finished _ => none
  | waiting p => p.seen?

/-- Whether a call will use nothing but the stored document: it is neither past the
lock for another change, nor has it seen that no document is stored. -/
def Pending.usesStored : Pending → Bool
  | sampling .. | saving .. | confirming _ | erasing => false
  | comparing _ | building _ | fingerprinting _ | loading .. | replacing _ | deleting => true

def Task.usesStored : Task → Bool
  | finished _ => true
  | waiting p => p.usesStored

/-- Whether a call begins to change the document when it is brought on: it waited for
the lock with that aim. -/
def Pending.changesDocument : Pending → Bool
  | replacing _ | deleting => true
  | _ => false

/-- Whether a call begins to change the document. -/
def Event.changesDocument : Event → Bool
  | resume _ p => p.changesDocument
  | pass | reset | start _ => false

/-- A document is stored and whatever is made is made of it. Calls with smaller
numbers may have seen something else. -/
structure World.Settled (document : env.State → Option String) (d : String) (n : Nat)
    (w : World env.State) : Prop where
  stored : document w.outside = some d
  current : ∀ s, w.context.current = some s → s.Shows d
  uses : ∀ (i : Nat) (call : Call) (task : Task), w.calls[i]? = some (call, task) →
    task.usesStored = true
  seen : ∀ (i : Nat) (call : Call) (task : Task), n ≤ i → w.calls[i]? = some (call, task) →
    ∀ s, task.seen? = some s → s.Shows d

/-- A call that begins has seen the current snapshot only. -/
theorem Started.settled {now : Nat} {c : Context} {call : Call} {next : Context × Task}
    (h : Started settings now c call next) :
    next.1.current = c.current ∧ next.2.usesStored = true
      ∧ ∀ s, next.2.seen? = some s → c.current = some s := by
  cases h with
  | missing | replace | delete => exact ⟨rfl, rfl, nofun⟩
  | due hcurrent | recent hcurrent => exact ⟨rfl, rfl, fun s hs => hcurrent.trans hs⟩

theorem Context.current_of_replacement? {c : Context} {stale : Option Snapshot} {s : Snapshot}
    (h : c.replacement? stale = some s) : c.current = some s :=
  Option.eq_some_of_filter_eq_some h

/-- A call that uses what is stored goes on to use it, and ends with what it has seen,
with what is current, or with a snapshot of the stored document. -/
theorem Resumed.settled (hstore : env.KeepsDocument document) {s s' : env.State} {now : Nat}
    {c : Context} {p : Pending} {answer : p.need.Answer} {next : Context × Task} {d : String}
    (h : Resumed settings now c p answer next) (hanswer : env.Answers s p.need answer s')
    (hstored : document s = some d) (huses : p.usesStored = true)
    (hchanges : p.changesDocument = false) :
    (∀ t, next.1.current = some t → c.current = some t ∨ t.Shows d)
      ∧ next.2.usesStored = true
      ∧ ∀ t, next.2.seen? = some t → p.seen? = some t ∨ c.current = some t ∨ t.Shows d := by
  cases h with
  | alike | outdated | unseen => exact ⟨fun _ => .inl, rfl, fun _ => .inl⟩
  | overtaken hreplacement =>
    refine ⟨fun _ => .inl, rfl, fun t ht => .inr (.inl ?_)⟩
    cases ht
    exact Context.current_of_replacement? hreplacement
  | building | fingerprinted => exact ⟨fun _ => .inl, rfl, fun _ => .inl⟩
  | read hparse =>
    have hloaded := (hstore.load hanswer).trans hstored
    cases hloaded
    refine ⟨fun t ht => .inr ?_, rfl, fun t ht => .inr (.inr ?_)⟩
    · cases ht
      exact hparse
    · cases ht
      exact hparse
  -- a document is stored, so the graph is not looked at
  | sampling | bare => cases (hstore.load hanswer).trans hstored
  | @abandoned _ _ stale _ hfails =>
    -- a failed build falls back on the snapshot that the call has seen
    have hseen : p.seen? = stale := by
      cases hfails <;> rfl
    cases stale with
    | none => exact ⟨fun _ => .inl, rfl, nofun⟩
    | some old => exact ⟨fun _ => .inl, rfl, fun t ht => .inl (hseen.trans ht)⟩
  | replacing | unreadable | deleting => cases hchanges
  | inferred | saved | unsaved | confirmed | unconfirmed | erased | unerased => cases huses

/-- While nobody begins to change the document, it stays settled. -/
theorem Step.settled (hstore : env.KeepsDocument document) {w w' : World env.State}
    {event : Event} {d : String} {n : Nat} (hstep : Step env settings w event w')
    (hevent : event.changesDocument = false) (h : w.Settled document d n) :
    w'.Settled document d n where
  stored := by
    rcases hstep.document_eq hstore with heq | ⟨i, call, p, -, hcall, hwrites⟩
    · exact heq.trans h.stored
    · have huses : p.usesStored = true := h.uses _ _ _ hcall
      cases p with
      | saving | erasing => cases huses
      | _ => cases hwrites
  current := by
    cases hstep with
    | pass => exact h.current
    | reset => exact nofun
    | start hstart =>
      obtain ⟨hcurrent, -⟩ := (hstart ▸ w.context.started ..).settled
      exact fun s hs => h.current s (hcurrent.symm.trans hs)
    | @resume i call p answer outside context task hcall hfree hanswer hresume =>
      have hresumed := hresume ▸ w.context.resumed settings (env.clock outside) p answer
      obtain ⟨hcurrent, -⟩ := hresumed.settled hstore hanswer h.stored (h.uses _ _ _ hcall)
        hevent
      exact fun s hs => (hcurrent s hs).elim (h.current s) id
  uses j call task hcall := by
    cases hstep.origin hcall with
    | kept hcall => exact h.uses _ _ _ hcall
    | began _ _ hstarted => exact hstarted.settled.2.1
    | resumed heq hcall hanswer hresumed =>
      subst heq
      exact (hresumed.settled hstore hanswer h.stored (h.uses _ _ _ hcall) hevent).2.1
  seen j call task hj hcall s hs := by
    cases hstep.origin hcall with
    | kept hcall => exact h.seen _ _ _ hj hcall s hs
    | began _ _ hstarted => exact h.current s (hstarted.settled.2.2 s hs)
    | resumed heq hcall hanswer hresumed =>
      subst heq
      obtain ⟨-, -, hseen⟩ := hresumed.settled hstore hanswer h.stored (h.uses _ _ _ hcall)
        hevent
      rcases hseen s hs with hbefore | hcurrent | hshows
      · exact h.seen _ _ _ hj hcall s hbefore
      · exact h.current s hcurrent
      · exact hshows

/-- A call that is not past the lock uses what is stored. -/
theorem Task.usesStored_of_not_holdsLock {task : Task} (h : task.holdsLock = false) :
    task.usesStored = true := by
  cases task with
  | finished => rfl
  | waiting p =>
    cases p with
    | comparing | building | replacing | deleting => rfl
    | fingerprinting | loading => rfl
    | sampling | saving | confirming | erasing => cases h

/-- A replacement returns when it has stored its document and made the snapshot of it
the current one. -/
theorem Resumed.replaced {now : Nat} {c : Context} {p : Pending} {answer : p.need.Answer}
    {next : Context × Task} {stored : Option String} {d : String} {s : Snapshot}
    (h : Resumed settings now c p answer next) (hawaits : (Call.replace d).Awaits stored p)
    (hserved : next.2 = .finished (.served s)) :
    p.need = .fingerprint ∧ p.holdsLock = true ∧ stored = some d ∧ s.Shows d
      ∧ next.1.current = some s := by
  cases hawaits with
  | replacing =>
    cases h with
    | unreadable | replacing => cases hserved
    | abandoned hfails => cases hfails
  | saving =>
    cases h with
    | saved | unsaved => cases hserved
    | abandoned hfails => cases hfails
  | confirming hparse hstored =>
    cases h with
    | confirmed =>
      cases hserved
      exact ⟨rfl, rfl, hstored, hparse, rfl⟩
    | unconfirmed => cases hserved
    | abandoned hfails => cases hfails

/-- A replacement that returns has settled its document. -/
theorem Step.settled_of_replaced (hstore : env.KeepsDocument document)
    {w w' : World env.State} {i : Nat} {p : Pending} {d : String} {s : Snapshot}
    (hstep : Step env settings w (.resume i p) w') (hawaits : w.Awaits document)
    (hheld : ∃ holder, w.HeldBy holder)
    (hreturned : w'.calls[i]? = some (.replace d, .finished (.served s))) :
    w'.Settled document d w'.calls.length := by
  obtain ⟨holder, hheld⟩ := hheld
  cases hstep.origin hreturned with
  | kept _ hevent => exact absurd rfl (hevent p)
  | began _ hevent => cases hevent
  | resumed hevent hcall hanswer hresumed =>
    cases hevent
    obtain ⟨hneed, hholds, hstored, hshows, hcurrent⟩ :=
      hresumed.replaced (hawaits _ _ _ hcall) rfl
    constructor
    case stored =>
      exact (hstore.other (by rw [hneed]; rfl) hanswer).trans hstored
    case current =>
      intro t ht
      rw [hcurrent] at ht
      cases ht
      exact hshows
    case uses =>
      intro j call task htask
      cases hstep.origin htask with
      | began _ hevent => cases hevent
      | resumed hevent =>
        cases hevent
        rw [hreturned] at htask
        cases htask
        rfl
      | kept hother hevent =>
        -- the replacement held the lock, so this call does not
        refine Task.usesStored_of_not_holdsLock (hheld.not_holdsLock hcall hholds hother ?_)
        rintro rfl
        exact hevent p rfl
    case seen =>
      intro j call task hj htask
      rw [List.getElem?_eq_none hj] at htask
      cases htask

/-- A replacement is served until another call gets the lock to change the document. In
a run of any calls that begin, go on and are reset in any order, with any answers and any
times, a replacement returns; and none that began behind it serves anything but the
catalog of its document. -/
theorem Run.served_until_changed (hstore : env.KeepsDocument document) {outside : env.State}
    {before after : List Event} {w w' w'' : World env.State} {i j : Nat} {p : Pending}
    {d : String} {replaced served : Snapshot}
    (hbefore : Run env settings (.fresh outside) before w)
    (hstep : Step env settings w (.resume i p) w')
    (hreturned : w'.calls[i]? = some (.replace d, .finished (.served replaced)))
    (hafter : Run env settings w' after w'')
    (hunchanged : ∀ event ∈ after, event.changesDocument = false)
    (hlate : w'.calls.length ≤ j)
    (hserved : w''.calls[j]? = some (.snapshot, .finished (.served served))) :
    Catalog.parse d = .ok served.compiler.catalog := by
  obtain ⟨hawaits, hheld⟩ := hbefore.awaits hstore
  have hsettled := hstep.settled_of_replaced hstore hawaits hheld hreturned
  have hsettled' := hafter.invariant (fun event => event.changesDocument = false)
    (fun hevent h hstep => hstep.settled hstore hevent h) hunchanged hsettled
  exact hsettled'.seen j _ _ hlate hserved served rfl

/-- A step leaves no call waiting to change the document that did not wait for it
before. -/
theorem Resumed.changesDocument {now : Nat} {c : Context} {p p' : Pending}
    {answer : p.need.Answer} {next : Context × Task}
    (h : Resumed settings now c p answer next) (hp' : next.2 = .waiting p') :
    p'.changesDocument = false := by
  cases h with
  | outdated | building | fingerprinted | sampling | replacing | saved | deleting =>
    cases hp'
    rfl
  | alike | unseen | overtaken | unreadable => cases hp'
  | read | bare | inferred | confirmed => cases hp'
  | unsaved | unconfirmed | erased | unerased => cases hp'
  | @abandoned _ _ stale => cases stale <;> cases hp'

/-- A call for a snapshot does not set out to change the document. -/
theorem Started.changesDocument {now : Nat} {c : Context} {next : Context × Task} {p : Pending}
    (h : Started settings now c .snapshot next) (hp : next.2 = .waiting p) :
    p.changesDocument = false := by
  cases h with
  | missing | due =>
    cases hp
    rfl
  | recent => cases hp

/-- If no call waits to change the document, none begins to until one is started. -/
theorem Run.changesDocument_eq_false {w w' : World env.State} {events : List Event}
    (hrun : Run env settings w events w')
    (hwaiting : ∀ (i : Nat) (call : Call) (p : Pending),
      w.calls[i]? = some (call, .waiting p) → p.changesDocument = false)
    (hstarted : ∀ call, .start call ∈ events → call = .snapshot) :
    ∀ event ∈ events, event.changesDocument = false := by
  induction hrun with
  | nil => exact List.forall_mem_nil _
  | @cons w w₁ w₂ event events hstep _ ih =>
    refine List.forall_mem_cons.mpr ⟨?_, ih ?_ fun call hcall => ?_⟩
    · cases hstep with
      | resume hcall => exact hwaiting _ _ _ hcall
      | pass | reset | start => rfl
    · intro i call p hp
      cases hstep.origin hp with
      | kept hcall => exact hwaiting _ _ _ hcall
      | resumed _ _ _ hresumed => exact hresumed.changesDocument rfl
      | began _ hevent hbegan =>
        cases hstarted call (hevent ▸ List.mem_cons_self)
        exact hbegan.changesDocument rfl
    · exact hstarted call (List.mem_cons_of_mem _ hcall)

/-- **The last successful replacement is what is served.** A replacement returns, in a run
as above. A call for a snapshot that begins behind it serves nothing but the catalog of
its document, until another call gets the lock to replace or delete the document; and if
none waits for that when the replacement returns, until one begins. -/
theorem Run.served_of_replaced (hstore : env.KeepsDocument document) {outside : env.State}
    {before after : List Event} {w w' w'' : World env.State} {i j : Nat} {p : Pending}
    {d : String} {replaced served : Snapshot}
    (hbefore : Run env settings (.fresh outside) before w)
    (hstep : Step env settings w (.resume i p) w')
    (hreturned : w'.calls[i]? = some (.replace d, .finished (.served replaced)))
    (hafter : Run env settings w' after w'')
    (hwindow : (∀ event ∈ after, event.changesDocument = false)
      ∨ (∀ (k : Nat) (call : Call) (q : Pending),
          w'.calls[k]? = some (call, .waiting q) → q.changesDocument = false)
        ∧ ∀ call, .start call ∈ after → call = .snapshot)
    (hlate : w'.calls.length ≤ j)
    (hserved : w''.calls[j]? = some (.snapshot, .finished (.served served))) :
    Catalog.parse d = .ok served.compiler.catalog := by
  have hunchanged : ∀ event ∈ after, event.changesDocument = false := by
    rcases hwindow with hunchanged | ⟨hwaiting, hstarted⟩
    · exact hunchanged
    · exact hafter.changesDocument_eq_false hwaiting hstarted
  exact served_until_changed hstore hbefore hstep hreturned hafter hunchanged hlate hserved

-- ============================================================= an instance

/-- The services in memory keep the document they store. -/
theorem Outside.keepsDocument_memory : Outside.memory.KeepsDocument MemoryServices.document where
  change h := h
  load {s s' stored} h := by
    simp only [memory, MemoryServices.answer, MemoryServices.storing] at h
    split at h
    · cases h
    · cases h
      rfl
  save {s s' saved} h := by
    simp only [memory, MemoryServices.answer, MemoryServices.storing] at h
    split at h
    · cases h
    · cases h
      rfl
  other {s s' need answer} hneed h := by
    cases need with
    | save | delete => cases hneed
    | lock | fingerprint | sample => cases h; rfl
    | load =>
      simp only [memory, MemoryServices.answer, MemoryServices.storing] at h
      split at h <;> cases h <;> rfl

/-- What a document that parses asks of a call that was given the lock for it. -/
theorem Context.resume_replacing {d : String} {catalog : Catalog}
    (hparse : Catalog.parse d = .ok catalog) (settings : ContextSettings) (now : Nat)
    (c : Context) : c.resume settings now (.replacing d) ()
      = ({ c with locked := true }, .waiting (.saving d catalog)) := by
  simp only [resume, hparse]

/-- Two calls for a snapshot, one of them while a document that parses is stored, the
other behind that and behind a reset. No call waits to change the document when it is
stored, and none begins to. -/
theorem Run.exists_replaced (settings : ContextSettings) {d : String} {catalog : Catalog}
    (hparse : Catalog.parse d = .ok catalog) :
    ∃ before after w w' w'' replaced served,
      Run .memory settings (.fresh (.ofDocument none)) before w
      ∧ Step .memory settings w (.resume 0 (.confirming catalog)) w'
      ∧ w'.calls[0]? = some (.replace d, .finished (.served replaced))
      ∧ Run .memory settings w' after w''
      ∧ (∀ (k : Nat) (call : Call) (q : Pending),
          w'.calls[k]? = some (call, .waiting q) → q.changesDocument = false)
      ∧ (∀ call, .start call ∈ after → call = .snapshot)
      ∧ w'.calls.length ≤ 2
      ∧ w''.calls[2]? = some (.snapshot, .finished (.served served)) := by
  have hloading (c : Context) (now : Nat) (fingerprint : Int) :
      c.resume settings now (.loading none fingerprint) (.ok (some d))
        = c.commit settings now catalog fingerprint := by
    simp only [Context.resume, hparse, Context.conclude]
  -- the call for a snapshot begins while the document is replaced; its build is reset, and
  -- the next call loads the document anew
  refine ⟨[.start (.replace d), .start .snapshot, .resume 0 (.replacing d),
      .resume 0 (.saving d catalog)],
    [.resume 1 (.building none), .reset, .start .snapshot, .resume 2 (.building none),
      .resume 2 (.fingerprinting none), .resume 2 (.loading none 0)],
    _, _, _, _, _,
    .cons (.start rfl) (.cons (.start rfl) (.cons
      (.resume rfl (fun _ => rfl) rfl (Context.resume_replacing hparse ..))
      (.cons (.resume rfl (fun h => by cases h) rfl rfl) .nil))),
    .resume rfl (fun h => by cases h) rfl rfl, rfl,
    .cons (.resume rfl (fun _ => rfl) rfl rfl) (.cons .reset (.cons (.start rfl)
      (.cons (.resume rfl (fun _ => rfl) rfl rfl)
      (.cons (.resume rfl (fun h => by cases h) rfl rfl)
      (.cons (.resume rfl (fun h => by cases h) rfl (hloading _ _ _)) .nil))))),
    ?_, ?_, Nat.le_refl _, rfl⟩
  · intro k call q hq
    rcases k with _ | _ | k
    · cases hq
    · cases hq
      rfl
    · cases hq
  · intro call hcall
    simpa using hcall

theorem Run.served_of_replaced_beta :
    ∃ catalog before after w w' w'' replaced served,
      Run .memory .steady (.fresh (.ofDocument none)) before w
      ∧ Step .memory .steady w (.resume 0 (.confirming catalog)) w'
      ∧ w'.calls[0]? = some (.replace Catalog.betaDocument, .finished (.served replaced))
      ∧ Run .memory .steady w' after w''
      ∧ (∀ (k : Nat) (call : Call) (q : Pending),
          w'.calls[k]? = some (call, .waiting q) → q.changesDocument = false)
      ∧ (∀ call, .start call ∈ after → call = .snapshot)
      ∧ w''.calls[2]? = some (.snapshot, .finished (.served served))
      ∧ Catalog.parse Catalog.betaDocument = .ok served.compiler.catalog := by
  obtain ⟨catalog, hparse⟩ := Catalog.parse_betaDocument
  obtain ⟨before, after, w, w', w'', replaced, served, hbefore, hstep, hreturned, hafter,
    hwaiting, hstarted, hlate, hserved⟩ := exists_replaced .steady hparse
  exact ⟨catalog, before, after, w, w', w'', replaced, served, hbefore, hstep, hreturned, hafter,
    hwaiting, hstarted, hserved, served_of_replaced Outside.keepsDocument_memory hbefore hstep
      hreturned hafter (.inr ⟨hwaiting, hstarted⟩) hlate hserved⟩

-- ======================================================= a replacement that waited

/-- Two documents are to replace what is stored. The second waits for the lock while the
first is stored, and gets it when that has returned; only a call for a snapshot begins
then, and it serves the second. -/
theorem Run.exists_overtaken {d d' : String} {catalog catalog' : Catalog}
    (hparse : Catalog.parse d = .ok catalog) (hparse' : Catalog.parse d' = .ok catalog') :
    ∃ before after w w' w'' replaced served,
      Run .memory .steady (.fresh (.ofDocument none)) before w
      ∧ Step .memory .steady w (.resume 0 (.confirming catalog)) w'
      ∧ w'.calls[0]? = some (.replace d, .finished (.served replaced))
      ∧ Run .memory .steady w' after w''
      ∧ (∀ call, .start call ∈ after → call = .snapshot)
      ∧ w'.calls.length ≤ 2
      ∧ w''.calls[2]? = some (.snapshot, .finished (.served served))
      ∧ served.compiler.catalog = catalog' := by
  refine ⟨[.start (.replace d), .start (.replace d'), .resume 0 (.replacing d),
      .resume 0 (.saving d catalog)],
    [.resume 1 (.replacing d'), .resume 1 (.saving d' catalog'), .resume 1 (.confirming catalog'),
      .start .snapshot],
    _, _, _, _, _,
    .cons (.start rfl) (.cons (.start rfl) (.cons
      (.resume rfl (fun _ => rfl) rfl (Context.resume_replacing hparse ..))
      (.cons (.resume rfl (fun h => by cases h) rfl rfl) .nil))),
    .resume rfl (fun h => by cases h) rfl rfl, rfl,
    .cons (.resume rfl (fun _ => rfl) rfl (Context.resume_replacing hparse' ..))
      (.cons (.resume rfl (fun h => by cases h) rfl rfl)
      (.cons (.resume rfl (fun h => by cases h) rfl rfl) (.cons (.start rfl) .nil))),
    ?_, Nat.le_refl _, rfl, rfl⟩
  intro call hcall
  simpa using hcall

/-- Another document with one type. -/
def Catalog.gammaDocument : String := "type Gamma \x7b c: Int \x7d"

/-- So it does not suffice that no call to replace or delete the document begins behind a
replacement: one that began before may change what is served. -/
theorem Run.not_served_of_replaced :
    ¬ ∀ {env : Outside} {settings : ContextSettings} {document : env.State → Option String}
        {outside : env.State} {before after : List Event} {w w' w'' : World env.State}
        {i j : Nat} {p : Pending} {d : String} {replaced served : Snapshot},
      env.KeepsDocument document →
      Run env settings (.fresh outside) before w →
      Step env settings w (.resume i p) w' →
      w'.calls[i]? = some (.replace d, .finished (.served replaced)) →
      Run env settings w' after w'' →
      (∀ call, .start call ∈ after → call = .snapshot) →
      w'.calls.length ≤ j →
      w''.calls[j]? = some (.snapshot, .finished (.served served)) →
        Catalog.parse d = .ok served.compiler.catalog := by
  intro hall
  have hbeta : (Catalog.parse Catalog.betaDocument).toOption.map (·.types.keys)
      = some ["Beta"] := by decide +kernel
  have hgamma : (Catalog.parse Catalog.gammaDocument).toOption.map (·.types.keys)
      = some ["Gamma"] := by decide +kernel
  obtain ⟨catalog, hparse⟩ := Catalog.parse_betaDocument
  cases hparse' : Catalog.parse Catalog.gammaDocument with
  | error e =>
    rw [hparse'] at hgamma
    cases hgamma
  | ok catalog' =>
    obtain ⟨before, after, w, w', w'', replaced, served, hbefore, hstep, hreturned, hafter,
      hstarted, hlate, hserved, hcatalog⟩ := exists_overtaken hparse hparse'
    have hsame := hall Outside.keepsDocument_memory hbefore hstep hreturned hafter hstarted
      hlate hserved
    -- the snapshot would show both documents
    rw [hcatalog, ← hparse'] at hsame
    rw [hsame, hgamma] at hbeta
    exact absurd hbeta (by decide)

end PropertyGraphQL
