/-
What replacing the stored document leaves behind, also where it fails.

The steps of a replacement can fail one by one: the document may not parse,
it may not be saved, and the fingerprint for the new snapshot may not be
there. `Replaced` says how each of them ends. The current snapshot survives
every failure, and the first two leave the services as they were. The last
one comes too late: the document is saved by then, and no step takes it
back. So the document is left as it was exactly if it was not the
fingerprint that failed (`replace_failed_unchanged_iff`), and if it was, the
next snapshot to be made is one of the document that was refused
(`replace_unconfirmed_served`).
-/
import PropertyGraphQL.Service.Memory

namespace PropertyGraphQL

open MemoryServices

variable {settings : ContextSettings} {c : Context} {s : MemoryServices}

-- ================================================================= running

namespace Task

/-- A call that has ended changes nothing more. -/
theorem run_finished (outcome : Outcome) :
    ((finished outcome).run services settings c).run s = ((c, outcome), s) := by
  rw [Task.run]
  rfl

/-- A call that waits goes on with the answer and where that leaves the services. -/
theorem run_waiting {c' : Context} {after : MemoryServices} {p : Pending}
    {answer : p.need.Answer} {task : Task} (hanswer : s.answer p.need = (answer, after))
    (hresume : c.resume settings after.time p answer = (c', task)) :
    ((waiting p).run services settings c).run s = (task.run services settings c').run after := by
  have hrun : ((waiting p).run services settings c).run s
      = let step := c.resume settings (s.answer p.need).2.time p (s.answer p.need).1
        (step.2.run services settings step.1).run (s.answer p.need).2 := by
    rw [Task.run]
    rfl
  rw [hrun, hanswer]
  simp only [hresume]

end Task

-- ================================================================== ending

/-- How a replacement ends: what becomes of the context and of the services,
and the outcome. -/
inductive Replaced (settings : ContextSettings) (c : Context) (s : MemoryServices)
    (document : String) : (Context × Outcome) × MemoryServices → Prop
  | unreadable {e : SchemaError} (hparse : Catalog.parse document = .error e) :
      Replaced settings c s document ((c, .failed (.schema e)), s)
  | unsaved {catalog : Catalog} {e : StoreError} (hparse : Catalog.parse document = .ok catalog)
      (hsave : s.failure? .save = some e) :
      Replaced settings c s document ((c.unlock, .failed (.store e)), s)
  | unconfirmed {catalog : Catalog} {e : DatabaseError}
      (hparse : Catalog.parse document = .ok catalog) (hsave : s.failure? .save = none)
      (hfingerprint : s.fingerprint = .error e) :
      Replaced settings c s document ((c.unlock, .failed (.database e)),
        { s with document := some document, fingerprintCalls := s.fingerprintCalls + 1 })
  | done {catalog : Catalog} {fingerprint : Int}
      (hparse : Catalog.parse document = .ok catalog) (hsave : s.failure? .save = none)
      (hfingerprint : s.fingerprint = .ok fingerprint) :
      Replaced settings c s document
        (((c.commit settings s.time catalog fingerprint).1,
            .served ⟨c.made, ⟨catalog, settings.options⟩, fingerprint⟩),
          { s with document := some document, fingerprintCalls := s.fingerprintCalls + 1 })

namespace Context

/-- Every replacement comes to one of these ends. -/
theorem replaced (settings : ContextSettings) (c : Context) (s : MemoryServices)
    (document : String) :
    Replaced settings c s document ((c.run services settings (.replace document)).run s) := by
  show Replaced settings c s document
    (((Task.waiting (.replacing document)).run services settings c).run s)
  have hlock : s.answer .lock = ((), s) := rfl
  cases hparse : Catalog.parse document with
  | error e =>
    have hrejected : c.resume settings s.time (.replacing document) ()
        = (c, .finished (.failed (.schema e))) := by
      simp only [resume, hparse]
    rw [Task.run_waiting hlock hrejected, Task.run_finished]
    exact .unreadable hparse
  | ok catalog =>
    let held : Context := { c with locked := true }
    have haccepted : c.resume settings s.time (.replacing document) ()
        = (held, .waiting (.saving document catalog)) := by
      simp only [resume, hparse, held]
    rw [Task.run_waiting hlock haccepted]
    cases hsave : s.failure? .save with
    | some e =>
      have hanswer : s.answer (.save document) = (.error e, s) := by
        simp only [answer, storing, hsave]
      have hunsaved : held.resume settings s.time (.saving document catalog) (.error e)
          = (c.unlock, .finished (.failed (.store e))) := rfl
      rw [Task.run_waiting hanswer hunsaved, Task.run_finished]
      exact .unsaved hparse hsave
    | none =>
      let saved : MemoryServices := { s with document := some document }
      have hanswer : s.answer (.save document) = (.ok (), saved) := by
        simp only [answer, storing, hsave, saved]
      have hsaved : held.resume settings saved.time (.saving document catalog) (.ok ())
          = (held, .waiting (.confirming catalog)) := rfl
      rw [Task.run_waiting hanswer hsaved]
      -- from here on the document is saved, whatever the fingerprint does
      let asked : MemoryServices :=
        { saved with fingerprintCalls := s.fingerprintCalls + 1 }
      have hasked : saved.answer .fingerprint = (s.fingerprint, asked) := rfl
      cases hfingerprint : s.fingerprint with
      | error e =>
        have hunconfirmed : held.resume settings asked.time (.confirming catalog) (.error e)
            = (c.unlock, .finished (.failed (.database e))) := rfl
        rw [hfingerprint] at hasked
        rw [Task.run_waiting hasked hunconfirmed, Task.run_finished]
        exact .unconfirmed hparse hsave hfingerprint
      | ok fingerprint =>
        have hconfirmed : held.resume settings asked.time (.confirming catalog) (.ok fingerprint)
            = c.commit settings s.time catalog fingerprint := rfl
        rw [hfingerprint] at hasked
        rw [Task.run_waiting hasked hconfirmed, Task.run_finished]
        exact .done hparse hsave hfingerprint

/-- What a failed replacement leaves: the context as it was, but for the lock, and
the services as they were, unless it was the fingerprint that failed. -/
theorem replace_failed {document : String} {e : ServiceError} {c' : Context}
    {s' : MemoryServices}
    (h : (c.run services settings (.replace document)).run s = ((c', .failed e), s')) :
    c'.unlock = c.unlock
      ∧ ((∀ failure, e ≠ .database failure) ∧ s' = s
        ∨ (∃ failure, e = .database failure)
          ∧ s' = { s with
              document := some document, fingerprintCalls := s.fingerprintCalls + 1 }) := by
  have hend := replaced settings c s document
  rw [h] at hend
  cases hend with
  | unreadable => exact ⟨rfl, .inl ⟨nofun, rfl⟩⟩
  | unsaved => exact ⟨rfl, .inl ⟨nofun, rfl⟩⟩
  | unconfirmed => exact ⟨rfl, .inr ⟨⟨_, rfl⟩, rfl⟩⟩

/-- A failed replacement keeps the current snapshot, and all of the context but the
lock. It keeps the stored document too, and everything else outside with it,
exactly if it was not the fingerprint that failed, or the document was there
before. -/
theorem replace_failed_unchanged_iff {document : String} {e : ServiceError} {c' : Context}
    {s' : MemoryServices}
    (h : (c.run services settings (.replace document)).run s = ((c', .failed e), s')) :
    c'.unlock = c.unlock
      ∧ (s'.document = s.document
        ↔ (∀ failure, e ≠ .database failure) ∨ s.document = some document)
      ∧ ((∀ failure, e ≠ .database failure) → s' = s) := by
  obtain ⟨hcontext, ⟨hother, rfl⟩ | ⟨⟨failure, rfl⟩, rfl⟩⟩ := replace_failed h
  · exact ⟨hcontext, iff_of_true rfl (.inl hother), fun _ => rfl⟩
  · refine ⟨hcontext, ⟨fun hsame => .inr hsame.symm, ?_⟩, fun hother => absurd rfl (hother failure)⟩
    rintro (hother | hsame)
    · exact absurd rfl (hother failure)
    · exact hsame.symm

/-- Without a snapshot, one is made of the stored document. -/
theorem run_snapshot_stored {document : String} {catalog : Catalog} {fingerprint : Int}
    (hcurrent : c.current = none) (hdocument : s.document = some document)
    (hparse : Catalog.parse document = .ok catalog) (hload : s.failure? .load = none)
    (hfingerprint : s.fingerprint = .ok fingerprint) :
    (c.run services settings .snapshot).run s
      = (((c.commit settings s.time catalog fingerprint).1,
          .served ⟨c.made, ⟨catalog, settings.options⟩, fingerprint⟩),
        { s with fingerprintCalls := s.fingerprintCalls + 1 }) := by
  have hstart : c.start settings s.time .snapshot = (c, .waiting (.building none)) := by
    simp only [start, hcurrent]
  have hrun : (c.run services settings .snapshot).run s
      = ((c.start settings s.time .snapshot).2.run services settings
          (c.start settings s.time .snapshot).1).run s := rfl
  have hlock : s.answer .lock = ((), s) := rfl
  have hbuilding : c.resume settings s.time (.building none) ()
      = ({ c with locked := true }, .waiting (.fingerprinting none)) := by
    simp only [resume, replacement?, hcurrent, Option.filter_none]
  -- asking for the fingerprint is counted, and nothing else changes in the services
  let asked : MemoryServices := { s with fingerprintCalls := s.fingerprintCalls + 1 }
  have hasked : s.answer .fingerprint = (.ok fingerprint, asked) := by
    simp only [answer, hfingerprint, asked]
  have hloaded : asked.answer .load = (.ok (some document), asked) := by
    have hload' : asked.failure? .load = none := hload
    have hdocument' : asked.document = some document := hdocument
    simp only [answer, storing, hload', hdocument']
  have hconcluded :
      ({ c with locked := true } : Context).resume settings asked.time
          (.loading none fingerprint) (.ok (some document))
        = c.commit settings s.time catalog fingerprint := by
    simp only [resume, hparse, conclude]
    rfl
  rw [hrun, hstart, Task.run_waiting hlock hbuilding, Task.run_waiting hasked rfl,
    Task.run_waiting hloaded hconcluded]
  exact Task.run_finished _

/-- The document of a replacement that failed for want of a fingerprint is used as
soon as a snapshot is made. -/
theorem replace_unconfirmed_served {document : String} {failure : DatabaseError}
    {c' : Context} {s' : MemoryServices} {fingerprint : Int}
    (h : (c.run services settings (.replace document)).run s
      = ((c', .failed (.database failure)), s'))
    (hload : s.failure? .load = none) :
    ∃ c'' s'' catalog, Catalog.parse document = .ok catalog
      ∧ (c'.reset.run services settings .snapshot).run { s' with fingerprint := .ok fingerprint }
        = ((c'', .served ⟨c'.made, ⟨catalog, settings.options⟩, fingerprint⟩), s'') := by
  have hend := replaced settings c s document
  rw [h] at hend
  cases hend with
  | unconfirmed hparse =>
    exact ⟨_, _, _, hparse, run_snapshot_stored rfl rfl hparse hload rfl⟩

end Context

-- ============================================================= an instance

/-- A document with one type. -/
def Catalog.betaDocument : String := "type Beta \x7b b: Int \x7d"

/-- The document is a schema. -/
theorem Catalog.parse_betaDocument : ∃ catalog, parse betaDocument = .ok catalog := by
  have hreadable : (parse betaDocument).toOption ≠ none := by decide +kernel
  cases hparse : parse betaDocument with
  | ok catalog => exact ⟨catalog, rfl⟩
  | error e =>
    rw [hparse] at hreadable
    exact absurd rfl hreadable

/-- Statements written as usual, an hour between two comparisons, and no sampling. -/
def ContextSettings.steady : ContextSettings := ⟨CompileOptions.standard, 3600000, false⟩

/-- Services with a stored document whose database is down. -/
def MemoryServices.down : MemoryServices :=
  { ofDocument (some "type Alpha \x7b a: Int \x7d") with
    fingerprint := .error (.connection "down") }

/-- A document that parses is saved though the database is down, and its
replacement fails. -/
theorem Context.replace_down :
    ∃ c' s', (fresh.run services .steady (.replace Catalog.betaDocument)).run .down
        = ((c', .failed (.database (.connection "down"))), s')
      ∧ s'.document ≠ MemoryServices.down.document := by
  have hend := replaced .steady fresh .down Catalog.betaDocument
  generalize (fresh.run services .steady _).run .down = result at hend
  cases hend with
  | unreadable hparse =>
    obtain ⟨catalog, hreadable⟩ := Catalog.parse_betaDocument
    rw [hparse] at hreadable
    cases hreadable
  | unsaved _ hsave => cases hsave
  | unconfirmed _ _ hfingerprint =>
    cases hfingerprint
    exact ⟨_, _, rfl, by decide⟩
  | done _ _ hfingerprint => cases hfingerprint

theorem Context.replace_failed_unchanged_iff_down :
    ∃ c' s', (fresh.run services .steady (.replace Catalog.betaDocument)).run .down
        = ((c', .failed (.database (.connection "down"))), s')
      ∧ c'.unlock = fresh.unlock
      ∧ (s'.document = MemoryServices.down.document
        ↔ (∀ failure, ServiceError.database (.connection "down") ≠ .database failure)
          ∨ MemoryServices.down.document = some Catalog.betaDocument) := by
  obtain ⟨c', s', hrun, -⟩ := replace_down
  obtain ⟨hcontext, hdocument, -⟩ := replace_failed_unchanged_iff hrun
  exact ⟨c', s', hrun, hcontext, hdocument⟩

/-- So not every failed replacement leaves everything as it was. -/
theorem Context.not_replace_failed_unchanged :
    ¬ ∀ settings c s document e c' s',
      (Context.run services settings c (.replace document)).run s = ((c', .failed e), s')
        → c'.current = c.current ∧ s'.document = s.document := by
  intro hall
  obtain ⟨c', s', hrun, hchanged⟩ := replace_down
  exact hchanged (hall _ _ _ _ _ _ _ hrun).2

end PropertyGraphQL
