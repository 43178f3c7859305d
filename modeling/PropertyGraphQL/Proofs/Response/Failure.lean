/-
Responses do not tell how services fail.

Responses are made in any monad that the services are effects of, and with
nothing but its sequencing. So what relates the services of two monads
relates the responses made with them, if sequencing preserves it
(`MonadRel`, `Request.respond_related`). This is used twice, and both times
one of the monads writes down what passes between the server and its
services (`Recorded`): a response is the same whether or not that is done
(`Recorded.erasing`), and two responses are the same if what is written down
agrees (`Recorded.agreeing`).

Errors reach a response by two ways only: a field that fails, and a call for
a snapshot that fails. Of both, `publicMessage` is all that is shown.
-/
import Mathlib.Control.Monad.Writer
import PropertyGraphQL.Proofs.Changes.Statement
import PropertyGraphQL.Proofs.Data.Decidable
import PropertyGraphQL.Proofs.Service.Failure
import PropertyGraphQL.Proofs.Service.Replacement
import PropertyGraphQL.Proofs.Service.Together
import PropertyGraphQL.Service.Response

namespace PropertyGraphQL

-- ===================================================== what responses show

/-- A value, or an error without what a service says about its failure. -/
def Operation.redactedValue (value : Except ServiceError Json) : Except ServiceError Json :=
  value.mapError ServiceError.redacted

/-- Of the error of a field, the response shows the public message only. -/
theorem Operation.addField_redacted (key : String) {value value' : Except ServiceError Json}
    (h : redactedValue value = redactedValue value') (before : Dict Json × List ResponseError) :
    addField key value before = addField key value' before := by
  cases value with
  | ok j =>
    cases value' with
    | ok j' =>
      cases h
      rfl
    | error e => cases h
  | error e =>
    cases value' with
    | ok j => cases h
    | error e' =>
      simp only [addField, ResponseError.ofField,
        ServiceError.publicMessage_eq (Except.error.inj h)]

/-- And so it is with the error for a request that there is no snapshot for. -/
theorem ResponseError.ofServiceError_redacted {e e' : ServiceError}
    (h : e.redacted = e'.redacted) : ofServiceError e = ofServiceError e' := by
  rw [ofServiceError, ofServiceError, ServiceError.publicMessage_eq h]

-- ==================================================== related computations

/-- A relation between the computations of two monads that sequencing preserves. -/
structure MonadRel (m n : Type → Type) [Monad m] [Monad n] where
  /-- Two computations whose results are related by the given relation. -/
  Rel : {α β : Type} → (α → β → Prop) → m α → n β → Prop
  pure : ∀ {α β : Type} {Q : α → β → Prop} {a : α} {b : β}, Q a b → Rel Q (pure a) (pure b)
  bind : ∀ {α β γ δ : Type} {Q : α → β → Prop} {P : γ → δ → Prop} {x : m α} {y : n β}
    {f : α → m γ} {g : β → n δ}, Rel Q x y → (∀ a b, Q a b → Rel P (f a) (g b)) →
    Rel P (x >>= f) (y >>= g)

section

variable {m n : Type → Type} [Monad m] [Monad n] (M : MonadRel m n)

/-- Loops over one list, whose bodies are related, gather the same. -/
theorem MonadRel.foldlM {γ ι : Type} {f : γ → ι → m γ} {g : γ → ι → n γ}
    (h : ∀ c i, M.Rel Eq (f c i) (g c i)) (l : List ι) (c : γ) :
    M.Rel Eq (l.foldlM f c) (l.foldlM g c) := by
  induction l generalizing c with
  | nil => exact M.pure rfl
  | cons i rest ih =>
    rw [List.foldlM_cons, List.foldlM_cons]
    refine M.bind (h c i) fun a b hab => ?_
    subst hab
    exact ih a

/-- Services that answer the same at the same time, except for what they say where both
fail. -/
structure Services.Related (services : Services m) (services' : Services n) : Prop where
  clock : M.Rel Eq services.clock services'.clock
  answer : ∀ need, M.Rel need.SameAnswer (services.answer need) (services'.answer need)
  execute : ∀ statement parameters, M.Rel SameSuccess (services.execute statement parameters)
    (services'.execute statement parameters)

variable {M} {services : Services m} {services' : Services n} (h : services.Related M services')
include h

-- ================================================================== responses

/-- A call that runs by itself comes to the same. -/
theorem Task.run_related (settings : ContextSettings) (c : Context) {task task' : Task}
    (htask : task.redacted = task'.redacted) :
    M.Rel (fun x y => x.1 = y.1 ∧ x.2.redacted = y.2.redacted)
      (task.run services settings c) (task'.run services' settings c) := by
  induction c, task using Task.run.induct settings generalizing task' with
  | case1 c outcome =>
    cases task' with
    | waiting p => cases htask
    | finished outcome' =>
      rw [Task.run, Task.run]
      exact M.pure ⟨rfl, Task.finished.inj htask⟩
  | case2 c p ih =>
    cases Task.eq_waiting htask
    rw [Task.run, Task.run]
    refine M.bind (h.answer p.need) fun a b hab => M.bind h.clock fun now now' hnow => ?_
    subst hnow
    obtain ⟨hcontext, hnext⟩ := c.sameStep_resume settings now p hab
    rw [← hcontext]
    exact ih a now hnext

/-- A call begins alike with services that are related. -/
theorem Context.begin_related (settings : ContextSettings) (c : Context) (call : Call) :
    M.Rel Eq (c.begin services settings call) (c.begin services' settings call) := by
  refine M.bind h.clock fun now now' hnow => ?_
  subst hnow
  exact M.pure rfl

/-- A call ends alike with services that are related, but for what a failure says. -/
theorem Context.run_related (settings : ContextSettings) (c : Context) (call : Call) :
    M.Rel (fun x y => x.1 = y.1 ∧ x.2.redacted = y.2.redacted)
      (c.run services settings call) (c.run services' settings call) := by
  unfold Context.run
  refine M.bind (c.begin_related h settings call) fun begun begun' hbegun => ?_
  subst hbegun
  exact Task.run_related h settings begun.1 rfl

namespace Operation

/-- A field has values that are alike, but for what a failure says. -/
theorem fieldValue_related (compiler : Compiler) (o : Operation) (f : RootField) :
    M.Rel (fun x y => redactedValue x = redactedValue y)
      (o.fieldValue services compiler f) (o.fieldValue services' compiler f) := by
  unfold fieldValue
  split
  · exact M.pure rfl
  · split
    · exact M.pure rfl
    · next compiled _ =>
      refine M.bind (h.execute compiled.statement compiled.parameters) fun a b hab => ?_
      obtain rfl | ⟨e, e', rfl, rfl⟩ := hab.eq_or_error
      · cases a with
        | error e => exact M.pure rfl
        | ok rows => exact M.pure rfl
      · exact M.pure rfl

/-- The responses to an operation are equal. -/
theorem respond_related (compiler : Compiler) (o : Operation) :
    M.Rel Eq (o.respond services compiler) (o.respond services' compiler) := by
  unfold respond
  refine M.bind (M.foldlM (fun before f => ?_) _ _) fun gathered gathered' heq => ?_
  · refine M.bind (fieldValue_related h compiler o f) fun value value' hvalue => M.pure ?_
    exact addField_redacted f.head.responseKey hvalue before
  · subst heq
    exact M.pure rfl

end Operation

omit h in
/-- A field that compiles is what its statement comes to. -/
theorem Operation.fieldValue_eq (services : Services m) (compiler : Compiler) (o : Operation)
    (f : RootField) {compiled : Compiled} (hname : f.head.name ≠ "__typename")
    (hcompiled : compiler.compile (o.kind = .mutation) f o.vars = .ok compiled) :
    o.fieldValue services compiler f = (do
      match ← services.execute compiled.statement compiled.parameters with
      | .error e => return .error (.database e)
      | .ok rows => return .ok (Row.fieldValue compiled.isList rows)) := by
  rw [fieldValue, if_neg hname]
  generalize compiler.compile _ f o.vars = result at hcompiled ⊢
  subst hcompiled
  rfl

/-- What is left to do for an operation once its call for a snapshot has ended. -/
def Operation.conclude {m : Type → Type} [Monad m] (services : Services m) (o : Operation) :
    Context × Outcome → m (Context × Response)
  | (c, .served s) => return (c, ← o.respond services s.compiler)
  | (c, .failed e) => return (c, .rejected (.ofServiceError e))
  | (c, .deleted) => return (c, .answered [] [])

omit h in
/-- A request calls for a snapshot, and goes on with what the call has ended with. -/
theorem Request.respond_eq (services : Services m) (settings : ContextSettings) (c : Context)
    (r : Request) :
    r.respond services settings c
      = match Operation.parse r.text r.operation r.vars with
        | .error e => pure (c, .rejected (.ofDocumentError e))
        | .ok o => c.run services settings .snapshot >>= o.conclude services := by
  unfold respond
  cases Operation.parse r.text r.operation r.vars with
  | error e => rfl
  | ok o =>
    refine bind_congr fun ended => ?_
    obtain ⟨c, outcome⟩ := ended
    cases outcome with
    | served | failed | deleted => rfl

/-- A request is concluded alike after calls that end alike. -/
theorem Operation.conclude_related (o : Operation) (c : Context) {outcome outcome' : Outcome}
    (hsame : outcome.redacted = outcome'.redacted) :
    M.Rel Eq (o.conclude services (c, outcome)) (o.conclude services' (c, outcome')) := by
  obtain rfl | ⟨e, e', rfl, rfl, he⟩ := Outcome.eq_or_failed hsame
  · cases outcome with
    | served s =>
      refine M.bind (o.respond_related h s.compiler) fun response response' hresponse => ?_
      exact M.pure (congrArg _ hresponse)
    | failed e => exact M.pure rfl
    | deleted => exact M.pure rfl
  · refine M.pure ?_
    rw [ResponseError.ofServiceError_redacted he]

/-- With related services, requests get related responses. -/
theorem Request.respond_related (settings : ContextSettings) (c : Context) (r : Request) :
    M.Rel Eq (r.respond services settings c) (r.respond services' settings c) := by
  rw [respond_eq, respond_eq]
  cases Operation.parse r.text r.operation r.vars with
  | error e => exact M.pure rfl
  | ok o =>
    refine M.bind (c.run_related h settings .snapshot) fun ended ended' hended => ?_
    obtain ⟨context, outcome⟩ := ended
    obtain ⟨context', outcome'⟩ := ended'
    obtain ⟨rfl, hsame⟩ := hended
    exact o.conclude_related h context hsame

end

-- ================================================================== recordings

/-- Computations that write down what passes between a server and its services. -/
abbrev Recorded (σ : Type) : Type → Type := WriterT (List Exchange) (StateM σ)

namespace Recorded

variable {σ τ α β γ : Type}

def result (x : Recorded σ α) (s : σ) : α := (x.run.run s).1.1

/-- What is written down. -/
def exchanges (x : Recorded σ α) (s : σ) : List Exchange := (x.run.run s).1.2

/-- The state afterwards. -/
def after (x : Recorded σ α) (s : σ) : σ := (x.run.run s).2

/-- Write down what the result is an answer to, with the result. -/
def write (exchange : α → Exchange) (x : StateM σ α) : Recorded σ α :=
  WriterT.mk (x >>= fun a => pure (a, [exchange a]))

theorem result_bind (x : Recorded σ α) (f : α → Recorded σ β) (s : σ) :
    (x >>= f).result s = (f (x.result s)).result (x.after s) := rfl

theorem exchanges_bind (x : Recorded σ α) (f : α → Recorded σ β) (s : σ) :
    (x >>= f).exchanges s = x.exchanges s ++ (f (x.result s)).exchanges (x.after s) := rfl

theorem after_bind (x : Recorded σ α) (f : α → Recorded σ β) (s : σ) :
    (x >>= f).after s = (f (x.result s)).after (x.after s) := rfl

end Recorded

/-- Services with which everything is written down. -/
def Services.recorded {σ : Type} (services : Services (StateM σ)) : Services (Recorded σ) where
  clock := .write .time services.clock
  answer need := .write (.answered need) (services.answer need)
  execute statement parameters :=
    .write (.executed statement parameters) (services.execute statement parameters)

/-- Exchanges agree one by one, as far as both lists go. -/
def Exchange.AllAgree (l l' : List Exchange) : Prop := ∀ p ∈ l.zip l', p.1.Agrees p.2

theorem Exchange.allAgree_cons {x y : Exchange} {l l' : List Exchange} :
    AllAgree (x :: l) (y :: l') ↔ x.Agrees y ∧ AllAgree l l' :=
  List.forall_mem_cons

namespace Recorded

/-- Related results and the same states afterwards, whether or not anything is written down. -/
def erasing (σ : Type) : MonadRel (Recorded σ) (StateM σ) where
  Rel Q x y := ∀ s, Q (x.result s) (y.run s).1 ∧ x.after s = (y.run s).2
  pure h s := ⟨h, rfl⟩
  bind {_ _ _ _ Q P x y f g} h hnext s := by
    obtain ⟨hresult, hafter⟩ := h s
    rw [result_bind, after_bind, hafter]
    exact hnext _ _ hresult _

/-- Related results if what is written down agrees. What more is written down behind it, in
`rest` and `rest'`, is needed for sequencing: it begins at the same place on both sides. -/
def agreeing (σ τ : Type) : MonadRel (Recorded σ) (Recorded τ) where
  Rel Q x y := ∀ s t rest rest',
    Exchange.AllAgree (x.exchanges s ++ rest) (y.exchanges t ++ rest') →
      Q (x.result s) (y.result t) ∧ Exchange.AllAgree rest rest'
  pure h s t rest rest' hagree := ⟨h, hagree⟩
  bind {_ _ _ _ Q P x y f g} h hnext s t rest rest' hagree := by
    rw [exchanges_bind, exchanges_bind, List.append_assoc, List.append_assoc] at hagree
    obtain ⟨hresult, hrest⟩ := h s t _ _ hagree
    exact hnext _ _ hresult _ _ _ _ hrest

end Recorded

variable {σ τ : Type}

/-- Services are related to themselves with their exchanges recorded. -/
theorem Services.related_erasing (services : Services (StateM σ)) :
    services.recorded.Related (Recorded.erasing σ) services where
  clock _ := ⟨rfl, rfl⟩
  answer need _ := ⟨.refl need _, rfl⟩
  execute _ _ _ := ⟨.refl _, rfl⟩

/-- Two services are related as far as their exchanges agree. -/
theorem Services.related_agreeing (services : Services (StateM σ))
    (services' : Services (StateM τ)) :
    services.recorded.Related (Recorded.agreeing σ τ) services'.recorded where
  clock _ _ _ _ hagree := Exchange.allAgree_cons.mp hagree
  answer _ _ _ _ _ hagree := by
    obtain ⟨hanswer, hrest⟩ := Exchange.allAgree_cons.mp hagree
    exact ⟨hanswer rfl, hrest⟩
  execute _ _ _ _ _ _ hagree := by
    obtain ⟨hresult, hrest⟩ := Exchange.allAgree_cons.mp hagree
    exact ⟨hresult rfl rfl, hrest⟩

/-- What agrees on all that is written down comes to the same. -/
theorem Recorded.run_eq {α : Type} {x : Recorded σ α} {x' : StateM σ α} {y : Recorded τ α}
    {y' : StateM τ α} (hx : (erasing σ).Rel Eq x x') (hy : (erasing τ).Rel Eq y y')
    (hxy : (agreeing σ τ).Rel Eq x y) (s : σ) (t : τ)
    (hagree : Exchange.AllAgree (x.exchanges s) (y.exchanges t)) : (x'.run s).1 = (y'.run t).1 := by
  have hresult : x.result s = y.result t := by
    refine (hxy s t [] [] ?_).1
    simpa only [List.append_nil] using hagree
  rw [← (hx s).1, hresult, (hy t).1]

-- ================================================================= what is told

/-- A call of one world and the same of another: they wait for the same, or responses are the
same whichever of the two they are made with, while what is exchanged for them agrees. -/
def Task.SameResponses (c : Context) : Task → Task → Prop
  | .waiting p, .waiting p' => p = p'
  | .finished outcome, .finished outcome' =>
      ∀ (σ τ : Type) (services : Services (StateM σ)) (services' : Services (StateM τ)) (s : σ)
        (t : τ) (o : Operation),
        Exchange.AllAgree ((o.conclude services.recorded (c, outcome)).exchanges s)
          ((o.conclude services'.recorded (c, outcome')).exchanges t) →
        ((o.conclude services (c, outcome)).run s).1
          = ((o.conclude services' (c, outcome')).run t).1
  | _, _ => False

/-- Tasks that differ in what a failure says give the same responses. -/
theorem Task.sameResponses_of_redacted (c : Context) {task task' : Task}
    (h : task.redacted = task'.redacted) : task.SameResponses c task' := by
  cases task with
  | waiting p =>
    cases Task.eq_waiting h
    exact rfl
  | finished outcome =>
    cases task' with
    | waiting p => cases h
    | finished outcome' =>
      intro σ τ services services' s t o
      exact Recorded.run_eq (o.conclude_related services.related_erasing c rfl)
        (o.conclude_related services'.related_erasing c rfl)
        (o.conclude_related (services.related_agreeing services') c (Task.finished.inj h)) s t

/-- **Failures of services are not told.** Take two runs from one state of the context, in
which services answer the same to the same questions, unless they fail in both, when they may
fail for different reasons and with different messages. Then a request that runs alone gets
the same response in both, and leaves the same context. And while calls run at the same time,
in whatever order, the contexts remain the same, the calls wait for the same, and those that
have ended give the same responses. -/
theorem Request.hides_failures (settings : ContextSettings) :
    (∀ (σ τ : Type) (services : Services (StateM σ)) (services' : Services (StateM τ)) (s : σ)
        (t : τ) (c : Context) (r : Request),
        Exchange.AllAgree ((r.respond services.recorded settings c).exchanges s)
          ((r.respond services'.recorded settings c).exchanges t) →
        ((r.respond services settings c).run s).1 = ((r.respond services' settings c).run t).1)
      ∧ ∀ (env env' : Outside) (w w' : World env.State) (v v' : World env'.State),
        RunPair env env' settings w v w' v' → w.context = v.context → w.calls = v.calls →
        w'.context = v'.context
          ∧ List.Forall₂ (fun x y => x.1 = y.1 ∧ x.2.SameResponses w'.context y.2)
              w'.calls v'.calls := by
  constructor
  · intro σ τ services services' s t c r
    exact Recorded.run_eq (r.respond_related services.related_erasing settings c)
      (r.respond_related services'.related_erasing settings c)
      (r.respond_related (services.related_agreeing services') settings c) s t
  · intro env env' w w' v v' hrun hcontext hcalls
    obtain ⟨hcontext', hcalls'⟩ := hrun.sameRedacted ⟨hcontext, congrArg _ hcalls⟩
    refine ⟨hcontext', ?_⟩
    rw [← List.forall₂_eq_eq_eq, List.forall₂_map_left_iff, List.forall₂_map_right_iff] at hcalls'
    refine hcalls'.imp fun x y hxy => ?_
    obtain ⟨hcall, htask⟩ := Prod.mk.inj hxy
    exact ⟨hcall, Task.sameResponses_of_redacted _ htask⟩

-- ================================================================ an instance

open MemoryServices (services)

/-- A request that deletes a person. -/
def Request.removal : Request := ⟨"mutation \x7b deletePerson(name: \"Keanu\") \x7d", none, []⟩
def RootField.removal : RootField := ⟨⟨"deletePerson", none, [("name", .string "Keanu")], []⟩, []⟩
def Operation.removal : Operation := ⟨none, .mutation, [.removal], []⟩

theorem Request.parse_removal : Operation.parse removal.text removal.operation removal.vars
    = .ok .removal := by decide +kernel

theorem Compiler.compile_removal :
    ∃ compiled, Compiler.named.compile true .removal [] = .ok compiled :=
  ⟨_, rfl⟩

/-- Services whose database fails. -/
def MemoryServices.failing (e : DatabaseError) : MemoryServices :=
  { ofDocument none with fingerprint := .error e, results := [.error e] }

def Context.named : Context := ⟨some ⟨0, .named, 0⟩, 0, 1, false⟩

/-- What is exchanged for the request: the time, and the failure of its statement. -/
theorem Request.exchanges_removal : ∃ statement parameters, ∀ e,
    (removal.respond services.recorded .steady .named).exchanges (.failing e)
      = [.time 0, .executed statement parameters (.error e)] := by
  obtain ⟨compiled, hcompiled⟩ := Compiler.compile_removal
  refine ⟨compiled.statement, compiled.parameters, fun e => ?_⟩
  have hended : (Task.finished (.served ⟨0, .named, 0⟩)).run services.recorded .steady .named
      = pure (.named, .served ⟨0, .named, 0⟩) := by
    rw [Task.run]
  have hfield := Operation.removal.fieldValue_eq services.recorded .named .removal (by decide)
    hcompiled
  rw [respond_eq, parse_removal]
  show Exchange.time 0
    :: ((Task.finished (.served ⟨0, .named, 0⟩)).run services.recorded .steady .named
      >>= Operation.removal.conclude services.recorded).exchanges (.failing e) = _
  rw [hended]
  show Exchange.time 0
    :: ((Operation.removal.fieldValue services.recorded .named .removal).exchanges (.failing e)
      ++ []) = _
  rw [hfield]
  rfl

/-- A world whose only call waits for a fingerprint. -/
def World.asking (e : DatabaseError) : World MemoryServices :=
  ⟨{ Context.fresh with locked := true }, .failing e,
    [(.snapshot, .waiting (.fingerprinting none))]⟩

/-- The world in which it has failed. -/
def World.failed (e : DatabaseError) : World MemoryServices :=
  ⟨.fresh, { MemoryServices.failing e with fingerprintCalls := 1 },
    [(.snapshot, .finished (.failed (.database e)))]⟩

/-- Two runs in step, whose fingerprints fail differently. -/
theorem RunPair.failed (e e' : DatabaseError) :
    RunPair .memory .memory .steady (.asking e) (.asking e') (.failed e) (.failed e') := by
  have left : Step (Outside.memory.only (.answered .fingerprint (.error e))) .steady (.asking e)
      (.resume 0 (.fingerprinting none)) (.failed e) :=
    .resume rfl (fun h => absurd h (by decide)) ⟨rfl, rfl⟩ rfl
  have right : Step (Outside.memory.only (.answered .fingerprint (.error e'))) .steady
      (.asking e') (.resume 0 (.fingerprinting none)) (.failed e') :=
    .resume rfl (fun h => absurd h (by decide)) ⟨rfl, rfl⟩ rfl
  have agrees : Exchange.Agrees (.answered .fingerprint (.error e))
      (.answered .fingerprint (.error e')) := fun _ => rfl
  have alike : (Event.resume 0 (.fingerprinting none)).Alike (.resume 0 (.fingerprinting none)) :=
    rfl
  exact .cons (.intro agrees alike left right rfl rfl) .nil

/-- Whether the database refuses connections or statements is told neither by the response to
a request to delete a person nor by the end of a call for a snapshot. -/
theorem Request.hides_failures_removal :
    ((removal.respond services .steady .named).run (.failing (.connection "refused"))).1
        = ((removal.respond services .steady .named).run (.failing (.statement "syntax"))).1
      ∧ (World.failed (.connection "refused")).context
        = (World.failed (.statement "syntax")).context
      ∧ List.Forall₂ (fun x y => x.1 = y.1 ∧ x.2.SameResponses .fresh y.2)
          (World.failed (.connection "refused")).calls
          (World.failed (.statement "syntax")).calls := by
  obtain ⟨halone, htogether⟩ := hides_failures .steady
  constructor
  · refine halone _ _ services services _ _ .named removal ?_
    obtain ⟨statement, parameters, hexchanges⟩ := exchanges_removal
    rw [hexchanges, hexchanges]
    exact Exchange.allAgree_cons.mpr ⟨rfl, Exchange.allAgree_cons.mpr ⟨fun _ _ => rfl, nofun⟩⟩
  · exact htogether _ _ _ _ _ _ (.failed (.connection "refused") (.statement "syntax")) rfl rfl

end PropertyGraphQL
