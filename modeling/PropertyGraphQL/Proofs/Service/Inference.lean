/-
An inferred catalog that is out of date can be told by its fingerprint.

Without a stored document, a snapshot is made of samples of the graph, and
carries the fingerprint that was asked for before them. The graph may change
in between, and while any call waits. So a snapshot may be of a graph that
its fingerprint is not of; but then it is a later one, and if a fingerprint
that was left never comes back, no graph to come has the fingerprint of the
snapshot any more. Where the fingerprint is that of the present graph, the
graph has not changed since it was read, so the samples are of that graph
too (`catalog_of_fingerprint_eq`).

What is answered to a call need not be the latest: it was right at some
moment at which the call waited for it (`Observes`). The argument rides on
the order of the two waits. At the moment of which the samples are, the call
already knew the fingerprint, so that is of this moment or of one before
(`exists_fingerprint`).
-/
import PropertyGraphQL.Proofs.Service.Execution
import PropertyGraphQL.Proofs.Service.Together

namespace PropertyGraphQL

variable {env : Outside} {settings : ContextSettings}

-- ============================================================ fingerprints

/-- A fingerprint that is answered to a call. -/
inductive Pending.Reads : (p : Pending) → p.need.Answer → Int → Prop
  | comparing {seen : Snapshot} {fingerprint : Int} :
      Reads (.comparing seen) (.ok fingerprint) fingerprint
  | fingerprinting {stale : Option Snapshot} {fingerprint : Int} :
      Reads (.fingerprinting stale) (.ok fingerprint) fingerprint
  | confirming {catalog : Catalog} {fingerprint : Int} :
      Reads (.confirming catalog) (.ok fingerprint) fingerprint

/-- The fingerprint that a call has asked for. -/
def Pending.fingerprint? : Pending → Option Int
  | loading _ fingerprint | sampling _ fingerprint => some fingerprint
  | comparing _ | building _ | fingerprinting _ => none
  | replacing _ | saving .. | confirming _ | deleting | erasing => none

/-- A call that begins has read no fingerprint yet. -/
theorem Started.fingerprint?_eq {now : Nat} {c : Context} {call : Call} {p : Pending}
    {next : Context × Task} (h : Started settings now c call next) (hp : next.2 = .waiting p) :
    p.fingerprint? = none := by
  cases h with
  | missing | due | replace | delete =>
    cases hp
    rfl
  | recent => cases hp

/-- A call knows the fingerprint that it knew before or that it was just answered. -/
theorem Resumed.fingerprint? {now : Nat} {c : Context} {p p' : Pending} {answer : p.need.Answer}
    {next : Context × Task} {fingerprint : Int} (h : Resumed settings now c p answer next)
    (hp' : next.2 = .waiting p') (hknown : p'.fingerprint? = some fingerprint) :
    p.fingerprint? = some fingerprint ∨ p.Reads answer fingerprint := by
  cases h with
  | fingerprinted =>
    cases hp'
    cases hknown
    exact .inr .fingerprinting
  | sampling =>
    cases hp'
    exact .inl hknown
  | outdated | building | replacing | saved | deleting =>
    cases hp'
    cases hknown
  | alike | unseen | overtaken | unreadable => cases hp'
  | read | bare | inferred | confirmed => cases hp'
  | unsaved | unconfirmed | erased | unerased => cases hp'
  | @abandoned _ _ stale => cases stale <;> cases hp'

-- ================================================================= graphs

/-- A graph outside, and what it can be asked for. -/
structure GraphView (σ : Type) where
  Graph : Type
  graph : σ → Graph
  fingerprint : Graph → Int
  samples : Graph → List LabelSample

namespace Execution

variable (x : Execution env settings) (v : GraphView env.State)

/-- The graph at a moment. -/
def graphAt (k : Nat) : v.Graph := v.graph (x.world k).outside

/-- What is answered to a call that waits was right at some moment of the wait. -/
structure Observes : Prop where
  fingerprint {k i : Nat} {p : Pending} {answer : p.need.Answer} {fingerprint : Int}
    (hk : k < x.length) (hevent : x.event k = .resume i p)
    (hanswer : env.Answers (x.world k).outside p.need answer (x.world (k + 1)).outside)
    (hreads : p.Reads answer fingerprint) :
    ∃ m, m ≤ k ∧ x.Waits m i p ∧ fingerprint = v.fingerprint (x.graphAt v m)
  samples {k i : Nat} {stale : Option Snapshot} {fingerprint : Int}
    {samples : List LabelSample} (hk : k < x.length)
    (hevent : x.event k = .resume i (.sampling stale fingerprint))
    (hanswer : env.Answers (x.world k).outside (.sample sampleSize) (.ok samples)
      (x.world (k + 1)).outside) :
    ∃ m, m ≤ k ∧ x.Waits m i (.sampling stale fingerprint) ∧ samples = v.samples (x.graphAt v m)

/-- A fingerprint that the graph has again was never left: the graph is what it was, and
has been all the time. -/
def Telling : Prop :=
  ∀ k m l, k ≤ m → m ≤ l → l ≤ x.length →
    v.fingerprint (x.graphAt v k) = v.fingerprint (x.graphAt v l) →
      x.graphAt v m = x.graphAt v k

/-- The graph is sampled, for no document is stored at any moment. -/
structure Infers (document : env.State → Option String) : Prop where
  samples : settings.samples = true
  store : env.KeepsDocument document
  empty : ∀ k, k ≤ x.length → document (x.world k).outside = none

/-- A snapshot of the graph as it was at some moment, with a fingerprint that it had then
or before. -/
def Inferred (k : Nat) (s : Snapshot) : Prop :=
  ∃ m n, m ≤ n ∧ n ≤ k ∧ s.fingerprint = v.fingerprint (x.graphAt v m)
    ∧ Catalog.ofSamples (v.samples (x.graphAt v n)) = .ok s.compiler.catalog

variable {x v} {document : env.State → Option String} {k l i : Nat} {s : Snapshot}

theorem Inferred.mono (h : x.Inferred v k s) (hkl : k ≤ l) : x.Inferred v l s := by
  obtain ⟨m, n, hmn, hnk, hs⟩ := h
  exact ⟨m, n, hmn, by omega, hs⟩

/-- A snapshot whose fingerprint the graph has is one of that graph. -/
theorem Inferred.catalog (h : x.Inferred v k s) (htelling : x.Telling v) (hkl : k ≤ l)
    (hl : l ≤ x.length) (hfingerprint : s.fingerprint = v.fingerprint (x.graphAt v l)) :
    Catalog.ofSamples (v.samples (x.graphAt v l)) = .ok s.compiler.catalog := by
  obtain ⟨m, n, hmn, hnk, hread, hcatalog⟩ := h
  have hsame := hread.symm.trans hfingerprint
  have hsampled : x.graphAt v n = x.graphAt v m := htelling m n l hmn (by omega) hl hsame
  have hpresent : x.graphAt v l = x.graphAt v m :=
    htelling m l l (by omega) (Nat.le_refl _) hl hsame
  rw [hpresent, ← hsampled]
  exact hcatalog

/-- The fingerprint that a call knows was that of the graph at some moment. -/
theorem exists_fingerprint (hobserves : x.Observes v) (hk : k ≤ x.length) {p : Pending}
    {fingerprint : Int} (hwaits : x.Waits k i p) (hknown : p.fingerprint? = some fingerprint) :
    ∃ m, m ≤ k ∧ fingerprint = v.fingerprint (x.graphAt v m) := by
  induction k generalizing p with
  | zero =>
    obtain ⟨call, hcall⟩ := hwaits
    obtain ⟨outside, hfresh⟩ := x.fresh
    rw [hfresh] at hcall
    cases hcall
  | succ k ih =>
    obtain ⟨call, hcall⟩ := hwaits
    cases (x.step k hk).origin hcall with
    | kept hbefore =>
      obtain ⟨m, hm, heq⟩ := ih (by omega) ⟨call, hbefore⟩ hknown
      exact ⟨m, by omega, heq⟩
    | began _ _ hstarted =>
      rw [hstarted.fingerprint?_eq rfl] at hknown
      cases hknown
    | resumed hevent hbefore hanswer hresumed =>
      rcases hresumed.fingerprint? rfl hknown with hknown | hreads
      · obtain ⟨m, hm, heq⟩ := ih (by omega) ⟨call, hbefore⟩ hknown
        exact ⟨m, by omega, heq⟩
      · obtain ⟨m, hm, -, heq⟩ := hobserves.fingerprint hk hevent hanswer hreads
        exact ⟨m, by omega, heq⟩

/-- Where no document is stored, no replacement has stored one. -/
theorem Infers.not_confirming (h : x.Infers document) (hk : k ≤ x.length) {catalog : Catalog} :
    ¬ x.Waits k i (.confirming catalog) := by
  rintro ⟨call, hcall⟩
  have hawaits : (x.world k).Awaits document ∧ ∃ holder, (x.world k).HeldBy holder := by
    refine x.invariant (fun outside => ⟨fun i call p hcall => ?_, none, World.heldBy_fresh outside⟩)
      (fun hstep hw => hstep.awaits h.store hw) hk
    cases hcall
  have hcalled := hawaits.1 _ _ _ hcall
  rw [h.empty k hk] at hcalled
  cases hcalled with
  | confirming _ hstored => cases hstored

/-- A snapshot that is made is one of the graph. -/
theorem inferred_of_makes (hinfers : x.Infers document) (hobserves : x.Observes v)
    (hk : k < x.length) (hmakes : (x.world k).context.Makes (x.world (k + 1)).context s) :
    x.Inferred v k s := by
  cases (x.step k hk).effect with
  | kept _ hmade | dropped _ _ hmade =>
    have hnew := hmakes.made
    omega
  | made hevent hcall hanswer hgives hs hmakes' =>
    cases hmakes.current.symm.trans hmakes'.current
    subst hs
    cases hgives with
    | read =>
      have hloaded := hinfers.store.load hanswer
      rw [hinfers.empty k (Nat.le_of_lt hk)] at hloaded
      cases hloaded
    | bare hsamples =>
      rw [hinfers.samples] at hsamples
      cases hsamples
    | confirmed => exact absurd ⟨_, hcall⟩ (hinfers.not_confirming (Nat.le_of_lt hk))
    | inferred hcatalog =>
      obtain ⟨n, hnk, hwaits, rfl⟩ := hobserves.samples hk hevent hanswer
      obtain ⟨m, hmn, hread⟩ := exists_fingerprint hobserves (by omega) hwaits rfl
      exact ⟨m, n, hmn, hnk, hread, hcatalog⟩

/-- Every snapshot around is one of the graph. -/
theorem inferred (hinfers : x.Infers document) (hobserves : x.Observes v) (hk : k ≤ x.length) :
    (∀ s, (x.world k).context.current = some s → x.Inferred v k s)
      ∧ ∀ (i : Nat) (call : Call) (task : Task), (x.world k).calls[i]? = some (call, task) →
        ∀ s, task.seen? = some s → x.Inferred v k s := by
  induction k with
  | zero =>
    obtain ⟨outside, hfresh⟩ := x.fresh
    rw [hfresh]
    exact ⟨nofun, fun _ _ _ hcall => by cases hcall⟩
  | succ k ih =>
    obtain ⟨hcurrent, hseen⟩ := ih (by omega)
    have hmade (s : Snapshot) (hmakes : (x.world k).context.Makes (x.world (k + 1)).context s) :
        x.Inferred v (k + 1) s :=
      (inferred_of_makes hinfers hobserves hk hmakes).mono (Nat.le_succ k)
    constructor
    · intro s hs
      by_cases hbefore : (x.world k).context.current = some s
      · exact (hcurrent s hbefore).mono (Nat.le_succ k)
      · exact hmade s ((x.step k hk).effect.makes hbefore hs)
    · intro i call task hcall s hs
      cases (x.step k hk).saw hcall hs with
      | before hcall hs => exact (hseen _ _ _ hcall s hs).mono (Nat.le_succ k)
      | current hbefore => exact (hcurrent s hbefore).mono (Nat.le_succ k)
      | made hmakes => exact hmade s hmakes

/-- An inferred catalog that is out of date can be told. In a run without a stored
document, whatever the graph does while calls wait, the current snapshot has the
fingerprint of the present graph only if its catalog is inferred from samples of the
present graph. So a comparison of fingerprints that keeps a snapshot keeps one whose
catalog is inferred from samples of the graph that it has been compared with. -/
theorem catalog_of_fingerprint_eq (hinfers : x.Infers document) (hobserves : x.Observes v)
    (htelling : x.Telling v) :
    (∀ k s, k ≤ x.length → (x.world k).context.current = some s →
        s.fingerprint = v.fingerprint (x.graphAt v k) →
          Catalog.ofSamples (v.samples (x.graphAt v k)) = .ok s.compiler.catalog)
      ∧ ∀ k i seen, k < x.length → x.event k = .resume i (.comparing seen) →
        env.Answers (x.world k).outside .fingerprint (.ok seen.fingerprint)
          (x.world (k + 1)).outside →
        ∃ m, m ≤ k ∧ x.Waits m i (.comparing seen)
          ∧ seen.fingerprint = v.fingerprint (x.graphAt v m)
          ∧ Catalog.ofSamples (v.samples (x.graphAt v m)) = .ok seen.compiler.catalog := by
  constructor
  · intro k s hk hcurrent hfingerprint
    have hmade := (inferred hinfers hobserves hk).1 s hcurrent
    exact hmade.catalog htelling (Nat.le_refl _) hk hfingerprint
  · intro k i seen hk hevent hanswer
    obtain ⟨m, hm, ⟨call, hcall⟩, hfingerprint⟩ :=
      hobserves.fingerprint (p := .comparing seen) hk hevent hanswer .comparing
    have hm' : m ≤ x.length := by omega
    have hmade := (inferred hinfers hobserves hm').2 _ _ _ hcall seen rfl
    exact ⟨m, hm, ⟨call, hcall⟩, hfingerprint,
      hmade.catalog htelling (Nat.le_refl _) hm' hfingerprint⟩

end Execution

-- ============================================================= an instance

/-- What services in memory answer stands for the graph. -/
def GraphView.memory : GraphView MemoryServices where
  Graph := Except DatabaseError Int × Except DatabaseError (List LabelSample)
  graph s := (s.fingerprint, s.samples)
  fingerprint g := g.1.toOption.getD 0
  samples g := g.2.toOption.getD []

namespace Execution

/-- Services in memory answer as the graph is at that moment. -/
theorem observes_memory (x : Execution .memory settings) : x.Observes .memory where
  fingerprint {k i p answer fingerprint} hk hevent hanswer hreads := by
    have hstep := hevent ▸ x.step k hk
    refine ⟨k, Nat.le_refl _, hstep.waiting, ?_⟩
    have hread : (x.world k).outside.fingerprint = .ok fingerprint := by
      cases hreads with
      | comparing | fingerprinting | confirming => exact congrArg Prod.fst hanswer
    simp only [graphAt, GraphView.memory, hread, Except.toOption, Option.getD_some]
  samples {k i stale fingerprint samples} hk hevent hanswer := by
    have hstep := hevent ▸ x.step k hk
    refine ⟨k, Nat.le_refl _, hstep.waiting, ?_⟩
    have hread : (x.world k).outside.samples = .ok samples := congrArg Prod.fst hanswer
    simp only [graphAt, GraphView.memory, hread, Except.toOption, Option.getD_some]

end Execution

/-- The graph is sampled, and looked at whenever a snapshot is asked for. -/
def ContextSettings.watchful : ContextSettings := ⟨CompileOptions.standard, 0, true⟩

/-- An empty graph. -/
def MemoryServices.empty : MemoryServices :=
  { ofDocument none with fingerprint := .ok 1 }

/-- A graph of robots, which has another fingerprint. -/
def MemoryServices.robots : MemoryServices :=
  { ofDocument none with fingerprint := .ok 2, samples := .ok [⟨"Robot", [], []⟩] }

/-- The catalog of robots. -/
def Catalog.robots : Catalog := ⟨[("Robot", .blank "Robot")], [], [], []⟩

/-- A snapshot of robots under a fingerprint. -/
def Snapshot.robots (id : Nat) (fingerprint : Int) : Snapshot :=
  ⟨id, ⟨.robots, ContextSettings.watchful.options⟩, fingerprint⟩

namespace Execution

/-- The first robot comes while a call, which knows the fingerprint of the empty graph,
waits to see whether a document is stored. The next call finds another fingerprint, and
the snapshot is made anew. -/
def settling : Execution .memory .watchful where
  length := 12
  world
    | 0 => .fresh .empty
    | 1 => ⟨.fresh, .empty, [(.snapshot, .waiting (.building none))]⟩
    | 2 => ⟨⟨none, 0, 0, true⟩, .empty, [(.snapshot, .waiting (.fingerprinting none))]⟩
    | 3 => ⟨⟨none, 0, 0, true⟩, { MemoryServices.empty with fingerprintCalls := 1 },
        [(.snapshot, .waiting (.loading none 1))]⟩
    | 4 => ⟨⟨none, 0, 0, true⟩, .robots, [(.snapshot, .waiting (.loading none 1))]⟩
    | 5 => ⟨⟨none, 0, 0, true⟩, .robots, [(.snapshot, .waiting (.sampling none 1))]⟩
    | 6 => ⟨⟨some (.robots 0 1), 0, 1, false⟩, { MemoryServices.robots with sampleCalls := [10] },
        [(.snapshot, .finished (.served (.robots 0 1)))]⟩
    | 7 => ⟨⟨some (.robots 0 1), 0, 1, false⟩, { MemoryServices.robots with sampleCalls := [10] },
        [(.snapshot, .finished (.served (.robots 0 1))),
          (.snapshot, .waiting (.comparing (.robots 0 1)))]⟩
    | 8 => ⟨⟨some (.robots 0 1), 0, 1, false⟩,
        { MemoryServices.robots with fingerprintCalls := 1, sampleCalls := [10] },
        [(.snapshot, .finished (.served (.robots 0 1))),
          (.snapshot, .waiting (.building (some (.robots 0 1))))]⟩
    | 9 => ⟨⟨some (.robots 0 1), 0, 1, true⟩,
        { MemoryServices.robots with fingerprintCalls := 1, sampleCalls := [10] },
        [(.snapshot, .finished (.served (.robots 0 1))),
          (.snapshot, .waiting (.fingerprinting (some (.robots 0 1))))]⟩
    | 10 => ⟨⟨some (.robots 0 1), 0, 1, true⟩,
        { MemoryServices.robots with fingerprintCalls := 2, sampleCalls := [10] },
        [(.snapshot, .finished (.served (.robots 0 1))),
          (.snapshot, .waiting (.loading (some (.robots 0 1)) 2))]⟩
    | 11 => ⟨⟨some (.robots 0 1), 0, 1, true⟩,
        { MemoryServices.robots with fingerprintCalls := 2, sampleCalls := [10] },
        [(.snapshot, .finished (.served (.robots 0 1))),
          (.snapshot, .waiting (.sampling (some (.robots 0 1)) 2))]⟩
    | _ => ⟨⟨some (.robots 1 2), 0, 2, false⟩,
        { MemoryServices.robots with fingerprintCalls := 2, sampleCalls := [10, 10] },
        [(.snapshot, .finished (.served (.robots 0 1))),
          (.snapshot, .finished (.served (.robots 1 2)))]⟩
  event
    | 0 | 6 => .start .snapshot
    | 1 => .resume 0 (.building none)
    | 2 => .resume 0 (.fingerprinting none)
    | 3 => .pass
    | 4 => .resume 0 (.loading none 1)
    | 5 => .resume 0 (.sampling none 1)
    | 7 => .resume 1 (.comparing (.robots 0 1))
    | 8 => .resume 1 (.building (some (.robots 0 1)))
    | 9 => .resume 1 (.fingerprinting (some (.robots 0 1)))
    | 10 => .resume 1 (.loading (some (.robots 0 1)) 2)
    | _ => .resume 1 (.sampling (some (.robots 0 1)) 2)
  fresh := ⟨.empty, rfl⟩
  step k hk := by
    match k with
    | 0 | 6 => exact .start rfl
    | 1 | 8 => exact .resume rfl (fun _ => rfl) rfl rfl
    | 2 | 4 | 5 | 7 | 9 | 10 | 11 => exact .resume rfl nofun rfl rfl
    | 3 => exact .pass rfl
    | k + 12 => omega

/-- In this execution nobody stores a document, and there is a sampler. -/
theorem infers_settling : settling.Infers MemoryServices.document where
  samples := rfl
  store := Outside.keepsDocument_memory
  empty k hk := by
    match k with
    | 0 | 1 | 2 | 3 | 4 | 5 | 6 | 7 | 8 | 9 | 10 | 11 | k + 12 => rfl

/-- The graph gets its first node between the moments 3 and 4. -/
theorem graphAt_settling (k : Nat) : settling.graphAt .memory k
    = if k ≤ 3 then (.ok 1, .ok []) else (.ok 2, .ok [⟨"Robot", [], []⟩]) := by
  match k with
  | 0 | 1 | 2 | 3 | 4 | 5 | 6 | 7 | 8 | 9 | 10 | 11 => rfl
  | k + 12 => rw [if_neg (by omega)]; rfl

/-- The fingerprints tell the two graphs of this execution apart. -/
theorem telling_settling : settling.Telling .memory := by
  intro k m l hkm hml _ hsame
  rw [graphAt_settling, graphAt_settling] at hsame
  rw [graphAt_settling, graphAt_settling]
  by_cases hk : k ≤ 3
  · by_cases hl : l ≤ 3
    · rw [if_pos hk, if_pos (by omega)]
    · rw [if_pos hk, if_neg hl] at hsame
      exact absurd hsame (by decide)
  · rw [if_neg hk, if_neg (by omega)]

/-- The execution rebuilds until the snapshot is of the graph with the node. -/
theorem catalog_of_fingerprint_eq_settling :
    settling.Infers MemoryServices.document ∧ settling.Observes .memory
      ∧ settling.Telling .memory
      ∧ (settling.world 12).context.current = some (.robots 1 2)
      ∧ (Snapshot.robots 1 2).fingerprint
        = GraphView.memory.fingerprint (settling.graphAt .memory 12)
      ∧ Catalog.ofSamples [⟨"Robot", [], []⟩] = .ok (Snapshot.robots 1 2).compiler.catalog := by
  refine ⟨infers_settling, observes_memory _, telling_settling, rfl, rfl, ?_⟩
  obtain ⟨hcurrent, -⟩ :=
    catalog_of_fingerprint_eq infers_settling (observes_memory _) telling_settling
  exact hcurrent 12 (.robots 1 2) (Nat.le_refl _) rfl rfl

end Execution

end PropertyGraphQL
