/-
The catalog that is inferred from samples of a graph.

Labels that are different give types that do not get in each other's way, so a
catalog is inferred that has the type of every label, or one of the samples is
refused (`Catalog.gathered_or_refused`). Where properties keep away from the names
of relationships, the one thing that is left to go wrong is that two shapes are
observed under one name (`Catalog.exists_ofSamples_iff`), and nothing about a graph
rules that out: `LIKES` to `Pop_Music` and `LIKES_Pop` to `Music` are both called
`LIKES_Pop_Music` (`Catalog.not_exists_ofSamples`).
-/
import PropertyGraphQL.Proofs.Samples.Inferred

namespace PropertyGraphQL

namespace Catalog

-- ============================================================ sample by sample

/-- A catalog that has what the samples taken so far say, label by label. -/
structure Gathers (samples : List LabelSample) (c : Catalog) : Prop where
  names : c.types.keys = samples.map (·.label)
  type : ∀ s ∈ samples, ∃ t, c.type? s.label = some t ∧ s.Infers t

variable {samples : List LabelSample} {c : Catalog}

theorem Gathers.empty : Gathers [] .empty where
  names := rfl
  type := List.forall_mem_nil _

/-- The type for a label that has none yet is added. -/
theorem Gathers.addType (h : c.Gathers samples) {s : LabelSample} {t : EntityType}
    (hinfers : s.Infers t) (hnew : s.label ∉ samples.map (·.label)) :
    ∃ c', c.addType t = .ok c' ∧ c'.Gathers (samples ++ [s]) := by
  have hmissing : s.label ∉ c.types.keys := h.names ▸ hnew
  refine ⟨{ c with types := c.types.insert s.label t }, ?_, ?_, ?_⟩
  · unfold Catalog.addType
    rw [hinfers.name, if_neg fun hmem => hmissing (Dict.contains_iff.mp hmem)]
  · rw [Dict.keys_insert, if_neg hmissing, h.names, List.map_append]
    rfl
  · intro s' hs'
    rw [type?, Dict.get?_insert]
    rcases List.mem_append.mp hs' with hs' | hs'
    · have hother : s.label ≠ s'.label := fun heq =>
        hnew (heq ▸ List.mem_map_of_mem hs')
      rw [if_neg hother]
      exact h.type s' hs'
    · rw [List.mem_singleton.mp hs', if_pos rfl]
      exact ⟨t, rfl, hinfers⟩

/-- **More samples** of further labels are gathered, or one of them is refused. -/
theorem Gathers.run (h : c.Gathers samples) (more : List LabelSample)
    (hlabels : ((samples ++ more).map (·.label)).Nodup) :
    (∃ c', more.foldlM (fun (c : Catalog) s => do c.addType (← s.entityType)) c = .ok c'
        ∧ c'.Gathers (samples ++ more))
      ∨ ∃ s ∈ more, ∃ e, s.Refuses e
        ∧ more.foldlM (fun (c : Catalog) s => do c.addType (← s.entityType)) c = .error e := by
  induction more generalizing c samples with
  | nil =>
    rw [List.append_nil]
    exact .inl ⟨c, rfl, h⟩
  | cons s rest ih =>
    rw [List.append_cons] at hlabels ⊢
    have hnew : s.label ∉ samples.map (·.label) := by
      rw [List.map_append, List.map_append] at hlabels
      have hfirst := (List.nodup_append.mp (List.nodup_append.mp hlabels).1).2.2
      intro hmem
      exact hfirst s.label hmem s.label (List.mem_singleton_self _) rfl
    rw [List.foldlM_cons]
    -- the first sample that is refused ends the run with its error
    rcases s.inferred_or_refused with ⟨t, ht, hinfers⟩ | ⟨e, ht, hrefuses⟩
    · obtain ⟨c₁, hadd, h₁⟩ := h.addType hinfers hnew
      have hfirst : (do c.addType (← s.entityType)) = Except.ok c₁ := by
        rw [ht]
        exact hadd
      rw [hfirst]
      rcases ih h₁ hlabels with hrun | ⟨s', hs', hrun⟩
      · exact .inl hrun
      · exact .inr ⟨s', List.mem_cons_of_mem _ hs', hrun⟩
    · right
      have hfirst : (do c.addType (← s.entityType)) = Except.error e := by
        rw [ht]
        rfl
      rw [hfirst]
      exact ⟨s, List.mem_cons_self, e, hrefuses, rfl⟩

/-- Samples with different labels are all gathered, or one of them is refused and gives its
error. -/
theorem gathered_or_refused (hlabels : (samples.map (·.label)).Nodup) :
    (∃ c, ofSamples samples = .ok c ∧ c.Gathers samples)
      ∨ ∃ s ∈ samples, ∃ e, s.Refuses e ∧ ofSamples samples = .error e :=
  Gathers.empty.run samples hlabels

-- ==================================================================== results

/-- **Inference fails only over a name that two shapes share.** Of samples with different labels,
in which no property that has a value is called like a relationship field of its label, a catalog
is inferred exactly if no two shapes that are observed for one label have the same name; otherwise
the error tells such a label, name and shapes. In a catalog that is inferred every label has its
type, and every shape that is observed for the label, be it a type, a direction or a label at the
other end that differs, has a field of its own there, which is a list if it was observed as one. -/
theorem exists_ofSamples_iff (hlabels : (samples.map (·.label)).Nodup)
    (hapart : ∀ s ∈ samples, ∀ o ∈ s.observations, s.occurs o.name = false) :
    ((∃ c, ofSamples samples = .ok c) ↔ ∀ s ∈ samples, NamesDistinct s.observations)
    ∧ (∀ e, ofSamples samples = .error e → ∃ s ∈ samples, ∃ o ∈ s.observations,
      ∃ o' ∈ s.observations, o.name = o'.name ∧ o.shape ≠ o'.shape
        ∧ e = .relationshipMismatch s.label o.name o.shape o'.shape)
    ∧ ∀ c, ofSamples samples = .ok c →
      c.types.keys = samples.map (·.label)
      ∧ ∀ s ∈ samples, ∃ t, c.type? s.label = some t
        ∧ t.relationships.keys = (s.observations.map (·.name)).eraseDups
        ∧ (∀ o ∈ s.observations, ∀ o' ∈ s.observations, o.shape ≠ o'.shape → o.name ≠ o'.name)
        ∧ ∀ o ∈ s.observations, t.relationship? o.name = some (.plain o.name o.shape
          (s.observations.any fun o' => o'.shape = o.shape && o'.multiple)) := by
  rcases gathered_or_refused hlabels with ⟨c, hc, hgathers⟩ | ⟨s, hs, e, hrefuses, he⟩
  · have hdistinct : ∀ s ∈ samples, NamesDistinct s.observations := by
      intro s hs
      obtain ⟨t, -, hinfers⟩ := hgathers.type s hs
      exact hinfers.consistent.distinct
    refine ⟨iff_of_true ⟨c, hc⟩ hdistinct, fun e he => ?_, fun c' hc' => ?_⟩
    · cases hc.symm.trans he
    · cases hc.symm.trans hc'
      refine ⟨hgathers.names, fun s hs => ?_⟩
      obtain ⟨t, ht, hinfers⟩ := hgathers.type s hs
      refine ⟨t, ht, hinfers.keys, fun o ho o' ho' hne heq => ?_, hinfers.relationship⟩
      exact hne (hdistinct s hs o ho o' ho' heq)
  -- a relationship may not have the name of a property, which `hapart` rules out
  · cases hrefuses with
    | @taken o ho hname =>
      rw [hapart s hs o ho] at hname
      cases hname
    | @clash o o' ho ho' hname hshape =>
      refine ⟨iff_of_false ?_ fun h => ?_, fun e' he' => ?_, fun c hc => ?_⟩
      · intro ⟨c, hc⟩
        cases he.symm.trans hc
      · exact hshape (h s hs o ho o' ho' hname)
      · cases he.symm.trans he'
        exact ⟨s, hs, o, ho, o', ho', hname, hshape, rfl⟩
      · cases he.symm.trans hc

end Catalog

/-- Two people who acted in a movie, one of them in several, and who is followed. -/
def LabelSample.actors : LabelSample where
  label := "Person"
  uniqueProperties := ["name"]
  nodes :=
    [⟨["Person"], [("name", .str "Keanu")], [⟨"ACTED_IN", .outgoing, ["Movie"], false⟩]⟩,
     ⟨["Person", "Director"], [("name", .str "Lana"), ("born", .null)],
      [⟨"ACTED_IN", .outgoing, ["Movie"], true⟩, ⟨"FOLLOWS", .incoming, ["Person"], false⟩]⟩]

/-- The movie that they acted in. -/
def LabelSample.actedIn : LabelSample where
  label := "Movie"
  uniqueProperties := []
  nodes := [⟨["Movie"], [("title", .str "Bound")], [⟨"ACTED_IN", .incoming, ["Person"], true⟩]⟩]

/-- Someone who likes one kind of music and likes the pop of another. -/
def LabelSample.listeners : LabelSample where
  label := "Person"
  uniqueProperties := []
  nodes := [⟨["Person"], [], [⟨"LIKES", .outgoing, ["Pop_Music"], false⟩,
    ⟨"LIKES_Pop", .outgoing, ["Music"], false⟩]⟩]

namespace Catalog

/-- People have a field for the movies that one of them has several of. -/
theorem exists_ofSamples_iff_actors :
    ∃ c t, ofSamples [.actors, .actedIn] = .ok c ∧ c.type? "Person" = some t
      ∧ t.relationships.keys = ["ACTED_IN_Movie", "Person_FOLLOWS"]
      ∧ t.relationship? "ACTED_IN_Movie"
        = some (.plain "ACTED_IN_Movie" ⟨.outgoing, "ACTED_IN", "Movie"⟩ true) := by
  have hlabels : ([.actors, .actedIn].map LabelSample.label).Nodup := by decide
  obtain ⟨hiff, -, hfields⟩ := exists_ofSamples_iff hlabels (by decide)
  have hdistinct : ∀ s ∈ [.actors, .actedIn], NamesDistinct (LabelSample.observations s) := by
    unfold NamesDistinct
    decide
  obtain ⟨c, hc⟩ := hiff.mpr hdistinct
  obtain ⟨-, htypes⟩ := hfields c hc
  obtain ⟨t, ht, hkeys, -, hfield⟩ := htypes .actors List.mem_cons_self
  exact ⟨c, t, hc, ht, hkeys, hfield ⟨⟨.outgoing, "ACTED_IN", "Movie"⟩, false⟩ List.mem_cons_self⟩

/-- Different labels and the absence of properties are not enough for a catalog. -/
theorem not_exists_ofSamples :
    ¬ ∀ samples : List LabelSample, (samples.map (·.label)).Nodup →
      (∀ s ∈ samples, ∀ o ∈ s.observations, ∀ n ∈ s.nodes, o.name ∉ n.properties.keys) →
      ∃ c, ofSamples samples = .ok c := by
  intro h
  obtain ⟨c, hc⟩ := h [.listeners] (by decide) (by decide)
  have hmismatch : ofSamples [.listeners]
      = .error (.relationshipMismatch "Person" "LIKES_Pop_Music"
        ⟨.outgoing, "LIKES", "Pop_Music"⟩ ⟨.outgoing, "LIKES_Pop", "Music"⟩) := rfl
  cases hmismatch.symm.trans hc

end Catalog

end PropertyGraphQL
