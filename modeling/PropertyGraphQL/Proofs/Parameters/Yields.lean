/-
What a step of compiling yields, said once and for all parameters.

Parameters are bound as a statement is compiled, so what an expression
made early on denotes is settled only at the end. `Yields` says of a step
what holds of its result under any parameters that keep what was bound
when the step was done. A value once bound is kept: it is never replaced,
except by an equal one (`keeps_set`). So what two steps yield holds of
both results under the same final parameters (`Yields.bind`), whatever
else is bound before, between and after them.
-/
import Mathlib.Data.List.Forall2
import PropertyGraphQL.Proofs.Compile.Success
import PropertyGraphQL.Proofs.Data.Equality
import PropertyGraphQL.Proofs.Parameters.FreeName

namespace PropertyGraphQL

open Cypher

-- ================================================================ keeping

/-- Every name has an equal value in the other dictionary. -/
def Dict.Keeps (d e : Dict Json) : Prop :=
  ∀ ⦃name v⦄, d.get? name = some v → ∃ w, e.get? name = some w ∧ v.Agrees w

theorem Dict.Keeps.refl (d : Dict Json) : d.Keeps d :=
  fun _ _ h => ⟨_, h, .inl rfl⟩

/-- What is kept twice is kept. -/
theorem Dict.Keeps.trans {d e f : Dict Json} (hde : d.Keeps e) (hef : e.Keeps f) :
    d.Keeps f := by
  intro name v hv
  obtain ⟨w, hw, hvw⟩ := hde hv
  obtain ⟨x, hx, hwx⟩ := hef hw
  exact ⟨x, hx, hvw.trans hwx⟩

/-- A name may be set to a value that it may stand for. -/
theorem Parameters.keeps_set {p : Parameters} {name : String} {value : Json}
    (h : p.available value name = true) : p.bound.Keeps (p.set name value).bound := by
  intro other v hv
  unfold Parameters.set
  rw [Dict.get?_insert]
  split
  · next heq =>
    refine ⟨value, rfl, .inr ?_⟩
    unfold Parameters.available at h
    rw [heq, hv] at h
    exact h
  · exact ⟨v, hv, .inl rfl⟩

/-- A parameter that has an equal value. -/
def Cypher.Expression.BoundTo (parameters : Dict Json) (value : Json) (e : Expression) :
    Prop :=
  ∃ name w, e = .parameter name ∧ parameters.get? name = some w ∧ value.Agrees w

-- ================================================================= yields

namespace Compiling

variable {α β : Type} {vars : Dict Json}

/-- The step keeps what is bound, and `post` holds of its result under any
parameters that keep what is bound then. -/
def Yields (vars : Dict Json) (step : Compiling α) (post : Dict Json → α → Prop) : Prop :=
  ∀ ⦃p q : Parameters⦄ ⦃a : α⦄, p.vars = vars → step.run p = .ok (a, q) →
    q.vars = vars ∧ p.bound.Keeps q.bound
      ∧ ∀ ⦃final : Dict Json⦄, q.bound.Keeps final → post final a

namespace Yields

/-- What is said of a result implies whatever follows from it. -/
theorem mono {step : Compiling α} {post post' : Dict Json → α → Prop}
    (h : Yields vars step post) (himp : ∀ final a, post final a → post' final a) :
    Yields vars step post' := by
  intro p q a hp hstep
  obtain ⟨hq, hkeeps, hpost⟩ := h hp hstep
  exact ⟨hq, hkeeps, fun _ hfinal => himp _ _ (hpost hfinal)⟩

/-- What holds of a value under all parameters holds of a step that gives it. -/
theorem pure {a : α} {post : Dict Json → α → Prop} (h : ∀ final, post final a) :
    Yields vars (Pure.pure a) post := by
  intro p q b hp hstep
  cases hstep
  exact ⟨hp, .refl _, fun _ _ => h _⟩

/-- Of a step that fails everything may be said. -/
theorem throw {e : CompileError} {post : Dict Json → α → Prop} :
    Yields vars (throw e) post := by
  intro p q b _ hstep
  cases hstep

/-- Two things that are said of a result hold together. -/
theorem and {step : Compiling α} {post post' : Dict Json → α → Prop} (h : Yields vars step post)
    (h' : Yields vars step post') :
    Yields vars step fun final a => post final a ∧ post' final a := by
  intro p q a hp hstep
  obtain ⟨hq, hkeeps, hpost⟩ := h hp hstep
  obtain ⟨-, -, hpost'⟩ := h' hp hstep
  exact ⟨hq, hkeeps, fun _ hfinal => ⟨hpost hfinal, hpost' hfinal⟩⟩

/-- A step that can fail and binds nothing. -/
theorem lift (x : Except CompileError α) :
    Yields vars (liftM x) fun _ a => x = .ok a := by
  intro p q a hp hstep
  cases x with
  | error e => cases hstep
  | ok b =>
    cases hstep
    exact ⟨hp, .refl _, fun _ _ => rfl⟩

/-- What the second step yields may rest on what the first one yielded: the
final parameters are the same for both. -/
theorem bind {step : Compiling α} {next : α → Compiling β}
    {post : Dict Json → α → Prop} {post' : Dict Json → β → Prop} (h : Yields vars step post)
    (hnext : ∀ a, Yields vars (next a) fun final b => post final a → post' final b) :
    Yields vars (step >>= next) post' := by
  intro p r b hp hrun
  obtain ⟨⟨a, q⟩, hstep, hrest⟩ := bind_eq_ok_iff.mp hrun
  obtain ⟨hq, hpq, hpost⟩ := h hp hstep
  obtain ⟨hr, hqr, hpost'⟩ := hnext a hq hrest
  exact ⟨hr, hpq.trans hqr, fun _ hfinal => hpost' hfinal (hpost (hqr.trans hfinal))⟩

/-- What is said of a result is said of what becomes of it. -/
theorem map {step : Compiling α} {f : α → β} {post : Dict Json → α → Prop}
    {post' : Dict Json → β → Prop} (h : Yields vars step post)
    (hf : ∀ final a, post final a → post' final (f a)) :
    Yields vars (f <$> step) post' := by
  rw [← bind_pure_comp]
  exact h.bind fun a => .pure fun final => hf final a

/-- Mapping a list gives results of which the same is said element by element. -/
theorem mapM {f : α → Compiling β} {post : Dict Json → α → β → Prop} (as : List α)
    (h : ∀ a ∈ as, Yields vars (f a) fun final b => post final a b) :
    Yields vars (as.mapM f) fun final bs => List.Forall₂ (post final) as bs := by
  induction as with
  | nil =>
    rw [List.mapM_nil]
    exact .pure fun _ => .nil
  | cons a rest ih =>
    rw [List.mapM_cons]
    have hrest := ih fun b hb => h b (List.mem_cons_of_mem a hb)
    refine (h a List.mem_cons_self).bind fun b => hrest.bind fun bs => .pure fun _ => ?_
    intro hbs hb
    exact .cons hb hbs

/-- What a successful run from no parameters yields holds under those that
the statement ends up with. -/
theorem of_run {step : Compiling α} {post : Dict Json → α → Prop} (h : Yields vars step post)
    {a : α} {p : Parameters} (hrun : step.run ⟨vars, []⟩ = .ok (a, p)) : post p.bound a :=
  (h rfl hrun).2.2 (.refl _)

end Yields

-- ================================================================= steps

/-- A value bound to a parameter is what that parameter has in the end. -/
theorem yields_bind (name : String) (value : Json) :
    Yields vars (Compiling.bind name value) fun final e => e.BoundTo final value := by
  intro p q e hp hstep
  cases hstep
  refine ⟨hp, Parameters.keeps_set (p.available_freeName name value), fun final hfinal => ?_⟩
  obtain ⟨w, hw, hvalue⟩ := hfinal (Dict.get?_insert_self p.bound (p.freeName name value) value)
  exact ⟨_, w, rfl, hw, hvalue⟩

end Compiling

end PropertyGraphQL
