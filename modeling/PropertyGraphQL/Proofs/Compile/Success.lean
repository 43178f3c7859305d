/-
What follows from a computation's success: each of its steps succeeded,
and its result is made from theirs.
-/
import PropertyGraphQL.Compile.Error

namespace PropertyGraphQL

variable {ε α β : Type}

/-- Two steps succeed exactly if the first does and then the second. -/
theorem bind_eq_ok_iff {x : Except ε α} {f : α → Except ε β} {b : β} :
    (x >>= f) = .ok b ↔ ∃ a, x = .ok a ∧ f a = .ok b := by
  cases x with
  | error e =>
    constructor
    · intro h
      cases h
    · rintro ⟨a, h, -⟩
      cases h
  | ok a =>
    constructor
    · intro h
      exact ⟨a, rfl, h⟩
    · rintro ⟨a', h, hf⟩
      cases h
      exact hf

/-- A result that is mapped is the image of a result. -/
theorem map_eq_ok_iff {x : Except ε α} {f : α → β} {b : β} :
    (f <$> x) = .ok b ↔ ∃ a, x = .ok a ∧ f a = b := by
  cases x with
  | error e =>
    constructor
    · intro h
      cases h
    · rintro ⟨a, h, -⟩
      cases h
  | ok a =>
    constructor
    · intro h
      cases h
      exact ⟨a, rfl, rfl⟩
    · rintro ⟨a', h, hf⟩
      cases h
      exact congrArg Except.ok hf

/-- What every step of a successful run keeps is true at its end. -/
theorem foldlM_invariant {f : β → α → Except ε β} {motive : β → Prop} {as : List α} {b b' : β}
    (hstep : ∀ a ∈ as, ∀ b b', motive b → f b a = .ok b' → motive b') (hstart : motive b)
    (hrun : as.foldlM f b = .ok b') : motive b' := by
  induction as generalizing b with
  | nil =>
    cases hrun
    exact hstart
  | cons a rest ih =>
    rw [List.foldlM_cons] at hrun
    obtain ⟨b₁, hfirst, hrest⟩ := bind_eq_ok_iff.mp hrun
    have hnext := hstep a List.mem_cons_self b b₁ hstart hfirst
    exact ih (fun a' ha' => hstep a' (List.mem_cons_of_mem a ha')) hnext hrest

end PropertyGraphQL
