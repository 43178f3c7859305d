/-
The form of plans.

What is read at once for a field names the entity it is read from and
binds nothing (`Reading`). A traversal starts from that entity, and its own
variable is that of the entity with a key behind it; what it asks is a
condition on its own variable (`Traversal.Formed`). Every plan that
compiling comes to has this form at every depth (`Entries.formed`).
-/
import PropertyGraphQL.Proofs.Outcome.Plan

namespace PropertyGraphQL

open Cypher

-- ================================================================ reading

/-- An expression made of data, of an entity and of its properties, by calls
and maps. -/
inductive Cypher.Expression.Reading (parameters : Dict Json) (entity : String) :
    Expression → Prop where
  | ground {e : Expression} (h : e.Ground parameters) : Reading parameters entity e
  | var : Reading parameters entity (.var entity)
  | property {key : String} : Reading parameters entity (.property entity key)
  | call {function : String} {args : List Expression}
      (h : ∀ e ∈ args, Reading parameters entity e) :
      Reading parameters entity (.call function args)
  | map {entries : List (String × Expression)}
      (h : ∀ entry ∈ entries, Reading parameters entity entry.2) :
      Reading parameters entity (.map entries)

namespace Cypher.Expression.Reading

variable {parameters : Dict Json} {entity : String}

theorem literal (l : Literal) : (Expression.literal l).Reading parameters entity :=
  .ground .literal

/-- A call of one argument. -/
theorem unary {function : String} {e : Expression} (h : e.Reading parameters entity) :
    (Expression.call function [e]).Reading parameters entity := by
  refine .call fun arg harg => ?_
  rw [List.mem_singleton.mp harg]
  exact h

end Cypher.Expression.Reading

-- ================================================================== names

namespace Cypher

/-- A name is made from that of an entity. -/
def NamedBelow (entity name : String) : Prop :=
  ∃ key, name = entity ++ "_" ++ key

namespace NamedBelow

variable {entity name : String}

theorem intro (entity key : String) : NamedBelow entity (entity ++ "_" ++ key) :=
  ⟨key, rfl⟩

/-- A name below a name below an entity is below the entity. -/
theorem trans {other : String} (h : NamedBelow entity name) (h' : NamedBelow name other) :
    NamedBelow entity other := by
  obtain ⟨key, rfl⟩ := h
  obtain ⟨key', rfl⟩ := h'
  exact ⟨key ++ "_" ++ key', by simp only [String.append_assoc]⟩

/-- Such a name is longer than that of the entity. -/
theorem ne (h : NamedBelow entity name) : name ≠ entity := by
  obtain ⟨key, rfl⟩ := h
  intro heq
  have hlength := congrArg String.length heq
  rw [String.length_append, String.length_append] at hlength
  have hone : "_".length = 1 := rfl
  omega

end NamedBelow

end Cypher

-- ================================================================== plans

/-- What the traversals of a plan have in common. -/
structure Traversal.Formed (parameters : Dict Json) (entity : String) (t : Traversal) :
    Prop where
  parent : t.parent = entity
  named : NamedBelow entity t.entity
  source : ∀ source ∈ t.source, source.Reading parameters entity
  condition : t.arguments.condition.Filtering (Expression.Ground parameters) t.entity

namespace Plan

/-- The form of what is read from an entity, at every depth. -/
inductive Formed (parameters : Dict Json) : (entity : String) → List (String × Plan) → Prop where
  | nil {entity : String} : Formed parameters entity []
  | value {entity key : String} {e : Expression} {rest : List (String × Plan)}
      (h : e.Reading parameters entity) (hrest : Formed parameters entity rest) :
      Formed parameters entity ((key, .value e) :: rest)
  | traversal {entity key : String} {t : Traversal} {below rest : List (String × Plan)}
      (h : t.Formed parameters entity) (hbelow : Formed parameters t.entity below)
      (hrest : Formed parameters entity rest) :
      Formed parameters entity ((key, .traversal t below) :: rest)

end Plan

-- =============================================================== outcomes

namespace Outcome

variable {c : Compiler} {vars parameters : Dict Json} {entity : String}

/-- What stands for a declared argument has no variables. -/
theorem Declared.ground {head : FieldHead} {name : String} {declared : DeclaredArgument}
    {e : Expression} (h : Declared vars parameters head name declared e) :
    e.Ground parameters := by
  cases h with
  | given _ he => exact he.ground
  | default => exact .literal
  | missing => exact .literal

/-- What stands for all declared arguments has no variables. -/
theorem ground_of_declared {head : FieldHead} {declared : Dict DeclaredArgument}
    {given : List (String × Expression)}
    (h : List.Forall₂ (fun d g => g.1 = d.1 ∧ Declared vars parameters head d.1 d.2 g.2)
      declared given) : ∀ entry ∈ given, entry.2.Ground parameters := by
  induction h with
  | nil => exact List.forall_mem_nil _
  | cons hfirst _ ih =>
    intro entry hentry
    rcases List.mem_cons.mp hentry with rfl | hentry
    · exact hfirst.2.ground
    · exact ih entry hentry

/-- The run of a statement reads the entity it is run for. -/
theorem Call.reading {custom : CustomStatement} {declared : Dict DeclaredArgument}
    {head : FieldHead} {list : Bool} {call : Expression}
    (h : Call c vars parameters custom declared head entity list call) :
    call.Reading parameters entity := by
  obtain ⟨hgiven⟩ := h
  refine .call fun e he => ?_
  rcases List.mem_cons.mp he with rfl | he
  · exact .literal _
  rcases List.mem_cons.mp he with rfl | he
  · refine .map fun entry hentry => ?_
    rcases List.mem_append.mp hentry with hentry | hentry
    · rcases List.mem_cons.mp hentry with rfl | hentry
      · exact .var
      · obtain ⟨_, _, rfl⟩ := List.mem_map.mp hentry
        exact .literal _
    · exact .ground (ground_of_declared hgiven entry hentry)
  · rw [List.mem_singleton.mp he]
    exact .literal _

/-- The value of a property is read from its entity. -/
theorem Property.reading {f : Collected} {property : PropertyField} {e : Expression}
    (h : Property c vars parameters f property entity e) : e.Reading parameters entity := by
  cases h with
  | stored => exact .property
  | computed _ _ hcall =>
    split
    · exact hcall.reading
    · exact .unary hcall.reading

/-- What is read at once for a field is read from its entity. -/
theorem Field.reading {f : Collected} {e : Expression}
    (h : Field c vars parameters f entity (.inl e)) : e.Reading parameters entity := by
  cases h with
  | id | labels => exact .unary .var
  | typeName => exact .literal _
  | property _ _ h => exact h.reading
  | relationship _ _ _ h =>
    cases h with
    | passThrough _ _ _ _ hcall => exact hcall.reading

/-- The traversal of a field starts from its entity, and its conditions are on what it leads to. -/
theorem Field.formed {f : Collected} {t : Traversal} {target : EntityType}
    (h : Field c vars parameters f entity (.inr (t, target))) : t.Formed parameters entity := by
  cases h with
  | relationship _ _ _ h =>
    cases h with
    | plain _ _ ha => exact ⟨rfl, .intro entity f.key, fun _ h => (by cases h), ha.filtering⟩
    | listed _ _ _ hsource ha =>
      refine ⟨rfl, .intro entity f.key, fun source hmem => ?_, ha.filtering⟩
      cases hmem
      exact hsource.reading

/-- All traversals of a plan are formed in this way. -/
theorem Entries.formed {fields : List Collected} {entries : List (String × Plan)}
    (h : Entries c vars parameters entity fields entries) :
    Plan.Formed parameters entity entries := by
  induction h with
  | nil => exact .nil
  | value h _ ih => exact .value h.reading ih
  | traversal h _ _ ihbelow ihrest => exact .traversal h.formed ihbelow ihrest

end Outcome

end PropertyGraphQL
