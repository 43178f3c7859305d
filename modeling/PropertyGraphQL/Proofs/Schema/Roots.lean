/-
What the definitions of a root make of its operations.

A root may be defined and extended again and again. Each definition adds its
fields under their names, so a later one replaces what an earlier one gave
(`foldlM_define_root`), and only the fields of object types count
(`TypeBody.operationNames`). Hence definitions of a root may be taken in
another order where they declare different operations
(`Dict.get?_insertAll_comm`, `agreeOn_addOperations`).
-/
import PropertyGraphQL.Proofs.Schema.Order

namespace PropertyGraphQL

/-- The names of the operations that it adds to a root. -/
def TypeBody.operationNames : TypeBody → List String
  | .object _ fields => fields.map (·.name)
  | _ => []

namespace Vocabulary

variable {v : Vocabulary}

/-- Whether a name is that of a root. -/
def IsRoot (v : Vocabulary) (name : String) : Prop := name = v.queryRoot ∨ name = v.mutationRoot

/-- Add operations to the root of a name. -/
def addOperations (v : Vocabulary) (name : String) (c : Catalog)
    (ops : List (String × RootOperation)) : Catalog :=
  if name = v.queryRoot then { c with queries := c.queries.insertAll ops }
  else { c with mutations := c.mutations.insertAll ops }

/-- What definitions of a root declare, one after the other. -/
def operationsOf (v : Vocabulary) :
    SchemaDocument → Except SchemaError (List (String × RootOperation))
  | [] => .ok []
  | .type d :: rest => do
      let ops ← v.operations d.body
      let more ← v.operationsOf rest
      return ops ++ more
  | _ :: rest => v.operationsOf rest

/-- The definition of a root adds its operations, and does nothing else. -/
theorem define_root (c : Catalog) {d : TypeDefinition}
    (hroot : v.IsRoot d.name) :
    v.define c (.type d) = v.addOperations d.name c <$> v.operations d.body := by
  rw [define_type]
  unfold addOperations
  by_cases hquery : d.name = v.queryRoot
  · simp only [if_pos hquery]
  · simp only [if_neg hquery, if_pos (hroot.resolve_left hquery)]

/-- Operations may be added in two lots. -/
theorem addOperations_append (v : Vocabulary) (name : String) (c : Catalog)
    (ops more : List (String × RootOperation)) :
    v.addOperations name (v.addOperations name c ops) more
      = v.addOperations name c (ops ++ more) := by
  unfold addOperations
  split
  · rw [Dict.insertAll_append]
  · rw [Dict.insertAll_append]

/-- Definitions of a root add what they declare, and nothing else. -/
theorem foldlM_define_root {name : String} (hroot : v.IsRoot name)
    {ds : SchemaDocument} (hnamed : ∀ item ∈ ds, item.isNamed name = true) (c : Catalog) :
    ds.foldlM v.define c = v.addOperations name c <$> v.operationsOf ds := by
  induction ds generalizing c with
  | nil =>
    unfold operationsOf addOperations
    split
    · rfl
    · rfl
  | cons item rest ih =>
    obtain ⟨hitem, hrest⟩ := List.forall_mem_cons.mp hnamed
    cases item with
    | roots query mutation => cases hitem
    | directive => cases hitem
    | type d =>
      obtain rfl : d.name = name := of_decide_eq_true hitem
      rw [List.foldlM_cons, define_root c hroot, operationsOf]
      cases v.operations d.body with
      | error e => rfl
      | ok ops =>
        show rest.foldlM v.define (v.addOperations d.name c ops) = _
        rw [ih hrest]
        cases v.operationsOf rest with
        | error e => rfl
        | ok more => exact congrArg Except.ok (v.addOperations_append d.name c ops more)

/-- What definitions declare, the first ones declare and then the others. -/
theorem operationsOf_append (v : Vocabulary) (ds ds' : SchemaDocument) :
    v.operationsOf (ds ++ ds') = do
      let ops ← v.operationsOf ds
      let more ← v.operationsOf ds'
      return ops ++ more := by
  induction ds with
  | nil => cases h : v.operationsOf ds' <;> simp [operationsOf, h] <;> rfl
  | cons item rest ih =>
    cases item with
    | roots query mutation => exact ih
    | directive => exact ih
    | type d =>
      rw [List.cons_append, operationsOf, operationsOf, ih]
      cases v.operations d.body with
      | error e => rfl
      | ok ops =>
        cases v.operationsOf rest with
        | error e => rfl
        | ok more =>
          cases v.operationsOf ds' with
          | error e => rfl
          | ok others => exact congrArg Except.ok (List.append_assoc ops more others).symm

/-- Fields declare operations under their names. -/
theorem keys_mapM_operation {fields : List FieldDefinition} {ops : List (String × RootOperation)}
    (h : fields.mapM v.operation = .ok ops) : Dict.keys ops = fields.map (·.name) := by
  induction fields generalizing ops with
  | nil =>
    cases h
    rfl
  | cons f rest ih =>
    rw [List.mapM_cons] at h
    obtain ⟨op, hop, h⟩ := bind_eq_ok_iff.mp h
    obtain ⟨more, hmore, h⟩ := bind_eq_ok_iff.mp h
    obtain ⟨custom, -, hop⟩ := bind_eq_ok_iff.mp hop
    cases h
    cases hop
    rw [List.map_cons, ← ih hmore]
    rfl

/-- Operations are declared under the names of fields. -/
theorem keys_operations {body : TypeBody} {ops : List (String × RootOperation)}
    (h : v.operations body = .ok ops) : Dict.keys ops = body.operationNames := by
  cases body with
  | object interfaces fields => exact keys_mapM_operation h
  | _ =>
    cases h
    rfl

/-- What definitions of a root declare, one of them declares. -/
theorem mem_keys_operationsOf {ds : SchemaDocument} {ops : List (String × RootOperation)}
    (h : v.operationsOf ds = .ok ops) {key : String} (hkey : key ∈ Dict.keys ops) :
    ∃ d, .type d ∈ ds ∧ key ∈ d.body.operationNames := by
  induction ds generalizing ops with
  | nil =>
    cases h
    cases hkey
  | cons item rest ih =>
    have hrest {ops : List (String × RootOperation)} (h : v.operationsOf rest = .ok ops)
        (hkey : key ∈ Dict.keys ops) :
        ∃ d, .type d ∈ item :: rest ∧ key ∈ d.body.operationNames := by
      obtain ⟨d, hmem, hname⟩ := ih h hkey
      exact ⟨d, List.mem_cons_of_mem _ hmem, hname⟩
    cases item with
    | roots query mutation => exact hrest h hkey
    | directive => exact hrest h hkey
    | type d =>
      rw [operationsOf] at h
      obtain ⟨own, hown, h⟩ := bind_eq_ok_iff.mp h
      obtain ⟨more, hmore, h⟩ := bind_eq_ok_iff.mp h
      cases h
      have hboth : Dict.keys (own ++ more) = Dict.keys own ++ Dict.keys more := List.map_append
      rcases List.mem_append.mp (hboth ▸ hkey) with hkey | hkey
      · exact ⟨d, List.mem_cons_self, keys_operations hown ▸ hkey⟩
      · exact hrest hmore hkey

/-- Operations that are found alike once they are added are as good as each other. -/
theorem agreeOn_addOperations (v : Vocabulary) (name : String) (c : Catalog)
    {ops ops' : List (String × RootOperation)}
    (h : ∀ (d : Dict RootOperation) key, (d.insertAll ops).get? key = (d.insertAll ops').get? key) :
    v.AgreeOn name (v.addOperations name c ops) (v.addOperations name c ops') := by
  unfold addOperations
  split
  · exact ⟨rfl, fun _ => h c.queries, fun _ _ => rfl⟩
  · exact ⟨rfl, fun _ _ => rfl, fun _ => h c.mutations⟩

end Vocabulary

end PropertyGraphQL
