/-
What the names of a schema document stand for.

The vocabulary is gathered before any definition is taken, so a name may be
used ahead of its definition. What a name stands for is said by the
definitions of that name alone (`agree_named`), and the root types by the
definitions of root types alone (`roots_filter`); the order among the others
does not count. Whatever is made of a field depends on the vocabulary through
the kinds of its names and nothing else (`addField_congr`).
-/
import PropertyGraphQL.Model.Schema
import PropertyGraphQL.Proofs.Data.Dict

namespace PropertyGraphQL

-- ============================================================ definitions

namespace SchemaItem

/-- Whether it defines or extends the type of a name. -/
def isNamed (name : String) : SchemaItem → Bool
  | .type d => d.name = name
  | _ => false

/-- Whether it gives the root types. -/
def isRoots : SchemaItem → Bool
  | .roots _ _ => true
  | _ => false

/-- Whether it says that a name stands for scalars or for the values of an enum. -/
def declaresValues (name : String) : SchemaItem → Bool
  | .type ⟨n, _, _, .scalar, _⟩ => n = name
  | .type ⟨n, _, _, .enum _, _⟩ => n = name
  | _ => false

end SchemaItem

/-- The definitions of a name. -/
abbrev SchemaDocument.named (d : SchemaDocument) (name : String) : SchemaDocument :=
  d.filter (·.isNamed name)

/-- Whether a name stands for scalars or for the values of an enum. -/
def SchemaDocument.hasValueType (d : SchemaDocument) (name : String) : Bool :=
  (Kind.builtin? name).isSome || d.any (·.declaresValues name)

namespace Vocabulary

/-- Vocabularies that say the same of a name. -/
structure Agree (v v' : Vocabulary) (name : String) : Prop where
  enum : v.enums.get? name = v'.enums.get? name
  scalar : name ∈ v.scalars ↔ name ∈ v'.scalars

variable {v v' : Vocabulary} {name : String}

theorem Agree.refl (v : Vocabulary) (name : String) : v.Agree v name := ⟨rfl, Iff.rfl⟩

theorem Agree.trans {v'' : Vocabulary} (h : v.Agree v' name) (h' : v'.Agree v'' name) :
    v.Agree v'' name :=
  ⟨h.enum.trans h'.enum, h.scalar.trans h'.scalar⟩

/-- Every definition adds the same to both. -/
theorem Agree.add (h : v.Agree v' name) (item : SchemaItem) :
    (v.add item).Agree (v'.add item) name := by
  cases item with
  | roots query mutation => exact ⟨h.enum, h.scalar⟩
  | directive => exact h
  | type d =>
    obtain ⟨n, isExtension, description, body, place⟩ := d
    cases body with
    | enum values =>
      refine ⟨?_, h.scalar⟩
      by_cases hn : n = name
      · subst hn
        simp [Vocabulary.add, Dict.get?_insert, h.enum]
      · simp [Vocabulary.add, Dict.get?_insert, hn, h.enum]
    | scalar =>
      refine ⟨h.enum, ?_⟩
      simp [Vocabulary.add, h.scalar]
    | object interfaces fields => exact h
    | interface interfaces fields => exact h
    | other => exact h

/-- What is said of one name is not said of another. -/
theorem agree_add (v : Vocabulary) {item : SchemaItem} (h : item.isNamed name = false) :
    (v.add item).Agree v name := by
  cases item with
  | roots query mutation => exact ⟨rfl, Iff.rfl⟩
  | directive => exact .refl v name
  | type d =>
    obtain ⟨n, isExtension, description, body, place⟩ := d
    have hn : n ≠ name := of_decide_eq_false h
    cases body with
    | enum values =>
      refine ⟨?_, Iff.rfl⟩
      simp [Vocabulary.add, Dict.get?_insert, hn]
    | scalar =>
      refine ⟨rfl, ?_⟩
      simp [Vocabulary.add, hn.symm]
    | object interfaces fields => exact .refl v name
    | interface interfaces fields => exact .refl v name
    | other => exact .refl v name

/-- Where some elements do not matter for what is compared, it is the same without them. -/
theorem foldl_filter {α β : Type} (R : β → β → Prop) (f : β → α → β) (p : α → Bool)
    (hkeep : ∀ a b b', p a = true → R b b' → R (f b a) (f b' a))
    (hdrop : ∀ a b b', p a = false → R b b' → R (f b a) b')
    (as : List α) {b b' : β} (h : R b b') : R (as.foldl f b) ((as.filter p).foldl f b') := by
  induction as generalizing b b' with
  | nil => exact h
  | cons a rest ih =>
    by_cases hp : p a = true
    · rw [List.filter_cons_of_pos hp]
      exact ih (hkeep a b b' hp h)
    · rw [List.filter_cons_of_neg hp]
      exact ih (hdrop a b b' (Bool.eq_false_iff.mpr hp) h)

/-- What a document says of a name, its definitions of the name say. -/
theorem agree_named (d : SchemaDocument) (name : String) :
    (ofDocument d).Agree (ofDocument (d.named name)) name := by
  refine foldl_filter (fun v v' => v.Agree v' name) add (·.isNamed name) ?_ ?_ d (.refl empty name)
  · intro item v v' _ h
    exact h.add item
  · intro item v v' hother h
    exact (agree_add v hother).trans h

theorem Agree.kind (h : v.Agree v' name) : v.kind name = v'.kind name := by
  unfold Vocabulary.kind Dict.contains
  simp only [h.enum, h.scalar]

/-- The root types are what the definitions of root types say. -/
theorem roots_filter (d : SchemaDocument) :
    (ofDocument d).queryRoot = (ofDocument (d.filter (·.isRoots))).queryRoot
      ∧ (ofDocument d).mutationRoot = (ofDocument (d.filter (·.isRoots))).mutationRoot := by
  refine foldl_filter
    (fun v v' => v.queryRoot = v'.queryRoot ∧ v.mutationRoot = v'.mutationRoot)
    add (·.isRoots) ?_ ?_ d ⟨rfl, rfl⟩
  · rintro item v v' hroots ⟨hquery, hmutation⟩
    cases item with
    | roots query mutation =>
      refine ⟨?_, ?_⟩
      · show query.getD v.queryRoot = query.getD v'.queryRoot
        rw [hquery]
      · show mutation.getD v.mutationRoot = mutation.getD v'.mutationRoot
        rw [hmutation]
    | directive => cases hroots
    | type d => cases hroots
  · intro item v v' hother h
    cases item with
    | roots query mutation => cases hother
    | directive => exact h
    | type d =>
      obtain ⟨n, isExtension, description, body, place⟩ := d
      cases body with
      | _ => exact h

/-- No enum is in a vocabulary twice. -/
theorem nodup_enums (d : SchemaDocument) : (ofDocument d).enums.keys.Nodup := by
  have hadd {v : Vocabulary} (h : v.enums.keys.Nodup) (item : SchemaItem) :
      (v.add item).enums.keys.Nodup := by
    cases item with
    | roots query mutation => exact h
    | directive => exact h
    | type d =>
      obtain ⟨n, isExtension, description, body, place⟩ := d
      cases body with
      | enum values => exact Dict.nodup_keys_insert h _ _
      | _ => exact h
  have hfold (v : Vocabulary) (h : v.enums.keys.Nodup) : (d.foldl add v).enums.keys.Nodup := by
    induction d generalizing v with
    | nil => exact h
    | cons item rest ih => exact ih _ (hadd h item)
  exact hfold empty List.nodup_nil

-- ================================================================= values

/-- Whether a name is known to stand for values. -/
def Declared (v : Vocabulary) (name : String) : Prop :=
  name ∈ v.enums.keys ∨ name ∈ v.scalars

/-- A definition declares what it says it declares, besides what was declared. -/
theorem declared_add (v : Vocabulary) (item : SchemaItem) (name : String) :
    (v.add item).Declared name ↔ v.Declared name ∨ item.declaresValues name = true := by
  unfold Declared
  cases item with
  | roots query mutation => simp [add, SchemaItem.declaresValues]
  | directive => simp [add, SchemaItem.declaresValues]
  | type d =>
    obtain ⟨n, isExtension, description, body, place⟩ := d
    cases body with
    | enum values =>
      simp only [add, SchemaItem.declaresValues, Dict.mem_keys_insert, decide_eq_true_eq]
      rw [eq_comm (a := name), or_assoc, or_comm]
    | scalar =>
      simp only [add, SchemaItem.declaresValues, List.mem_cons, decide_eq_true_eq]
      rw [eq_comm (a := name), or_left_comm, or_comm]
    | object interfaces fields => simp [add, SchemaItem.declaresValues]
    | interface interfaces fields => simp [add, SchemaItem.declaresValues]
    | other => simp [add, SchemaItem.declaresValues]

/-- A name is declared exactly if a definition of the document declares it. -/
theorem declared_ofDocument (d : SchemaDocument) (name : String) :
    (ofDocument d).Declared name ↔ d.any (·.declaresValues name) = true := by
  have hfold (v : Vocabulary) : (d.foldl add v).Declared name
      ↔ v.Declared name ∨ d.any (·.declaresValues name) = true := by
    induction d generalizing v with
    | nil => simp
    | cons item rest ih =>
      rw [List.foldl_cons, ih, declared_add, List.any_cons, Bool.or_eq_true, or_assoc]
  have hempty : ¬ empty.Declared name := by
    simp [Declared, empty, Dict.keys]
  rw [ofDocument, hfold, or_iff_right hempty]

/-- Names that nothing is known about stand for entities. -/
theorem kind_ne_object_iff (v : Vocabulary) (name : String) :
    v.kind name ≠ .object ↔ (Kind.builtin? name).isSome = true ∨ v.Declared name := by
  have hbuiltin : Kind.builtin? name ≠ some .object := by
    unfold Kind.builtin?
    split <;> simp
  unfold kind Declared
  cases hkind : Kind.builtin? name with
  | some kind =>
    rw [hkind] at hbuiltin
    simpa using hbuiltin
  | none =>
    by_cases henum : v.enums.contains name = true
    · simp [henum, Dict.contains_iff.mp henum]
    · have hkeys : name ∉ v.enums.keys := fun h => henum (Dict.contains_iff.mpr h)
      by_cases hscalar : name ∈ v.scalars
      · simp [henum, hscalar]
      · simp [henum, hkeys, hscalar]

theorem kind_ofDocument (d : SchemaDocument) (name : String) :
    (ofDocument d).kind name ≠ .object ↔ d.hasValueType name = true := by
  rw [kind_ne_object_iff, declared_ofDocument, SchemaDocument.hasValueType, Bool.or_eq_true]

-- ================================================================= fields

/-- The type of a field depends on the kinds of names alone. -/
theorem fieldType_congr (h : v.kind = v'.kind) : v.fieldType = v'.fieldType := by
  funext t
  induction t with
  | named name nonNull => rw [fieldType, fieldType, h]
  | list element nonNull ih => rw [fieldType, fieldType, ih]

theorem arguments_congr (h : v.kind = v'.kind) : v.arguments = v'.arguments := by
  unfold arguments
  rw [fieldType_congr h]

theorem addField_congr (h : v.kind = v'.kind) : v.addField = v'.addField := by
  unfold addField addProperty addRelationship
  rw [fieldType_congr h, arguments_congr h]

theorem operation_congr (h : v.kind = v'.kind) : v.operation = v'.operation := by
  unfold operation
  rw [fieldType_congr h, arguments_congr h]

end Vocabulary

end PropertyGraphQL
