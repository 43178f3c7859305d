/-
Equality of what is read can be decided.

Data, values of documents and selections are trees, and two trees are equal
exactly if they are alike at every node (`Json.identical_iff`,
`Value.identical_iff`, `Selection.identical_iff`). Schema documents, catalogs
and operations are records of these. So what a text is read as may be
evaluated, and compared with what it should be.
-/
import PropertyGraphQL.Model.Catalog
import PropertyGraphQL.Request.Operation

namespace PropertyGraphQL

-- ==================================================================== data

namespace Json

mutual

/-- Whether data are equal, integers and floats apart. -/
def identical : Json → Json → Bool
  | .null, .null => true
  | .bool a, .bool b => a == b
  | .int a, .int b => a == b
  | .float a, .float b => a == b
  | .str a, .str b => a == b
  | .arr as, .arr bs => identicalElems as bs
  | .obj as, .obj bs => identicalMembers as bs
  | _, _ => false

def identicalElems : List Json → List Json → Bool
  | [], [] => true
  | a :: as, b :: bs => identical a b && identicalElems as bs
  | _, _ => false

def identicalMembers : List (String × Json) → List (String × Json) → Bool
  | [], [] => true
  | (k, a) :: as, (l, b) :: bs => k == l && identical a b && identicalMembers as bs
  | _, _ => false

end

mutual

/-- Data are identical exactly if they are equal. -/
theorem identical_iff (a b : Json) : identical a b = true ↔ a = b := by
  cases a with
  | arr as =>
    cases b with
    | arr bs => rw [identical, identicalElems_iff, arr.injEq]
    | _ => simp only [identical, Bool.false_eq_true, reduceCtorEq]
  | obj as =>
    cases b with
    | obj bs => rw [identical, identicalMembers_iff, obj.injEq]
    | _ => simp only [identical, Bool.false_eq_true, reduceCtorEq]
  | _ =>
    cases b with
    | _ => simp [identical]

/-- Lists of data are identical exactly if they are equal. -/
theorem identicalElems_iff (as bs : List Json) : identicalElems as bs = true ↔ as = bs := by
  match as, bs with
  | [], [] => simp only [identicalElems]
  | [], _ :: _ => simp only [identicalElems, Bool.false_eq_true, reduceCtorEq]
  | _ :: _, [] => simp only [identicalElems, Bool.false_eq_true, reduceCtorEq]
  | a :: as, b :: bs =>
    rw [identicalElems, Bool.and_eq_true, identical_iff a b, identicalElems_iff as bs,
      List.cons.injEq]

/-- Members are identical exactly if they are equal. -/
theorem identicalMembers_iff (as bs : List (String × Json)) :
    identicalMembers as bs = true ↔ as = bs := by
  match as, bs with
  | [], [] => simp only [identicalMembers]
  | [], _ :: _ => simp only [identicalMembers, Bool.false_eq_true, reduceCtorEq]
  | _ :: _, [] => simp only [identicalMembers, Bool.false_eq_true, reduceCtorEq]
  | (k, a) :: as, (l, b) :: bs =>
    rw [identicalMembers, Bool.and_eq_true, Bool.and_eq_true, beq_iff_eq, identical_iff a b,
      identicalMembers_iff as bs, List.cons.injEq, Prod.mk.injEq]

end

instance : DecidableEq Json := fun a b => decidable_of_iff _ (identical_iff a b)

end Json

-- ================================================================== values

namespace Value

mutual

/-- Whether values are equal. -/
def identical : Value → Value → Bool
  | .null, .null => true
  | .int a, .int b => a == b
  | .float a, .float b => a == b
  | .boolean a, .boolean b => a == b
  | .string a, .string b => a == b
  | .enum a, .enum b => a == b
  | .list as, .list bs => identicalElems as bs
  | .object as, .object bs => identicalEntries as bs
  | .var a, .var b => a == b
  | _, _ => false

def identicalElems : List Value → List Value → Bool
  | [], [] => true
  | a :: as, b :: bs => identical a b && identicalElems as bs
  | _, _ => false

def identicalEntries : List (String × Value) → List (String × Value) → Bool
  | [], [] => true
  | (k, a) :: as, (l, b) :: bs => k == l && identical a b && identicalEntries as bs
  | _, _ => false

end

mutual

/-- Values are identical exactly if they are equal. -/
theorem identical_iff (a b : Value) : identical a b = true ↔ a = b := by
  cases a with
  | list as =>
    cases b with
    | list bs => rw [identical, identicalElems_iff, list.injEq]
    | _ => simp only [identical, Bool.false_eq_true, reduceCtorEq]
  | object as =>
    cases b with
    | object bs => rw [identical, identicalEntries_iff, object.injEq]
    | _ => simp only [identical, Bool.false_eq_true, reduceCtorEq]
  | _ =>
    cases b with
    | _ => simp [identical]

/-- Lists of values are identical exactly if they are equal. -/
theorem identicalElems_iff (as bs : List Value) : identicalElems as bs = true ↔ as = bs := by
  match as, bs with
  | [], [] => simp only [identicalElems]
  | [], _ :: _ => simp only [identicalElems, Bool.false_eq_true, reduceCtorEq]
  | _ :: _, [] => simp only [identicalElems, Bool.false_eq_true, reduceCtorEq]
  | a :: as, b :: bs =>
    rw [identicalElems, Bool.and_eq_true, identical_iff a b, identicalElems_iff as bs,
      List.cons.injEq]

/-- Entries are identical exactly if they are equal. -/
theorem identicalEntries_iff (as bs : List (String × Value)) :
    identicalEntries as bs = true ↔ as = bs := by
  match as, bs with
  | [], [] => simp only [identicalEntries]
  | [], _ :: _ => simp only [identicalEntries, Bool.false_eq_true, reduceCtorEq]
  | _ :: _, [] => simp only [identicalEntries, Bool.false_eq_true, reduceCtorEq]
  | (k, a) :: as, (l, b) :: bs =>
    rw [identicalEntries, Bool.and_eq_true, Bool.and_eq_true, beq_iff_eq, identical_iff a b,
      identicalEntries_iff as bs, List.cons.injEq, Prod.mk.injEq]

end

instance : DecidableEq Value := fun a b => decidable_of_iff _ (identical_iff a b)

end Value

-- ============================================================== selections

deriving instance DecidableEq for AppliedDirective, FieldHead

namespace Selection

mutual

/-- Whether selections are equal. -/
def identical : Selection → Selection → Bool
  | .field head ss, .field head' ss' => head == head' && identicalAll ss ss'
  | .fragment condition ss, .fragment condition' ss' =>
      condition == condition' && identicalAll ss ss'
  | _, _ => false

def identicalAll : List Selection → List Selection → Bool
  | [], [] => true
  | s :: ss, s' :: ss' => identical s s' && identicalAll ss ss'
  | _, _ => false

end

mutual

/-- Selections are identical exactly if they are equal. -/
theorem identical_iff (s s' : Selection) : identical s s' = true ↔ s = s' := by
  match s, s' with
  | .field _ ss, .field _ ss' =>
    rw [identical, Bool.and_eq_true, beq_iff_eq, identicalAll_iff ss ss', field.injEq]
  | .fragment _ ss, .fragment _ ss' =>
    rw [identical, Bool.and_eq_true, beq_iff_eq, identicalAll_iff ss ss', fragment.injEq]
  | .field _ _, .fragment _ _ => simp only [identical, Bool.false_eq_true, reduceCtorEq]
  | .fragment _ _, .field _ _ => simp only [identical, Bool.false_eq_true, reduceCtorEq]

/-- Lists of selections are identical exactly if they are equal. -/
theorem identicalAll_iff (ss ss' : List Selection) : identicalAll ss ss' = true ↔ ss = ss' := by
  match ss, ss' with
  | [], [] => simp only [identicalAll]
  | [], _ :: _ => simp only [identicalAll, Bool.false_eq_true, reduceCtorEq]
  | _ :: _, [] => simp only [identicalAll, Bool.false_eq_true, reduceCtorEq]
  | s :: ss, s' :: ss' =>
    rw [identicalAll, Bool.and_eq_true, identical_iff s s', identicalAll_iff ss ss',
      List.cons.injEq]

end

instance : DecidableEq Selection := fun s s' => decidable_of_iff _ (identical_iff s s')

end Selection

-- ================================================================= records

deriving instance DecidableEq for RootField, Operation

deriving instance DecidableEq for DirectiveArgument, Directive, ArgumentDefinition,
  FieldDefinition, TypeBody, TypeDefinition, SchemaItem

deriving instance DecidableEq for CustomStatement, DeclaredArgument, PropertyField,
  RelationshipField, EntityType, RootOperation, Catalog

end PropertyGraphQL
