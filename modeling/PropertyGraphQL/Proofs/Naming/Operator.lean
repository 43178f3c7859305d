/-
How the name of an argument is read.

The name of a field and the ending of an operator are put together without
a mark between them, so one name may be read in several ways: `born_not_in`
asks a field `born_not` for one of several values, and refuses several
values of a field `born`. A reading counts only if its field is declared,
and of those that count the one with the longest suffix is taken.

All of this rests on there being no two such: two readings of one name with
suffixes of equal length end alike, and no two operators have the same
ending (`Reads.unique`). So the order in which operators with suffixes of
equal length are tried does not matter (`resolveBy_eq_iff`), and the name
that an operator gives a field means this field and operator exactly if no
declared name makes it up with a longer suffix (`resolve_argumentName_iff`).
-/
import PropertyGraphQL.Model.Operator

namespace PropertyGraphQL.Operator

-- ================================================================ endings

theorem length_ending {op : Operator} (h : op ≠ eq) :
    op.ending.length = op.suffix.length + 1 := by
  cases op <;> first | exact absurd rfl h | decide

theorem length_suffix_pos {op : Operator} (h : op ≠ eq) : 0 < op.suffix.length := by
  cases op <;> first | exact absurd rfl h | decide

/-- An operator is found by its ending. -/
theorem find?_ending (op : Operator) :
    (eq :: longestFirst).find? (fun other => other.ending = op.ending) = Option.some op := by
  cases op <;> decide

/-- Operators have different endings. -/
theorem ending_injective {op op' : Operator} (h : op.ending = op'.ending) : op = op' := by
  have hop := op.find?_ending
  rw [h, op'.find?_ending] at hop
  exact (Option.some.inj hop).symm

/-- What is in front of an ending that ends another is an ending, too: `_not` in
`_not_in`, and the whole ending before the empty one of equality. -/
theorem ending_of_append {op op' : Operator} {front : String}
    (h : op'.ending = front ++ op.ending) (hfront : front ≠ "") :
    ∃ op'', op'' ≠ eq ∧ front = op''.ending := by
  have hdrop := Text.dropTail?_eq_some_iff.mpr h
  have htable : ∀ op ∈ eq :: longestFirst, ∀ op' ∈ eq :: longestFirst,
      ∀ front ∈ Text.dropTail? op'.ending op.ending,
        front = "" ∨ ∃ op'' ∈ longestFirst, front = op''.ending := by
    decide +kernel
  have hall (op : Operator) : op ∈ eq :: longestFirst := by
    cases op <;> decide
  rcases htable op (hall op) op' (hall op') front hdrop with hempty | ⟨op'', hmem, hending⟩
  · exact absurd hempty hfront
  · exact ⟨op'', mem_longestFirst.mp hmem, hending⟩

-- =============================================================== readings

variable {declared : String → Bool} {argument field g : String} {op op' : Operator}
  {order : List Operator}

/-- A name read as that of a declared field with an operator written behind it. -/
structure Reads (declared : String → Bool) (argument field : String) (op : Operator) : Prop where
  written : op ≠ eq
  isDeclared : declared field = true
  name : op.argumentName field = argument

/-- Two readings with suffixes of equal length are the same. -/
theorem Reads.unique (h : Reads declared argument field op) (h' : Reads declared argument g op')
    (hlength : op.suffix.length = op'.suffix.length) : field = g ∧ op = op' := by
  have hname : field.toList ++ op.ending.toList = g.toList ++ op'.ending.toList := by
    rw [← String.toList_append, ← String.toList_append]
    exact congrArg String.toList (h.name.trans h'.name.symm)
  have hend : op.ending.toList.length = op'.ending.toList.length := by
    rw [String.length_toList, String.length_toList, length_ending h.written,
      length_ending h'.written, hlength]
  obtain ⟨hfield, hending⟩ := List.append_inj' hname hend
  exact ⟨String.toList_inj.mp hfield, ending_injective (String.toList_inj.mp hending)⟩

/-- A reading none of whose rivals has a longer suffix. -/
structure ReadsLongest (declared : String → Bool) (argument field : String) (op : Operator) : Prop
    extends Reads declared argument field op where
  longest : ∀ g op', Reads declared argument g op' → op'.suffix.length ≤ op.suffix.length

/-- An argument has one longest reading. -/
theorem ReadsLongest.unique (h : ReadsLongest declared argument field op)
    (h' : ReadsLongest declared argument g op') : field = g ∧ op = op' :=
  h.toReads.unique h'.toReads
    (Nat.le_antisymm (h'.longest _ _ h.toReads) (h.longest _ _ h'.toReads))

-- ==================================================== trying the operators

/-- The name read with a given operator. -/
def reading? (declared : String → Bool) (argument : String) (op : Operator) :
    Option (String × Operator) :=
  (Text.dropTail? argument op.ending).bind fun field =>
    if declared field then Option.some (field, op) else Option.none

/-- An operator is tried by taking its ending off the argument; what is left has to be a
declared field. -/
theorem reading?_eq_some_iff (hop : op ≠ eq) :
    reading? declared argument op = Option.some (field, op')
      ↔ op' = op ∧ Reads declared argument field op := by
  rw [reading?, Option.bind_eq_some_iff]
  constructor
  · rintro ⟨g, hdrop, hread⟩
    split at hread
    · next hdeclared =>
      cases hread
      exact ⟨rfl, hop, hdeclared, (Text.dropTail?_eq_some_iff.mp hdrop).symm⟩
    · cases hread
  · rintro ⟨rfl, hreads⟩
    exact ⟨field, Text.dropTail?_eq_some_iff.mpr hreads.name.symm, if_pos hreads.isDeclared⟩

/-- The name read with the first operator of a list that it can be read with; with none,
it is the name of a field. -/
def resolveBy (order : List Operator) (declared : String → Bool) (argument : String) :
    String × Operator :=
  (order.findSome? (reading? declared argument)).getD (argument, eq)

theorem resolve_eq_resolveBy :
    resolve declared argument = resolveBy longestFirst declared argument :=
  rfl

/-- The operators to try: all that are written out, longer suffixes first. -/
structure TriesLongest (order : List Operator) : Prop where
  mem_iff : ∀ op, op ∈ order ↔ op ≠ eq
  sorted : order.Pairwise fun a b => b.suffix.length ≤ a.suffix.length

theorem triesLongest_longestFirst : TriesLongest longestFirst where
  mem_iff _ := mem_longestFirst
  sorted := by decide

/-- If longer suffixes are tried first, the first reading found is the longest. -/
theorem readsLongest_of_findSome? (h : TriesLongest order)
    (hfound : order.findSome? (reading? declared argument) = Option.some (field, op)) :
    ReadsLongest declared argument field op := by
  obtain ⟨before, tried, after, horder, hread, hbefore⟩ := List.findSome?_eq_some_iff.mp hfound
  have hwritten (other : Operator) (hmem : other ∈ order) : other ≠ eq := (h.mem_iff other).mp hmem
  have htried : tried ∈ order := by
    rw [horder]
    exact List.mem_append_right before List.mem_cons_self
  obtain ⟨rfl, hreads⟩ := (reading?_eq_some_iff (hwritten tried htried)).mp hread
  refine ⟨hreads, fun g op' hrival => ?_⟩
  have hrank := h.sorted
  rw [horder, List.pairwise_append, List.pairwise_cons] at hrank
  have hmem := (h.mem_iff op').mpr hrival.written
  rw [horder, List.mem_append, List.mem_cons] at hmem
  rcases hmem with hmem | rfl | hmem
  · -- an operator tried before would have read the name
    have hsome := (reading?_eq_some_iff hrival.written).mpr ⟨rfl, hrival⟩
    rw [hbefore op' hmem] at hsome
    cases hsome
  · exact Nat.le_refl _
  · exact hrank.2.1.1 op' hmem

/-- Trying the operators in any order that puts longer suffixes first gives the longest
reading, or equality if there is none. -/
theorem resolveBy_eq_iff (h : TriesLongest order) :
    resolveBy order declared argument = (field, op)
      ↔ ReadsLongest declared argument field op
        ∨ (field = argument ∧ op = eq ∧ ∀ g op', ¬ Reads declared argument g op') := by
  unfold resolveBy
  cases hfound : order.findSome? (reading? declared argument) with
  | some found =>
    obtain ⟨g, op'⟩ := found
    have hlongest := readsLongest_of_findSome? h hfound
    rw [Option.getD_some, Prod.mk.injEq]
    constructor
    · rintro ⟨rfl, rfl⟩
      exact .inl hlongest
    · rintro (hother | ⟨-, -, hnone⟩)
      · exact hlongest.unique hother
      · exact absurd hlongest.toReads (hnone g op')
  | none =>
    -- an operator that reads the argument would have been found in the order
    have hnone (g : String) (op' : Operator) : ¬ Reads declared argument g op' := by
      intro hreads
      have hread := List.findSome?_eq_none_iff.mp hfound op' ((h.mem_iff op').mpr hreads.written)
      rw [(reading?_eq_some_iff hreads.written).mpr ⟨rfl, hreads⟩] at hread
      cases hread
    rw [Option.getD_none, Prod.mk.injEq]
    constructor
    · rintro ⟨rfl, rfl⟩
      exact .inr ⟨rfl, rfl, hnone⟩
    · rintro (hreads | ⟨rfl, rfl, -⟩)
      · exact absurd hreads.toReads (hnone field op)
      · exact ⟨rfl, rfl⟩

/-- An argument is resolved to its longest reading, or else to equality of the field of its
name. -/
theorem resolve_eq_iff :
    resolve declared argument = (field, op)
      ↔ ReadsLongest declared argument field op
        ∨ (field = argument ∧ op = eq ∧ ∀ g op', ¬ Reads declared argument g op') := by
  rw [resolve_eq_resolveBy, resolveBy_eq_iff triesLongest_longestFirst]

/-- **The longest reading is taken.** What a name is resolved to makes up the name. If this
is an operator that is written out, its field is declared, and no other reading has a longer
suffix; if it is equality, the field has the whole name, and there is no other reading. The
operators may be tried in any order that puts longer suffixes first. -/
theorem resolve_longest (declared : String → Bool) (argument : String) :
    ∃ field op, resolve declared argument = (field, op)
      ∧ op.argumentName field = argument
      ∧ (op ≠ eq → declared field = true ∧ ∀ g op', op' ≠ eq → declared g = true →
          op'.argumentName g = argument → op'.suffix.length ≤ op.suffix.length)
      ∧ (op = eq → field = argument ∧ ∀ g op', op' ≠ eq → declared g = true →
          op'.argumentName g ≠ argument)
      ∧ ∀ order : List Operator, (∀ op, op ∈ order ↔ op ≠ eq) →
          (order.Pairwise fun a b => b.suffix.length ≤ a.suffix.length) →
          resolveBy order declared argument = (field, op) := by
  generalize hresolve : resolve declared argument = found
  obtain ⟨field, op⟩ := found
  have hread := resolve_eq_iff.mp hresolve
  refine ⟨field, op, rfl, ?_, ?_, ?_, fun order hmem hsorted => ?_⟩
  · rcases hread with hread | ⟨rfl, rfl, -⟩
    · exact hread.name
    · exact String.append_empty
  · intro hop
    rcases hread with hread | ⟨-, heq, -⟩
    · exact ⟨hread.isDeclared, fun g op' hop' hg hname => hread.longest g op' ⟨hop', hg, hname⟩⟩
    · exact absurd heq hop
  · intro hop
    rcases hread with hread | ⟨hfield, -, hnone⟩
    · exact absurd hop hread.written
    · exact ⟨hfield, fun g op' hop' hg hname => hnone g op' ⟨hop', hg, hname⟩⟩
  · exact (resolveBy_eq_iff ⟨hmem, hsorted⟩).mpr hread

/-- `name_not_in`, where a field `name` and a field `name_not` are declared, and operators with
suffixes of equal length are tried the other way round. -/
theorem resolve_longest_nameNotIn :
    let names := fun name => ["name", "name_not"].contains name
    let order := [notStartsWith, notEndsWith, notContains, startsWith, endsWith, contains, single,
      notOneOf, every, none, some, lte, gte, neq, oneOf, lt, gt]
    names "name_not" = true ∧ oneOf.argumentName "name_not" = "name_not_in"
      ∧ resolve names "name_not_in" = ("name", notOneOf)
      ∧ oneOf.suffix.length ≤ notOneOf.suffix.length
      ∧ resolveBy order names "name_not_in" = ("name", notOneOf) := by
  intro names order
  have hresolve : resolve names "name_not_in" = ("name", notOneOf) := by decide +kernel
  obtain ⟨field, op, hread, -, hwritten, -, horder⟩ := resolve_longest names "name_not_in"
  rw [hresolve, Prod.mk.injEq] at hread
  obtain ⟨rfl, rfl⟩ := hread
  have hname : oneOf.argumentName "name_not" = "name_not_in" := by decide
  have hmem (op : Operator) : op ∈ order ↔ op ≠ eq := by
    cases op <;> decide
  exact ⟨rfl, hname, hresolve, (hwritten nofun).2 "name_not" oneOf nofun rfl hname,
    horder order hmem (by decide)⟩

-- ===================================================== writing and reading

/-- If the name that an operator gives a field is made up with a longer suffix, the field is
itself called as some operator calls the other field. -/
theorem exists_argumentName_eq (hname : op'.argumentName g = op.argumentName field)
    (hlonger : op.suffix.length < op'.suffix.length) :
    ∃ op'' : Operator, op'' ≠ eq ∧ op''.argumentName g = field := by
  have hop' : op' ≠ eq := by
    rintro rfl
    cases hlonger
  have hshorter : op.ending.length < op'.ending.length := by
    rw [length_ending hop']
    by_cases hop : op = eq
    · subst hop
      exact Nat.succ_pos _
    · rw [length_ending hop]
      exact Nat.succ_lt_succ hlonger
  have hchars : g.toList ++ op'.ending.toList = field.toList ++ op.ending.toList := by
    rw [← String.toList_append, ← String.toList_append]
    exact congrArg String.toList hname
  rcases List.append_eq_append_iff.mp hchars with ⟨front, hfield, hending⟩ | ⟨front, -, hending⟩
  -- the longer ending covers the shorter one and the end of the field
  · have hfront : op'.ending = String.ofList front ++ op.ending := by
      apply String.toList_inj.mp
      rw [String.toList_append, String.toList_ofList, hending]
    have hne : String.ofList front ≠ "" := by
      intro hempty
      rw [hempty, String.empty_append] at hfront
      rw [hfront] at hshorter
      exact Nat.lt_irrefl _ hshorter
    obtain ⟨op'', hop'', heq⟩ := ending_of_append hfront hne
    refine ⟨op'', hop'', String.toList_inj.mp ?_⟩
    rw [argumentName, ← heq, String.toList_append, String.toList_ofList, hfield]
  -- the other way round it would not be the longer one
  · have hlength := congrArg List.length hending
    rw [List.length_append, String.length_toList, String.length_toList] at hlength
    omega

/-- **When an operator reaches a field.** The name that an operator gives a declared field is
read as this field and operator exactly if no declared name makes it up with a longer suffix.
So every operator reaches a field that is not itself called as an operator calls a declared
one. -/
theorem resolve_argumentName_iff {declared : String → Bool} {field : String}
    (hfield : declared field = true) (op : Operator) :
    (resolve declared (op.argumentName field) = (field, op)
        ↔ ∀ (g : String) (op' : Operator), declared g = true →
            op'.argumentName g = op.argumentName field → op'.suffix.length ≤ op.suffix.length)
      ∧ ((∀ (g : String) (op' : Operator), declared g = true → op' ≠ eq →
            op'.argumentName g ≠ field) →
          resolve declared (op.argumentName field) = (field, op)) := by
  have hiff : resolve declared (op.argumentName field) = (field, op)
      ↔ ∀ (g : String) (op' : Operator), declared g = true →
          op'.argumentName g = op.argumentName field → op'.suffix.length ≤ op.suffix.length := by
    rw [resolve_eq_iff]
    constructor
    · rintro hread g op' hg hname
      by_cases hop' : op' = eq
      · subst hop'
        exact Nat.zero_le _
      -- a longer suffix would have been read instead
      · have hrival : Reads declared (op.argumentName field) g op' := ⟨hop', hg, hname⟩
        rcases hread with hread | ⟨-, -, hnone⟩
        · exact hread.longest g op' hrival
        · exact absurd hrival (hnone g op')
    · intro hshort
      by_cases hop : op = eq
      · subst hop
        refine .inr ⟨String.append_empty.symm, rfl, fun g op' hrival => ?_⟩
        have hlength := hshort g op' hrival.isDeclared hrival.name
        exact Nat.not_le_of_lt (length_suffix_pos hrival.written) hlength
      · exact .inl ⟨⟨hop, hfield, rfl⟩, fun g op' hrival =>
          hshort g op' hrival.isDeclared hrival.name⟩
  -- a longer suffix cuts an argument's name out of the field itself
  refine ⟨hiff, fun hfree => hiff.mpr fun g op' hg hname => Nat.le_of_not_lt fun hlonger => ?_⟩
  obtain ⟨op'', hop'', heq⟩ := exists_argumentName_eq hname hlonger
  exact hfree g op'' hg hop'' heq

/-- With a field `name` and a field `name_not`, every operator reaches the first; `in` does
not reach the second, because `name_not_in` refuses values of the first. -/
theorem resolve_argumentName_nameNot :
    let names := fun name => ["name", "name_not"].contains name
    names "name" = true ∧ (∀ op : Operator, resolve names (op.argumentName "name") = ("name", op))
      ∧ names "name_not" = true
      ∧ resolve names (oneOf.argumentName "name_not") ≠ ("name_not", oneOf) := by
  intro names
  refine ⟨rfl, fun op => ?_, rfl, ?_⟩
  · refine (resolve_argumentName_iff rfl op).2 fun g op' hg hop' => ?_
    have hmem : g = "name" ∨ g = "name_not" := by
      simpa [names] using hg
    rcases hmem with rfl | rfl <;> cases op' <;> first | exact absurd rfl hop' | decide
  · intro hread
    have hshort := (resolve_argumentName_iff rfl oneOf).1.mp hread
    exact absurd (hshort "name" notOneOf rfl (by decide)) (by decide)

/-- So not every declared field is reached: where a field `name` is declared, the plain name
of a field `name_not` refuses a value of the first. -/
theorem not_resolve_argumentName :
    ¬ ∀ (declared : String → Bool) (field : String) (op : Operator), declared field = true →
      resolve declared (op.argumentName field) = (field, op) := by
  intro hall
  have hread := hall (fun name => ["name", "name_not"].contains name) "name_not" eq rfl
  have hlost : resolve (fun name => ["name", "name_not"].contains name)
      (eq.argumentName "name_not") = ("name", neq) := by
    decide +kernel
  exact absurd (congrArg Prod.fst (hlost.symm.trans hread)) (by decide)

end PropertyGraphQL.Operator
