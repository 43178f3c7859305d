/-
Taking a text apart: removing a given beginning or ending, splitting at
the last occurrence of a character, splitting into lines.

Each partial operation is pinned down by an equivalence: it gives `r`
exactly when the text is `r` with the affix put back.
-/
namespace PropertyGraphQL.Text

/-- What follows the beginning `lead`, if the list begins with it. -/
def afterLead? : (lead cs : List Char) → Option (List Char)
  | [], cs => some cs
  | _ :: _, [] => none
  | p :: lead, c :: cs => if p = c then afterLead? lead cs else none

theorem afterLead?_eq_some_iff {lead cs rest : List Char} :
    afterLead? lead cs = some rest ↔ cs = lead ++ rest := by
  induction lead generalizing cs with
  | nil => simp [afterLead?, eq_comm]
  | cons p lead ih =>
    cases cs with
    | nil => simp [afterLead?]
    | cons c cs =>
      by_cases h : p = c
      · subst h
        simp [afterLead?, ih]
      · have h' : ¬ c = p := fun e => h e.symm
        simp [afterLead?, h, h']

/-- The text without the beginning `lead`, if it begins with it. -/
def dropLead? (s lead : String) : Option String :=
  (afterLead? lead.toList s.toList).map String.ofList

theorem dropLead?_eq_some_iff {s lead rest : String} :
    dropLead? s lead = some rest ↔ s = lead ++ rest := by
  rw [dropLead?, Option.map_eq_some_iff]
  constructor
  · rintro ⟨r, hr, rfl⟩
    rw [afterLead?_eq_some_iff] at hr
    apply String.toList_inj.mp
    simpa using hr
  · rintro rfl
    exact ⟨rest.toList, by rw [afterLead?_eq_some_iff]; simp, by simp⟩

/-- The text without the ending `tail`, if it ends with it. -/
def dropTail? (s tail : String) : Option String :=
  (afterLead? tail.toList.reverse s.toList.reverse).map fun r => String.ofList r.reverse

theorem dropTail?_eq_some_iff {s tail rest : String} :
    dropTail? s tail = some rest ↔ s = rest ++ tail := by
  rw [dropTail?, Option.map_eq_some_iff]
  constructor
  · rintro ⟨r, hr, rfl⟩
    rw [afterLead?_eq_some_iff] at hr
    apply String.toList_inj.mp
    have := congrArg List.reverse hr
    simpa using this
  · rintro rfl
    exact ⟨rest.toList.reverse, by rw [afterLead?_eq_some_iff]; simp, by simp⟩

/-- The parts before and after the last occurrence of `mark`. -/
def splitLast? (mark : Char) (s : String) : Option (String × String) :=
  let back := s.toList.reverse
  let after := back.takeWhile (· != mark)
  match back.dropWhile (· != mark) with
  | [] => none
  | _ :: before => some (String.ofList before.reverse, String.ofList after.reverse)

/-- Cut after every `'\n'`, each piece keeping its line feed. -/
def linePieces : List Char → List (List Char)
  | [] => []
  | '\n' :: rest => ['\n'] :: linePieces rest
  | c :: rest =>
      match linePieces rest with
      | [] => [[c]]
      | piece :: pieces => (c :: piece) :: pieces

/-- Nothing is lost by cutting a text into line pieces. -/
theorem flatten_linePieces (cs : List Char) : (linePieces cs).flatten = cs := by
  induction cs with
  | nil => rfl
  | cons c rest ih =>
    by_cases h : c = '\n'
    · subst h
      simp [linePieces, ih]
    · rw [linePieces]
      · cases hp : linePieces rest with
        | nil => simp [hp] at ih; simp [← ih]
        | cons p ps => simp [hp] at ih; simp [← ih]
      · exact h

/-- The lines of a text: cut at `'\n'`, dropping one `'\r'` before it. A
line feed at the end starts no further line. -/
def lines (s : String) : List String :=
  (linePieces s.toList).map fun piece =>
    String.ofList <|
      match piece.reverse with
      | '\n' :: '\r' :: rest => rest.reverse
      | '\n' :: rest => rest.reverse
      | _ => piece

end PropertyGraphQL.Text
