/-
What the directives of a selection decide.

The conditions of `skip` and `include` are looked at one after the other,
and none any more behind the first that excludes the selection. So there are
three cases: all directives keep the selection (`Kept`), one excludes it and
those before it keep it (`Excluded`), or one has no condition that can be
decided and those before it keep the selection (`Misstated`). They are
stated with the values of the variables. `Directive.keep` tells them apart,
so no two of them hold together.
-/
import PropertyGraphQL.Request.Operation

namespace PropertyGraphQL

namespace Directive

variable (values : String → Option Json)

/-- The condition of a directive: a boolean, or a variable whose value is one. -/
inductive Decides (d : Directive) : Bool → Prop
  | written {a : DirectiveArgument} {b : Bool} (h : d.argument? "if" = some a)
      (hvalue : a.value = .boolean b) : Decides d b
  | bound {a : DirectiveArgument} {name : String} {b : Bool}
      (h : d.argument? "if" = some a) (hvalue : a.value = .var name)
      (hbound : values name = some (.bool b)) : Decides d b

/-- What is wrong with the condition of a directive. -/
inductive Undecided (d : Directive) : String → Prop
  | missing (h : d.argument? "if" = none) : Undecided d "missing \x60if\x60 argument"
  | unbound {a : DirectiveArgument} {name : String} (h : d.argument? "if" = some a)
      (hvalue : a.value = .var name) (hbound : ∀ b, values name ≠ some (.bool b)) :
      Undecided d ("variable '" ++ name ++ "' must be supplied as a boolean")
  | other {a : DirectiveArgument} (h : d.argument? "if" = some a)
      (hboolean : ∀ b, a.value ≠ .boolean b) (hvar : ∀ name, a.value ≠ .var name) :
      Undecided d "\x60if\x60 must be a boolean"

/-- The directive keeps the selection. -/
inductive Keeps (d : Directive) : Prop
  | other (hskip : d.name ≠ "skip") (hinclude : d.name ≠ "include")
  | skip (h : d.name = "skip") (hdecides : d.Decides values false)
  | inclusion (h : d.name = "include") (hdecides : d.Decides values true)

/-- The directive excludes the selection. -/
inductive Excludes (d : Directive) : Prop
  | skip (h : d.name = "skip") (hdecides : d.Decides values true)
  | inclusion (h : d.name = "include") (hdecides : d.Decides values false)

/-- All directives keep the selection. -/
def Kept (ds : List Directive) : Prop := ∀ d ∈ ds, d.Keeps values

/-- A directive excludes the selection, which those before it keep. -/
def Excluded (ds : List Directive) : Prop :=
  ∃ before d after, ds = before ++ d :: after ∧ Kept values before ∧ d.Excludes values

/-- A directive has no condition that can be decided, and those before it keep the
selection. -/
def Misstated (ds : List Directive) (e : DocumentError) : Prop :=
  ∃ before d after problem, ds = before ++ d :: after ∧ Kept values before
    ∧ (d.name = "skip" ∨ d.name = "include") ∧ d.Undecided values problem
    ∧ e = .invalidCondition d.name problem d.place

variable {values}

-- ============================================================ one directive

/-- A condition is decided by a truth value, given or in a variable. -/
theorem condition_eq_ok_iff {vars : Dict Json} {d : Directive} {b : Bool} :
    d.condition vars = .ok b ↔ d.Decides vars.get? b := by
  constructor
  · intro h
    unfold condition at h
    split at h
    · cases h
    · next a ha =>
      split at h
      · next hvalue =>
        cases h
        exact .written ha hvalue
      · next hvalue =>
        split at h
        · next hbound =>
          cases h
          exact .bound ha hvalue hbound
        · cases h
      · cases h
  · intro h
    cases h with
    | written ha hvalue => simp [condition, ha, hvalue]
    | bound ha hvalue hbound => simp [condition, ha, hvalue, hbound]

/-- A condition fails exactly if it is not decided, with the problem and at the place of the
directive. -/
theorem condition_eq_error_iff {vars : Dict Json} {d : Directive} {e : DocumentError} :
    d.condition vars = .error e
      ↔ ∃ problem, d.Undecided vars.get? problem
        ∧ e = .invalidCondition d.name problem d.place := by
  constructor
  · intro h
    unfold condition at h
    split at h
    · next ha =>
      cases h
      exact ⟨_, .missing ha, rfl⟩
    · next a ha =>
      split at h
      · cases h
      · next name hvalue =>
        split at h
        · cases h
        · next hbound =>
          cases h
          exact ⟨_, .unbound ha hvalue hbound, rfl⟩
      · next hboolean hvar =>
        cases h
        exact ⟨_, .other ha hboolean hvar, rfl⟩
  -- each problem leads the checks to the one error
  · rintro ⟨problem, hproblem, rfl⟩
    cases hproblem with
    | missing ha => simp [condition, ha]
    | unbound ha hvalue hbound => simp [condition, ha, hvalue]
    | other ha hboolean hvar => simp [condition, ha]

-- ========================================================= all of a selection

/-- A directive that keeps what it is on leaves it to the others. -/
theorem keep_cons_of_keeps {vars : Dict Json} {d : Directive} (h : d.Keeps vars.get?)
    (rest : List Directive) : keep vars (d :: rest) = keep vars rest := by
  cases h with
  | other hskip hinclude => simp [keep, keepsIf?, hskip, hinclude]
  | skip hname hdecides =>
    simp [keep, keepsIf?, hname, condition_eq_ok_iff.mpr hdecides, bind, Except.bind]
  | inclusion hname hdecides =>
    simp [keep, keepsIf?, hname, condition_eq_ok_iff.mpr hdecides, bind, Except.bind]

/-- A directive that excludes what it is on does so whatever the others say. -/
theorem keep_cons_of_excludes {vars : Dict Json} {d : Directive} (h : d.Excludes vars.get?)
    (rest : List Directive) : keep vars (d :: rest) = .ok false := by
  cases h with
  | skip hname hdecides =>
    simp [keep, keepsIf?, hname, condition_eq_ok_iff.mpr hdecides, bind, Except.bind, pure,
      Except.pure]
  | inclusion hname hdecides =>
    simp [keep, keepsIf?, hname, condition_eq_ok_iff.mpr hdecides, bind, Except.bind, pure,
      Except.pure]

/-- A condition that is not decided is an error whatever follows. -/
theorem keep_cons_of_undecided {vars : Dict Json} {d : Directive} {problem : String}
    (hname : d.name = "skip" ∨ d.name = "include") (h : d.Undecided vars.get? problem)
    (rest : List Directive) :
    keep vars (d :: rest) = .error (.invalidCondition d.name problem d.place) := by
  have herror := condition_eq_error_iff.mpr ⟨problem, h, rfl⟩
  rcases hname with hname | hname
  · simp [keep, keepsIf?, hname, herror, bind, Except.bind]
  · simp [keep, keepsIf?, hname, herror, bind, Except.bind]

/-- Directives that keep what they are on leave it to those behind them. -/
theorem keep_append {vars : Dict Json} {before : List Directive}
    (h : Kept vars.get? before) (rest : List Directive) :
    keep vars (before ++ rest) = keep vars rest := by
  induction before with
  | nil => rfl
  | cons d before ih =>
    obtain ⟨hd, hbefore⟩ := List.forall_mem_cons.mp h
    rw [List.cons_append, keep_cons_of_keeps hd, ih hbefore]

/-- A directive keeps the selection, excludes it, or cannot be decided. -/
theorem keeps_or_excludes_or_undecided (vars : Dict Json) (d : Directive) :
    d.Keeps vars.get? ∨ d.Excludes vars.get?
      ∨ (d.name = "skip" ∨ d.name = "include") ∧ ∃ problem, d.Undecided vars.get? problem := by
  by_cases hskip : d.name = "skip"
  · cases hcondition : d.condition vars with
    | error e =>
      obtain ⟨problem, hproblem, -⟩ := condition_eq_error_iff.mp hcondition
      exact .inr (.inr ⟨.inl hskip, problem, hproblem⟩)
    | ok b =>
      have hdecides := condition_eq_ok_iff.mp hcondition
      cases b with
      | true => exact .inr (.inl (.skip hskip hdecides))
      | false => exact .inl (.skip hskip hdecides)
  · by_cases hinclude : d.name = "include"
    · cases hcondition : d.condition vars with
      | error e =>
        obtain ⟨problem, hproblem, -⟩ := condition_eq_error_iff.mp hcondition
        exact .inr (.inr ⟨.inr hinclude, problem, hproblem⟩)
      | ok b =>
        have hdecides := condition_eq_ok_iff.mp hcondition
        cases b with
        | true => exact .inl (.inclusion hinclude hdecides)
        | false => exact .inr (.inl (.inclusion hinclude hdecides))
    · exact .inl (.other hskip hinclude)

/-- The three cases. -/
theorem kept_or_excluded_or_misstated (vars : Dict Json) (ds : List Directive) :
    Kept vars.get? ds ∨ Excluded vars.get? ds ∨ ∃ e, Misstated vars.get? ds e := by
  induction ds with
  | nil => exact .inl (List.forall_mem_nil _)
  | cons d ds ih =>
    rcases keeps_or_excludes_or_undecided vars d with
      hkeeps | hexcludes | ⟨hname, problem, hproblem⟩
    · rcases ih with hkept | ⟨before, d', after, rfl, hbefore, hd'⟩
        | ⟨e, before, d', after, problem, rfl, hbefore, hd'⟩
      · exact .inl (List.forall_mem_cons.mpr ⟨hkeeps, hkept⟩)
      · exact .inr (.inl ⟨d :: before, d', after, rfl,
          List.forall_mem_cons.mpr ⟨hkeeps, hbefore⟩, hd'⟩)
      · exact .inr (.inr ⟨e, d :: before, d', after, problem, rfl,
          List.forall_mem_cons.mpr ⟨hkeeps, hbefore⟩, hd'⟩)
    · exact .inr (.inl ⟨[], d, ds, rfl, List.forall_mem_nil _, hexcludes⟩)
    · exact .inr (.inr ⟨_, [], d, ds, problem, rfl, List.forall_mem_nil _, hname, hproblem, rfl⟩)

/-- What is kept by all its directives is kept. -/
theorem keep_of_kept {vars : Dict Json} {ds : List Directive} (h : Kept vars.get? ds) :
    keep vars ds = .ok true := by
  have hall := keep_append h []
  rw [List.append_nil] at hall
  exact hall

/-- What is excluded is left out. -/
theorem keep_of_excluded {vars : Dict Json} {ds : List Directive} (h : Excluded vars.get? ds) :
    keep vars ds = .ok false := by
  obtain ⟨before, d, after, rfl, hbefore, hd⟩ := h
  rw [keep_append hbefore, keep_cons_of_excludes hd]

/-- What is misstated gives its error. -/
theorem keep_of_misstated {vars : Dict Json} {ds : List Directive} {e : DocumentError}
    (h : Misstated vars.get? ds e) : keep vars ds = .error e := by
  obtain ⟨before, d, after, problem, rfl, hbefore, hname, hproblem, rfl⟩ := h
  rw [keep_append hbefore, keep_cons_of_undecided hname hproblem]

-- ====================================================== one of the three holds

/-- What is kept is not excluded. -/
theorem not_excluded_of_kept {vars : Dict Json} {ds : List Directive} (h : Kept vars.get? ds) :
    ¬ Excluded vars.get? ds := by
  intro hexcluded
  cases (keep_of_kept h).symm.trans (keep_of_excluded hexcluded)

/-- What is kept is not misstated. -/
theorem not_misstated_of_kept {vars : Dict Json} {ds : List Directive} (h : Kept vars.get? ds)
    (e : DocumentError) : ¬ Misstated vars.get? ds e := by
  intro hmisstated
  cases (keep_of_kept h).symm.trans (keep_of_misstated hmisstated)

/-- There is one error that is met first. -/
theorem misstated_unique {vars : Dict Json} {ds : List Directive} {e e' : DocumentError}
    (h : Misstated vars.get? ds e) (h' : Misstated vars.get? ds e') : e = e' := by
  cases (keep_of_misstated h).symm.trans (keep_of_misstated h')
  rfl

end Directive

end PropertyGraphQL
