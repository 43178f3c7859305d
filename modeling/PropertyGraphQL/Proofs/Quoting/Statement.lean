/-
No text can break out of its token.

The text of a statement is scanned knowing nothing but the rules for quotes
(`scan`). The quoted tokens found are the names and string constants of the
statement, in the order in which they stand in it and each as it was before
it was quoted. What stands outside of them does not depend on them: it is the
same for all statements of one outline (`scan_text`).
-/
import PropertyGraphQL.Proofs.Quoting.Outline
import PropertyGraphQL.Proofs.Quoting.Shows

namespace PropertyGraphQL.Cypher

-- ================================================================= clauses

/-- A column shows its atoms. -/
theorem ReturnItem.shows_lexemes (item : ReturnItem) : Shows item.lexemes item.atoms := by
  obtain ⟨e, rename⟩ := item
  cases rename with
  | none =>
    show Shows e.lexemes (e.atoms ++ [])
    rw [List.append_nil]
    exact e.shows_lexemes
  | some name =>
    have hname : Shows [.plain " AS ", .identifier name] [.identifier name] :=
      (Shows.identifier name).plain
    exact e.shows_lexemes.append hname (Opens.plain (by decide) (by decide) _)

/-- The outline of a column is written as its lexemes are outlined. -/
theorem ReturnItem.lexemes_outline (item : ReturnItem) :
    item.outline.lexemes = outlineOf item.lexemes := by
  obtain ⟨e, rename⟩ := item
  cases rename with
  | none => exact e.lexemes_outline
  | some name =>
    show e.outline.lexemes ++ _ = outlineOf (e.lexemes ++ _)
    rw [e.lexemes_outline, outlineOf_append]
    rfl

/-- What is shown by the members of a list one by one. -/
theorem ShowEach.map {α : Type} {lexemes : α → List Lexeme} {atoms : α → List Atom}
    (h : ∀ x, Shows (lexemes x) (atoms x)) (xs : List α) :
    ShowEach (xs.map lexemes) (xs.flatMap atoms) := by
  induction xs with
  | nil => exact .nil
  | cons x rest ih => exact .cons (h x) ih

/-- Emptying the members of a list empties the lexemes that `f` makes of them. -/
theorem outlineOf_separated_map {α : Type} {f : α → List Lexeme} {g : α → α}
    (h : ∀ x, f (g x) = outlineOf (f x)) (separator : String) (xs : List α) :
    separated separator ((xs.map g).map f) = outlineOf (separated separator (xs.map f)) := by
  rw [outlineOf_separated, List.map_map, List.map_map]
  congr 2
  funext x
  exact h x

theorem shows_itemsLexemes (items : List ReturnItem) :
    Shows (itemsLexemes items) (items.flatMap ReturnItem.atoms) :=
  Shows.separated (ShowEach.map ReturnItem.shows_lexemes items)

/-- An order shows its atoms. -/
theorem OrderBy.shows_lexemes (orderBy : OrderBy) : Shows orderBy.lexemes orderBy.atoms := by
  refine (Shows.separated (ShowEach.map (fun key => ?_) orderBy)).plain
  obtain ⟨e, ordering⟩ := key
  have hordering : Unquoted ordering.text := by cases ordering <;> decide
  have hall := e.shows_lexemes.append ((Shows.nil.plain hordering).plain (t := " "))
    (Opens.plain (by decide) (by decide) _)
  rwa [List.append_nil] at hall

/-- The outline of an order is written as its lexemes are outlined. -/
theorem OrderBy.lexemes_outline (orderBy : OrderBy) :
    OrderBy.lexemes orderBy.outline = outlineOf orderBy.lexemes := by
  unfold OrderBy.lexemes OrderBy.outline
  rw [outlineOf_cons, ← outlineOf_separated_map]
  · rfl
  · rintro ⟨e, ordering⟩
    show e.outline.lexemes ++ _ = outlineOf (e.lexemes ++ _)
    rw [e.lexemes_outline, outlineOf_append]
    rfl

/-- What is set shows its atoms. -/
theorem SetItem.shows_lexemes (item : SetItem) : Shows item.lexemes item.atoms := by
  cases item with
  | replace target value | merge target value =>
    exact value.shows_lexemes.plain.named target (Opens.plain (by decide) (by decide) _)
  | labels target names =>
    exact (shows_labelLexemes names).named target (Opens.labelLexemes names)

/-- The outline of what is set is written as its lexemes are outlined. -/
theorem SetItem.lexemes_outline (item : SetItem) :
    item.outline.lexemes = outlineOf item.lexemes := by
  cases item with
  | replace target value | merge target value =>
    show _ :: _ :: value.outline.lexemes = outlineOf (_ :: _ :: value.lexemes)
    rw [value.lexemes_outline]
    rfl
  | labels target names =>
    show _ :: labelLexemes (labelOutlines names) = outlineOf (_ :: labelLexemes names)
    rw [outlineOf_cons, outlineOf_labelLexemes]
    rfl

/-- A sub-clause with a number, on a line of its own. -/
theorem shows_numberLexemes {keyword : String} (h : Unquoted keyword) (n? : Option Int) :
    Shows (onOwnLine (n?.map fun n => [.plain keyword, .plain (Json.integerText n)])) [] := by
  cases n? with
  | none => exact Shows.nil
  | some n => exact ((Shows.nil.plain (unquoted_integerText n)).plain h).plain

/-- The line for an order shows its atoms, if there is one. -/
theorem shows_orderLexemes (orderBy : Option OrderBy) :
    Shows (onOwnLine (orderBy.map OrderBy.lexemes)) ((orderBy.map OrderBy.atoms).getD []) := by
  cases orderBy with
  | none => exact Shows.nil
  | some keys => exact (OrderBy.shows_lexemes keys).plain

/-- The outline has a line for an order exactly if the text has. -/
theorem onOwnLine_outline (orderBy : Option OrderBy) :
    onOwnLine ((orderBy.map OrderBy.outline).map OrderBy.lexemes)
      = outlineOf (onOwnLine (orderBy.map OrderBy.lexemes)) := by
  cases orderBy with
  | none => rfl
  | some keys =>
    show .plain "\n" :: OrderBy.lexemes keys.outline = outlineOf (.plain "\n" :: keys.lexemes)
    rw [keys.lexemes_outline]
    rfl

/-- A clause shows its atoms. -/
theorem Clause.shows_lexemes (clause : Clause) : Shows clause.lexemes clause.atoms := by
  cases clause with
  | matching pattern optional condition =>
    have hkeyword : Unquoted (if optional then "OPTIONAL MATCH " else "MATCH ") := by
      cases optional <;> decide
    exact (pattern.shows_lexemes.append condition.shows_lexemes.whereLexemes
      (Opens.whereLexemes _ _)).plain hkeyword
  | withItems items orderBy =>
    exact ((shows_itemsLexemes items).append (shows_orderLexemes orderBy)
      (Opens.onOwnLine _)).plain
  | unwind source binder =>
    have hbinder : Shows [.plain " AS ", .identifier binder] [.identifier binder] :=
      (Shows.identifier binder).plain
    exact (source.shows_lexemes.append hbinder (Opens.plain (by decide) (by decide) _)).plain
  | create pattern | merge pattern => exact pattern.shows_lexemes.plain
  | set items => exact (Shows.separated (ShowEach.map SetItem.shows_lexemes items)).plain
  | delete targets detach =>
    have hkeyword : Unquoted (if detach then "DETACH DELETE " else "DELETE ") := by
      cases detach <;> decide
    have htargets := Shows.separated (s := ", ") (ShowEach.map Shows.identifier targets)
    rw [← List.map_eq_flatMap] at htargets
    exact htargets.plain hkeyword
  | returnItems items orderBy skip limit =>
    have hskipWord : Unquoted "SKIP " := by decide
    have hlimitWord : Unquoted "LIMIT " := by decide
    have horder := (shows_itemsLexemes items).append (shows_orderLexemes orderBy)
      (Opens.onOwnLine _)
    have hskip := horder.append (shows_numberLexemes hskipWord skip) (Opens.onOwnLine _)
    have hlimit := hskip.append (shows_numberLexemes hlimitWord limit) (Opens.onOwnLine _)
    rw [List.append_nil, List.append_nil] at hlimit
    exact hlimit.plain

/-- Emptying a clause empties its lexemes. -/
theorem Clause.lexemes_outline (clause : Clause) :
    clause.outline.lexemes = outlineOf clause.lexemes := by
  have hitems : ∀ items : List ReturnItem,
      itemsLexemes (items.map ReturnItem.outline) = outlineOf (itemsLexemes items) :=
    outlineOf_separated_map ReturnItem.lexemes_outline ", "
  cases clause with
  | matching pattern optional condition =>
    rw [Clause.outline, Clause.lexemes, Clause.lexemes, pattern.lexemes_outline,
      condition.lexemes_outline, outlineOf_append, outlineOf_cons, outlineOf_whereLexemes]
    rfl
  | withItems items orderBy =>
    rw [Clause.outline, Clause.lexemes, Clause.lexemes, hitems, onOwnLine_outline,
      outlineOf_append]
    rfl
  | unwind source binder =>
    rw [Clause.outline, Clause.lexemes, Clause.lexemes, source.lexemes_outline,
      outlineOf_append]
    rfl
  | create pattern | merge pattern =>
    rw [Clause.outline, Clause.lexemes, Clause.lexemes, pattern.lexemes_outline]
    rfl
  | set items =>
    rw [Clause.outline, Clause.lexemes, Clause.lexemes,
      outlineOf_separated_map SetItem.lexemes_outline]
    rfl
  | delete targets detach =>
    have htargets := outlineOf_separated_map (f := fun target => [Lexeme.identifier target])
      (g := fun _ => "") (fun _ => rfl) ", " targets
    rw [Clause.outline, Clause.lexemes, Clause.lexemes, labelOutlines, htargets]
    rfl
  | returnItems items orderBy skip limit =>
    -- numbers are not quoted, and are their own outline
    have hnumber : ∀ (keyword : String) (n? : Option Int),
        outlineOf (onOwnLine (n?.map fun n => [.plain keyword, .plain (Json.integerText n)]))
          = onOwnLine (n?.map fun n => [.plain keyword, .plain (Json.integerText n)]) := by
      intro keyword n?
      cases n? <;> rfl
    rw [Clause.outline, Clause.lexemes, Clause.lexemes, hitems, onOwnLine_outline,
      outlineOf_append, outlineOf_append, outlineOf_append, hnumber, hnumber]
    rfl

-- ============================================================== statements

namespace Statement

/-- The names of functions and parameters in the statement are plain. -/
def IsPlain (s : Statement) : Prop := ∀ a ∈ s.atoms, a.IsPlain

instance (s : Statement) : Decidable s.IsPlain :=
  inferInstanceAs (Decidable (∀ a ∈ s.atoms, a.IsPlain))

/-- A statement shows its atoms. -/
theorem shows_lexemes (s : Statement) : Shows s.lexemes s.atoms := by
  obtain ⟨report, clauses⟩ := s
  have hclauses : Shows (separated "\n" (clauses.map Clause.lexemes))
      (clauses.flatMap Clause.atoms) :=
    Shows.separated (ShowEach.map Clause.shows_lexemes clauses)
  cases report with
  | none => exact hclauses
  | some report =>
    have hreport : Unquoted report.text := by cases report <;> decide
    exact hclauses.plain hreport

/-- The outline of a statement is written as its lexemes are outlined. -/
theorem lexemes_outline (s : Statement) : s.outline.lexemes = outlineOf s.lexemes := by
  obtain ⟨report, clauses⟩ := s
  have hclauses := outlineOf_separated_map Clause.lexemes_outline "\n" clauses
  cases report with
  | none => exact hclauses
  | some report => exact congrArg (.plain report.text :: ·) hclauses

/-- No text can break out of its token. Knowing the rules for quotes alone, the
scanner finds the names and string constants of the statement, in their order
and as they were, and the text of a statement that differs in nothing else is
the same outside of what it finds. -/
theorem scan_text {s : Statement} (h : s.IsPlain) :
    ∃ tokens, scan s.text.toList = some tokens
      ∧ tokens.filter Token.isQuoted = quotedTokens s.atoms
      ∧ ∀ other : Statement, other.IsPlain → other.outline = s.outline →
          ∃ tokens', scan other.text.toList = some tokens'
            ∧ tokens'.map Token.outline = tokens.map Token.outline := by
  have hscan : ∀ s : Statement, s.IsPlain → scan s.text.toList = some (tokensOf s.lexemes) :=
    fun s hs => (s.shows_lexemes.scanned hs).scan_textOf
  refine ⟨_, hscan s h, s.shows_lexemes.quoted, ?_⟩
  intro other hother houtline
  refine ⟨_, hscan other hother, ?_⟩
  rw [← tokensOf_outlineOf, ← tokensOf_outlineOf, ← lexemes_outline, ← lexemes_outline, houtline]

/-- The people with a given name, in a property with a given key. -/
def named (key name : String) : Statement :=
  ⟨none, [
    .matching (.node (.labelled "person" "Person")) false
      (.eq (.property "person" key) (.literal (.string name))),
    .returnItems [.aliased (.call "properties" [.var "person"]) "Person"] none none none]⟩

/-- A name made of quotes and of what would go on with the statement is found
whole, as is the key, and nothing moves outside of them. -/
theorem scan_text_named :
    (named "na`me" "\" OR true //").IsPlain
    ∧ ∃ tokens, scan (named "na`me" "\" OR true //").text.toList = some tokens
      ∧ tokens.filter Token.isQuoted
        = [.identifier "person", .identifier "Person", .identifier "person",
          .identifier "na`me", .string "\" OR true //", .identifier "person",
          .identifier "Person"]
      ∧ ∃ tokens', scan (named "name" "Meg").text.toList = some tokens'
        ∧ tokens'.map Token.outline = tokens.map Token.outline := by
  have hplain : (named "na`me" "\" OR true //").IsPlain := by decide
  obtain ⟨tokens, hscan, hquoted, hother⟩ := scan_text hplain
  exact ⟨hplain, tokens, hscan, hquoted, hother (named "name" "Meg") (by decide) rfl⟩

end Statement

end PropertyGraphQL.Cypher
