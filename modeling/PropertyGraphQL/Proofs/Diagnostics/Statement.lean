/-
Errors of schema documents are shown where they are.

A document is gone through with its places, and whatever is wrong with it is
so at a place that it keeps (`Catalog.failsAt_ofDocument`); and a text that is
no document is so at a place of it. So every error stands at a place of the
text, and its diagnostic begins at the byte of that place
(`Catalog.standsIn_of_parse`).

A diagnostic marks one byte. That is the character at the place if this is an
ASCII character, and no character at the end of the text. Of any other it is
the first byte only, and the mark ends inside of it
(`SchemaError.marks_character_iff`).
-/
import PropertyGraphQL.Proofs.Diagnostics.Reading

namespace PropertyGraphQL

-- =================================================================== errors

/-- If this fails, something holds of the place of the error. -/
def FailsAt {α : Type} (holds : Position → Prop) (x : Except SchemaError α) : Prop :=
  ∀ e, x = .error e → holds e.place

namespace FailsAt

variable {α β : Type} {holds : Position → Prop}

theorem ok (a : α) : FailsAt holds (.ok a) := nofun

/-- An error is found at its own place. -/
theorem error {e : SchemaError} (h : holds e.place) :
    FailsAt holds (.error e : Except SchemaError α) := by
  rintro _ ⟨⟩
  exact h

/-- Two steps fail at such places if the first does, and the second with what the first has
given. -/
theorem of_bind {x : Except SchemaError α} {f : α → Except SchemaError β} (h : FailsAt holds x)
    (hnext : ∀ a, x = .ok a → FailsAt holds (f a)) : FailsAt holds (x >>= f) := by
  cases x with
  | error e => exact error (h e rfl)
  | ok a => exact hnext a rfl

/-- A loop fails at such places if each of its steps does, whatever has been gathered before. -/
theorem of_foldlM {f : β → α → Except SchemaError β} {as : List α}
    (h : ∀ a ∈ as, ∀ b, FailsAt holds (f b a)) (b : β) : FailsAt holds (as.foldlM f b) := by
  induction as generalizing b with
  | nil => exact ok b
  | cons a rest ih =>
    obtain ⟨ha, hrest⟩ := List.forall_mem_cons.mp h
    rw [List.foldlM_cons]
    exact of_bind (ha b) fun b' _ => ih hrest b'

/-- Mapping a list fails at such places if it does for each element. -/
theorem of_mapM {f : α → Except SchemaError β} {as : List α}
    (h : ∀ a ∈ as, FailsAt holds (f a)) : FailsAt holds (as.mapM f) := by
  induction as with
  | nil => exact ok []
  | cons a rest ih =>
    obtain ⟨ha, hrest⟩ := List.forall_mem_cons.mp h
    rw [List.mapM_cons]
    exact of_bind ha fun _ _ => of_bind (ih hrest) fun _ _ => ok _

/-- Errors of the model are found at the place that is put to them. -/
theorem of_atPlace {place : Position} (h : holds place) (x : Except ModelError α) :
    FailsAt holds (atPlace place x) := by
  cases x with
  | ok a => exact ok a
  | error e => exact error h

end FailsAt

-- =============================================================== directives

namespace Directive

variable {holds : Position → Prop} {d : Directive} {directives : List Directive}

theorem Placed.argument (h : d.Placed holds) {name : String} {a : DirectiveArgument}
    (ha : d.argument? name = some a) : holds a.place :=
  h.arguments a (List.mem_of_find?_eq_some ha)

theorem placed_of_find? (h : ∀ d ∈ directives, d.Placed holds) {name : String}
    (hfind : find? directives name = some d) : d.Placed holds :=
  h d (List.mem_of_find?_eq_some hfind)

/-- An argument that is no text is reported at the argument. -/
theorem Placed.failsAt_textArgument (h : d.Placed holds) (name : String) :
    FailsAt holds (d.textArgument? name) := by
  unfold textArgument?
  split
  · exact .ok _
  · next a ha =>
    split
    · exact .ok _
    · exact .ok _
    · exact .error (h.argument ha)

/-- Parameters that are no object are reported at the argument. -/
theorem Placed.failsAt_staticParameters (h : d.Placed holds) :
    FailsAt holds d.staticParameters := by
  unfold staticParameters
  split
  · exact .ok _
  · next a ha =>
    split
    · exact .ok _
    · exact .error (h.argument ha)

/-- A mark for passing through that is no truth value is reported at the argument. -/
theorem Placed.failsAt_passThrough (h : d.Placed holds) : FailsAt holds d.passThrough := by
  unfold passThrough
  split
  · exact .ok _
  · next a ha =>
    split
    · exact .ok _
    · exact .error (h.argument ha)

/-- What is wrong with a statement is reported at the directive that gives it, or at an
argument. -/
theorem failsAt_customStatement (h : ∀ d ∈ directives, d.Placed holds) :
    FailsAt holds (customStatement? directives) := by
  unfold customStatement?
  split
  · exact .ok _
  · next d hd =>
    have hplaced := placed_of_find? h hd
    refine .of_bind (hplaced.failsAt_textArgument _) fun statement? _ => ?_
    cases statement? with
    | none => exact .error hplaced.place
    | some statement =>
      exact .of_bind hplaced.failsAt_staticParameters fun _ _ =>
        .of_bind hplaced.failsAt_passThrough fun _ _ => .ok _

/-- What is wrong with a default is reported at its directive. -/
theorem failsAt_defaultValue (h : ∀ d ∈ directives, d.Placed holds) :
    FailsAt holds (defaultValue? directives) := by
  unfold defaultValue?
  split
  · exact .ok _
  · next d hd =>
    split
    · exact .ok _
    · exact .error (placed_of_find? h hd).place

/-- What is wrong with a relationship is reported at its directive or an argument. -/
theorem failsAt_relationship (h : ∀ d ∈ directives, d.Placed holds) :
    FailsAt holds (relationship directives) := by
  unfold relationship
  split
  · next d hd =>
    have hplaced := placed_of_find? h hd
    exact .of_bind (hplaced.failsAt_textArgument _) fun _ _ =>
      .of_bind (hplaced.failsAt_textArgument _) fun _ _ => .ok _
  · split
    · next d hd =>
      exact .of_bind ((placed_of_find? h hd).failsAt_textArgument _) fun _ _ => .ok _
    · split
      · next d hd =>
        exact .of_bind ((placed_of_find? h hd).failsAt_textArgument _) fun _ _ => .ok _
      · exact .ok _

end Directive

-- ============================================================== definitions

namespace Vocabulary

variable {holds : Position → Prop} (v : Vocabulary)

/-- A field that is not accepted is reported at the field or at one of its directives. -/
theorem failsAt_addField (t : EntityType) {f : FieldDefinition} (h : f.Placed holds) :
    FailsAt holds (v.addField t f) := by
  refine .of_bind (Directive.failsAt_customStatement h.directives) fun custom _ => ?_
  split
  · exact .of_bind (Directive.failsAt_defaultValue h.directives) fun _ _ =>
      .of_bind (.of_atPlace h.place _) fun _ _ => .ok _
  · exact .of_bind (Directive.failsAt_relationship h.directives) fun _ _ => .of_atPlace h.place _

/-- An operation of a root is reported in the same way. -/
theorem failsAt_operations {body : TypeBody} (h : ∀ f ∈ body.fields, f.Placed holds) :
    FailsAt holds (v.operations body) := by
  cases body with
  | object interfaces fields =>
    exact .of_mapM fun f hf =>
      .of_bind (Directive.failsAt_customStatement (h f hf).directives) fun _ _ => .ok _
  | _ => exact .ok _

/-- A type that is defined twice is reported where it is defined again, everything else at its
fields. -/
theorem failsAt_addEntity (c : Catalog) {d : TypeDefinition} (isInterface : Bool)
    (interfaces : List String) {fields : List FieldDefinition} (hplace : holds d.place)
    (hfields : ∀ f ∈ fields, f.Placed holds) :
    FailsAt holds (v.addEntity c d isInterface interfaces fields) := by
  unfold addEntity
  split
  · exact .error hplace
  · exact .of_bind (.of_foldlM (fun f hf t => v.failsAt_addField t (hfields f hf)) _)
      fun _ _ => .ok _

/-- Each definition is reported at a place of its own. -/
theorem failsAt_define (c : Catalog) {item : SchemaItem} (h : item.Placed holds) :
    FailsAt holds (v.define c item) := by
  cases item with
  | roots query mutation => exact .ok _
  | directive => exact .ok _
  | type d =>
    have hplaced : d.Placed holds := h
    rw [define]
    split
    · exact .of_bind (v.failsAt_operations hplaced.fields) fun _ _ => .ok _
    · split
      · exact .of_bind (v.failsAt_operations hplaced.fields) fun _ _ => .ok _
      · obtain ⟨name, isExtension, description, body, place⟩ := d
        cases body with
        | object interfaces fields =>
          exact v.failsAt_addEntity c _ _ hplaced.place hplaced.fields
        | interface interfaces fields =>
          exact v.failsAt_addEntity c _ _ hplaced.place hplaced.fields
        | _ => exact .ok _

end Vocabulary

namespace Catalog

theorem failsAt_ofDocument {holds : Position → Prop} {document : SchemaDocument}
    (h : ∀ item ∈ document, item.Placed holds) : FailsAt holds (ofDocument document) :=
  .of_foldlM (fun item hitem c => Vocabulary.failsAt_define _ c (h item hitem)) _

/-- Every error is at a place of the text. -/
theorem standsIn_of_parse {text : String} {e : SchemaError} (h : parse text = .error e) :
    e.place.StandsIn text.toList := by
  unfold parse at h
  split at h
  · next document hdocument =>
    exact failsAt_ofDocument (SchemaDocument.placed_of_parse hdocument) e h
  · next fault hfault =>
    cases h
    show (fault.place?.getD .start).StandsIn text.toList
    cases hplace : fault.place? with
    | none => exact Position.standsIn_start _
    | some p => exact SchemaDocument.faultAt_of_parse hfault p hplace

end Catalog

-- ==================================================================== marks

namespace MarkedSpan

/-- The span is of the character that stands behind a beginning of a text, and of nothing
if the text ends there. -/
def Marks (span : MarkedSpan) (before after : List Char) : Prop :=
  span.first = Text.utf8Size before ∧ span.last = Text.utf8Size (before ++ after.take 1)

end MarkedSpan

namespace SchemaError

open Text

variable {text : String} {e : SchemaError} {before after : List Char}

/-- One byte behind the place is marked, if there is one. -/
theorem span_diagnostic (htext : before ++ after = text.toList)
    (hplace : Position.behind before = e.place) :
    (e.diagnostic text).span
      = ⟨utf8Size before, utf8Size before + min 1 (utf8Size after), e.label⟩ := by
  have hoffset : byteOffset text e.place = utf8Size before := by
    rw [← hplace]
    exact byteOffset_behind ⟨after, htext⟩
  simp only [diagnostic, hoffset, ← htext, utf8Size_append, Nat.add_min_add_left,
    min_eq_left (Nat.le_add_right _ _)]

/-- Before a character there is a byte. -/
theorem min_one_cons (c : Char) (rest : List Char) : min 1 (utf8Size (c :: rest)) = 1 := by
  have hpos := c.utf8Size_pos
  rw [utf8Size]
  omega

theorem utf8Size_take_one (c : Char) (rest : List Char) :
    utf8Size ((c :: rest).take 1) = c.utf8Size := rfl

/-- One byte is the whole of the next character, if this has only one. -/
theorem one_byte_iff (after : List Char) :
    min 1 (utf8Size after) = utf8Size (after.take 1)
      ↔ ∀ c, after.head? = some c → c.utf8Size = 1 := by
  cases after with
  | nil => exact iff_of_true rfl nofun
  | cons c rest =>
    rw [min_one_cons, utf8Size_take_one, List.head?_cons]
    exact ⟨fun h x hx => by cases hx; exact h.symm, fun h => (h c rfl).symm⟩

/-- Behind one byte the text is at a boundary, if this byte is the next character. -/
theorem boundary_last_iff (before after : List Char) :
    Boundary (before ++ after) (utf8Size before + min 1 (utf8Size after))
      ↔ min 1 (utf8Size after) = utf8Size (after.take 1) := by
  cases after with
  | nil => exact iff_of_true ⟨before, List.prefix_append _ _, rfl⟩ rfl
  | cons c rest =>
    have hle := Nat.add_le_add_left c.utf8Size_pos (utf8Size before)
    rw [min_one_cons, utf8Size_take_one, boundary_iff (Nat.lt_add_one _) hle]
    exact Nat.add_left_cancel_iff

/-- **A diagnostic marks the character** at the place of its error, and can be cut out of
the text, exactly if this character is one byte; at the end of the text it marks nothing.
It begins at the byte of the place, and stays within the text, in any case. -/
theorem marks_character_iff (h : Catalog.parse text = .error e) :
    ∃ before after, before ++ after = text.toList ∧ Position.behind before = e.place ∧
      (e.diagnostic text).span.first = utf8Size before ∧
      (e.diagnostic text).span.first ≤ (e.diagnostic text).span.last ∧
      (e.diagnostic text).span.last ≤ utf8Size text.toList ∧
      ((e.diagnostic text).span.Marks before after ↔
        ∀ c, after.head? = some c → c.utf8Size = 1) ∧
      (Boundary text.toList (e.diagnostic text).span.last ↔
        ∀ c, after.head? = some c → c.utf8Size = 1) := by
  obtain ⟨before, ⟨after, htext⟩, hplace⟩ := Catalog.standsIn_of_parse h
  refine ⟨before, after, htext, hplace, ?_⟩
  rw [span_diagnostic htext hplace, ← htext, boundary_last_iff, ← one_byte_iff,
    MarkedSpan.Marks, utf8Size_append, utf8Size_append, Nat.add_left_cancel_iff]
  exact ⟨rfl, Nat.le_add_right _ _, Nat.add_le_add_left (min_le_right _ _) _,
    and_iff_right rfl, Iff.rfl⟩

end SchemaError

/-- A document with a letter that is no part of a name, and takes two bytes. -/
def Catalog.accentedText : String := "type é \x7b a: Int \x7d"

def SchemaError.accented : SchemaError :=
  .unreadable " --> 1:6\n  = unexpected text" ⟨1, 6⟩

theorem Catalog.parse_accentedText : Catalog.parse Catalog.accentedText = .error .accented := by
  rfl

namespace SchemaError

open Text

/-- What is marked there is the character only if it takes one byte; it takes two. -/
theorem marks_character_iff_accented :
    ∃ before after, before ++ after = Catalog.accentedText.toList ∧
      Position.behind before = ⟨1, 6⟩ ∧
      (accented.diagnostic Catalog.accentedText).span.first = utf8Size before ∧
      ((accented.diagnostic Catalog.accentedText).span.Marks before after ↔
        ∀ c, after.head? = some c → c.utf8Size = 1) := by
  obtain ⟨before, after, htext, hplace, hfirst, -, -, hmarks, -⟩ :=
    marks_character_iff Catalog.parse_accentedText
  exact ⟨before, after, htext, hplace, hfirst, hmarks⟩

/-- So not every diagnostic ends where a character does. -/
theorem not_cut_at_characters :
    ¬ ∀ (text : String) (e : SchemaError), Catalog.parse text = .error e →
      Boundary text.toList (e.diagnostic text).span.last := by
  intro hcut
  have hboundary := hcut _ _ Catalog.parse_accentedText
  have htext : "type ".toList ++ 'é' :: " \x7b a: Int \x7d".toList
      = Catalog.accentedText.toList := by decide
  have hlast : (accented.diagnostic Catalog.accentedText).span.last = 6 := by decide
  have hbefore : utf8Size "type ".toList = 5 := by decide
  have hletter : 'é'.utf8Size = 2 := by decide
  -- the letter takes the bytes 5 and 6, so the text is not cut between them
  rw [← htext, hlast, boundary_iff (by omega) (by omega)] at hboundary
  omega

end SchemaError

end PropertyGraphQL
