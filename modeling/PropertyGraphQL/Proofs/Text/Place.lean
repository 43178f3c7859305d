/-
Places of a text, and the bytes before them.

A beginning of a text ends at a place (`Position.behind`): its line is told
by the line feeds in it, its column by the characters since the last of them.
Going back from that place gives the beginning (`beforePosition_behind`), and
whatever line and column one goes back from, one comes to a beginning of the
text (`prefix_beforePosition`).

Places are also counted in two other ways while a text is read. Where a
carriage return sets the column back, or is a line end together with a line
feed, the line and column may be those of another beginning, but of one they
always are (`standsIn_ofPrefix`, `standsIn_ofOffsetCrLf`).
-/
import Mathlib.Data.List.Induction
import Mathlib.Data.List.Infix
import Mathlib.Data.List.TakeWhile
import PropertyGraphQL.Text.Position

namespace PropertyGraphQL

-- ======================================================= places of beginnings

namespace Position

/-- The place behind the given characters: line feeds end lines, and nothing else
does. -/
def behind (before : List Char) : Position :=
  ⟨1 + before.count '\n', 1 + (before.reverse.takeWhile (· != '\n')).length⟩

theorem behind_nil : behind [] = ⟨1, 1⟩ := rfl

/-- A line feed begins a line, and any other character takes a column. -/
theorem behind_concat (before : List Char) (c : Char) :
    behind (before ++ [c])
      = if c = '\n' then ⟨(behind before).line + 1, 1⟩
        else ⟨(behind before).line, (behind before).column + 1⟩ := by
  unfold behind
  rw [List.reverse_append, List.reverse_singleton, List.singleton_append, List.count_append]
  split
  · next h =>
    subst h
    rfl
  · next h =>
    simp [h, Nat.add_comm]

theorem behind_concat_feed (before : List Char) :
    behind (before ++ ['\n']) = ⟨(behind before).line + 1, 1⟩ :=
  (behind_concat before '\n').trans (if_pos rfl)

theorem behind_concat_other (before : List Char) {c : Char} (hc : c ≠ '\n') :
    behind (before ++ [c]) = ⟨(behind before).line, (behind before).column + 1⟩ :=
  (behind_concat before c).trans (if_neg hc)

/-- Before a line end, or in a text that goes on to one, the column is that of the
rest. -/
theorem column_behind_cons (c : Char) {rest : List Char} (h : c = '\n' ∨ '\n' ∈ rest) :
    (behind (c :: rest)).column = (behind rest).column := by
  unfold behind
  rw [List.reverse_cons, List.takeWhile_append]
  split
  · next hall =>
    -- the rest is one line, so the first character ends it
    have hline := List.takeWhile_eq_self_iff.mp
      ((List.takeWhile_prefix _).eq_of_length hall)
    rcases h with rfl | h
    · simp [hall]
    · have hfeed := hline '\n' (List.mem_reverse.mpr h)
      simp at hfeed
  · rfl

theorem ne_feed_of_notMem {cs : List Char} (h : '\n' ∉ cs) : ∀ c ∈ cs, (c != '\n') = true := by
  intro c hc
  rw [bne_iff_ne]
  rintro rfl
  exact h hc

/-- On the first line the column tells the characters before. -/
theorem behind_of_notMem {before : List Char} (h : '\n' ∉ before) :
    behind before = ⟨1, 1 + before.length⟩ := by
  unfold behind
  have hline : before.reverse.takeWhile (· != '\n') = before.reverse := by
    refine List.takeWhile_eq_self_iff.mpr (ne_feed_of_notMem ?_)
    rwa [List.mem_reverse]
  rw [hline, List.length_reverse, List.count_eq_zero.mpr h]

end Position

-- ====================================================== beginnings of places

namespace Text

open Position

/-- The first lines of a text. -/
def firstLines (text : List Char) (n : Nat) : List Char := ((linePieces text).take n).flatten

theorem firstLines_zero (text : List Char) : firstLines text 0 = [] := by
  rw [firstLines, List.take_zero, List.flatten_nil]

theorem firstLines_feed (rest : List Char) (n : Nat) :
    firstLines ('\n' :: rest) (n + 1) = '\n' :: firstLines rest n := by
  simp [firstLines, linePieces]

/-- Any other character belongs to the first line. -/
theorem firstLines_cons {c : Char} (hc : c ≠ '\n') (rest : List Char) (n : Nat) :
    firstLines (c :: rest) (n + 1) = c :: firstLines rest (n + 1) := by
  unfold firstLines
  rw [linePieces]
  · cases linePieces rest with
    | nil => simp
    | cons piece pieces => simp
  · exact hc

theorem prefix_firstLines (text : List Char) (n : Nat) : firstLines text n <+: text := by
  have h := List.IsPrefix.flatten (List.take_prefix n (linePieces text))
  rwa [flatten_linePieces] at h

/-- Before a position are the lines above and the columns to the left, cut at the line's end. -/
theorem beforePosition_eq (text : List Char) (p : Position) :
    beforePosition text p = firstLines text (p.line - 1)
      ++ ((text.drop (firstLines text (p.line - 1)).length).take (p.column - 1)).takeWhile
        (· != '\n') := rfl

/-- Whatever a line and a column are, one comes to a beginning of the text by them. -/
theorem prefix_beforePosition (text : List Char) (p : Position) :
    beforePosition text p <+: text := by
  have hlines := List.prefix_iff_eq_append.mp (prefix_firstLines text (p.line - 1))
  rw [beforePosition_eq]
  conv => rhs; rw [← hlines]
  exact (List.prefix_append_right_inj _).mpr
    ((List.takeWhile_prefix _).trans (List.take_prefix _ _))

/-- The lines before a place begin with the first character, if this ends a line or is on
one that ends before the place. -/
theorem firstLines_behind_cons {c : Char} {before : List Char} (text : List Char)
    (h : c = '\n' ∨ '\n' ∈ before) :
    firstLines (c :: text) ((behind (c :: before)).line - 1)
      = c :: firstLines text ((behind before).line - 1) := by
  simp only [behind, Nat.add_sub_cancel_left]
  by_cases hc : c = '\n'
  · subst hc
    rw [List.count_cons_self, firstLines_feed]
  · have hmem := h.resolve_left hc
    obtain ⟨n, hn⟩ := Nat.exists_eq_succ_of_ne_zero (List.count_pos_iff.mpr hmem).ne'
    rw [List.count_cons_of_ne hc, hn, firstLines_cons hc]

/-- On the first line one goes back over the characters of this line. -/
theorem beforePosition_of_notMem {text before : List Char} (h : before <+: text)
    (hline : '\n' ∉ before) : beforePosition text (behind before) = before := by
  have hlines : firstLines text ((behind before).line - 1) = [] := by
    rw [behind_of_notMem hline]
    exact firstLines_zero _
  have htake : text.take before.length = before := (List.prefix_iff_eq_take.mp h).symm
  rw [beforePosition_eq, hlines, behind_of_notMem hline]
  simp only [List.length_nil, List.drop_zero, List.nil_append, Nat.add_sub_cancel_left, htake]
  exact List.takeWhile_eq_self_iff.mpr (ne_feed_of_notMem hline)

/-- **Going back** from the place behind a beginning of a text gives this beginning. -/
theorem beforePosition_behind {text before : List Char} (h : before <+: text) :
    beforePosition text (behind before) = before := by
  induction before generalizing text with
  | nil => exact beforePosition_of_notMem h List.not_mem_nil
  | cons c before ih =>
    obtain _ | ⟨c', text⟩ := text
    · exact absurd (List.prefix_nil.mp h) (List.cons_ne_nil _ _)
    obtain ⟨rfl, hprefix⟩ := List.cons_prefix_cons.mp h
    by_cases hfeed : c = '\n' ∨ '\n' ∈ before
    · -- the first character belongs to the lines before the place
      rw [beforePosition_eq, firstLines_behind_cons text hfeed, column_behind_cons c hfeed,
        List.length_cons, List.drop_succ_cons, List.cons_append, ← beforePosition_eq, ih hprefix]
    · have hline : '\n' ∉ c :: before := by
        simpa [eq_comm] using hfeed
      exact beforePosition_of_notMem h hline

-- ================================================================== bytes

/-- Texts one after another have their sizes together. -/
theorem utf8Size_append (before after : List Char) :
    utf8Size (before ++ after) = utf8Size before + utf8Size after := by
  induction before with
  | nil => exact (Nat.zero_add _).symm
  | cons c rest ih => rw [List.cons_append, utf8Size, utf8Size, ih, Nat.add_assoc]

/-- The bytes before the place behind a beginning of a text are those of this beginning. -/
theorem byteOffset_behind {text : String} {before : List Char} (h : before <+: text.toList) :
    byteOffset text (behind before) = utf8Size before :=
  congrArg utf8Size (beforePosition_behind h)

/-- A number of bytes after which a character begins, or the text ends. -/
def Boundary (text : List Char) (offset : Nat) : Prop :=
  ∃ before, before <+: text ∧ utf8Size before = offset

/-- Within a character there is no boundary. -/
theorem boundary_iff {before : List Char} {c : Char} {after : List Char} {offset : Nat}
    (hfirst : utf8Size before < offset) (hlast : offset ≤ utf8Size before + c.utf8Size) :
    Boundary (before ++ c :: after) offset ↔ offset = utf8Size before + c.utf8Size := by
  constructor
  · rintro ⟨other, hother, rfl⟩
    -- the other beginning is longer, so it has the character
    rcases List.prefix_or_prefix_of_prefix hother (List.prefix_append before _) with hle | hle
    · obtain ⟨rest, rfl⟩ := hle
      rw [utf8Size_append] at hfirst
      omega
    · obtain ⟨rest, rfl⟩ := hle
      obtain _ | ⟨c', rest⟩ := rest
      · rw [List.append_nil] at hfirst
        omega
      · have hc := (List.prefix_append_right_inj _).mp hother
        obtain ⟨rfl, -⟩ := List.cons_prefix_cons.mp hc
        rw [utf8Size_append, utf8Size] at hlast ⊢
        omega
  · rintro rfl
    refine ⟨before ++ [c], ?_, ?_⟩
    · rw [List.append_cons before c after]
      exact List.prefix_append _ _
    · rw [utf8Size_append]
      rfl

end Text

-- ======================================================= places while reading

namespace Position

/-- The place is behind a beginning of the text. -/
def StandsIn (text : List Char) (p : Position) : Prop :=
  ∃ before, before <+: text ∧ behind before = p

theorem standsIn_start (text : List Char) : start.StandsIn text :=
  ⟨[], List.nil_prefix, rfl⟩

/-- On a line that has come as far as a column, every column before it is that of some
beginning. -/
theorem standsIn_of_column_le {before : List Char} {column : Nat} (hpos : 1 ≤ column)
    (hle : column ≤ (behind before).column) :
    StandsIn before ⟨(behind before).line, column⟩ := by
  induction before using List.reverseRecOn with
  | nil =>
    have hone : column = 1 := Nat.le_antisymm hle hpos
    exact ⟨[], List.prefix_rfl, by rw [hone, behind_nil]⟩
  | append_singleton before c ih =>
    by_cases hlast : column = (behind (before ++ [c])).column
    · exact ⟨_, List.prefix_rfl, by rw [hlast]⟩
    · rw [behind_concat] at hle hlast ⊢
      split at hle
      · next hc =>
        rw [if_pos hc] at hlast
        exact absurd (Nat.le_antisymm hle hpos) hlast
      · next hc =>
        rw [if_neg hc] at hlast ⊢
        obtain ⟨b, hb, heq⟩ := ih (by dsimp only at hle hlast; omega)
        exact ⟨b, hb.trans (List.prefix_append _ _), heq⟩

/-- That a carriage return sets the column back moves a place along its line. -/
theorem line_ofPrefix (before : List Char) :
    (ofPrefix before).line = (behind before).line ∧ 1 ≤ (ofPrefix before).column
      ∧ (ofPrefix before).column ≤ (behind before).column := by
  induction before using List.reverseRecOn with
  | nil => exact ⟨rfl, Nat.le_refl _, Nat.le_refl _⟩
  | append_singleton before c ih =>
    obtain ⟨hline, hpos, hle⟩ := ih
    have hadvance : ofPrefix (before ++ [c]) = (ofPrefix before).advance c :=
      List.foldl_concat _ _ _ _
    rw [hadvance, behind_concat, advance]
    by_cases hc : c = '\n'
    · simp [hc, hline]
    · by_cases hr : c = '\r'
      · simp [hr, hline]
      · simp only [if_neg hc, if_neg hr]
        omega

/-- The place behind what begins a text stands in the text. -/
theorem standsIn_ofPrefix {text before : List Char} (h : before <+: text) :
    (ofPrefix before).StandsIn text := by
  obtain ⟨hline, hpos, hle⟩ := line_ofPrefix before
  obtain ⟨b, hb, heq⟩ := standsIn_of_column_le hpos hle
  exact ⟨b, hb.trans h, heq.trans (by rw [← hline])⟩

/-- A line feed behind a carriage return is passed together with it, so the place may be
one character ahead. -/
theorem standsIn_ofPrefixCrLf_go (next : Option Char) (rest before : List Char) :
    (ofPrefixCrLf.go next rest (behind before)).StandsIn (before ++ rest ++ next.toList) := by
  generalize hp : behind before = p
  have hreturn : '\r' ≠ '\n' := by decide
  fun_induction ofPrefixCrLf.go next rest p generalizing before with
  | case1 p =>
    rw [List.append_nil]
    exact ⟨before, List.prefix_append _ _, hp⟩
  -- a carriage return at the end belongs to the line feed that may follow the cut
  | case2 p hnext =>
    subst hp hnext
    refine ⟨before ++ ['\r'] ++ ['\n'], List.prefix_rfl, ?_⟩
    rw [behind_concat_feed, behind_concat_other before hreturn]
  | case3 p hnext =>
    subst hp
    exact ⟨before ++ ['\r'], List.prefix_append _ _, behind_concat_other before hreturn⟩
  | case4 rest p ih =>
    subst hp
    have h := ih (before ++ ['\r'] ++ ['\n']) (by
      rw [behind_concat_feed, behind_concat_other before hreturn])
    simpa using h
  | case5 rest p ih =>
    subst hp
    have h := ih (before ++ ['\n']) (behind_concat_feed before)
    simpa using h
  | case6 c rest p _ _ hc ih =>
    subst hp
    have h := ih (before ++ [c]) (behind_concat_other before hc)
    simpa using h

/-- The place of any offset stands in the text. -/
theorem standsIn_ofOffsetCrLf (text : List Char) (offset : Nat) :
    (ofOffsetCrLf text offset).StandsIn text := by
  obtain ⟨before, hbefore, heq⟩ :=
    standsIn_ofPrefixCrLf_go text[offset]? (text.take offset) []
  rw [List.nil_append, ← List.take_add_one] at hbefore
  exact ⟨before, hbefore.trans (List.take_prefix _ _), heq⟩

end Position

end PropertyGraphQL
