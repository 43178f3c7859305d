/-
Byte positions of a text, and the lines and columns that tell them.

A text can be cut at a byte only between two characters, or at its ends. The
bytes where it can are its positions (`String.Pos`), and each of these has a
line and a column (`Position.ofPos`). `byteOffset` goes back from a line and a
column to a byte.

# Which beginnings come before a place

A beginning of a text is a beginning of the characters before a line and a
column exactly if its own place is not behind them
(`prefix_beforePosition_iff`). The induction is over the text: what stands on
the lines before is taken off both sides, character by character, and on the
first line it is a matter of length. So `byteOffset` finds the last position
that is not behind the line and column, whatever these are
(`le_byteOffset_iff`).

# Cutting at bytes

`byteOffset` adds up the bytes of characters that it has picked, and cuts no
text. Done in bytes (`cutOffset?`), the beginning of the line is a sum of the
sizes of lines, and the rest of the text is cut off there, which could fail. It
never does, since lines end between characters, and the outcome is the same
(`cutOffset?_eq`).
-/
import Mathlib.Data.List.Infix
import PropertyGraphQL.Proofs.Text.Place

namespace PropertyGraphQL

-- ============================================================ order of places

namespace Position

/-- The place is not behind `q`: on an earlier line, or on the same line in no later
column. -/
def AtOrBefore (p q : Position) : Prop :=
  p.line < q.line ∨ p.line = q.line ∧ p.column ≤ q.column

/-- Lines and columns are counted from 1, and a 0 is taken for the first. -/
def fromOne (p : Position) : Position := ⟨max 1 p.line, max 1 p.column⟩

theorem behind_nil_atOrBefore (p : Position) : (behind []).AtOrBefore p.fromOne := by
  simp only [behind_nil, AtOrBefore, fromOne]
  omega

/-- A line feed in front moves a place down by a line. -/
theorem behind_cons_feed (before : List Char) :
    behind ('\n' :: before) = ⟨(behind before).line + 1, (behind before).column⟩ := by
  have hcolumn : (behind ('\n' :: before)).column = (behind before).column :=
    column_behind_cons '\n' (Or.inl rfl)
  have hline : (behind ('\n' :: before)).line = (behind before).line + 1 := by
    simp only [behind, List.count_cons_self]
    omega
  rw [← hcolumn, ← hline]

/-- Any other character in front moves columns of the first line only, so it makes no
difference to what is not behind a place further down. -/
theorem behind_cons_atOrBefore_iff {c : Char} (hc : c ≠ '\n') (before : List Char)
    {q : Position} (hq : 2 ≤ q.line) :
    (behind (c :: before)).AtOrBefore q ↔ (behind before).AtOrBefore q := by
  by_cases hfeed : '\n' ∈ before
  · have hcolumn := column_behind_cons c (Or.inr hfeed)
    have hline : (behind (c :: before)).line = (behind before).line := by
      simp only [behind, List.count_cons_of_ne hc]
    rw [AtOrBefore, AtOrBefore, hcolumn, hline]
  · -- both are on the first line, so the column does not matter
    have hfeed' : '\n' ∉ c :: before := by
      simp [hfeed, Ne.symm hc]
    rw [behind_of_notMem hfeed, behind_of_notMem hfeed']
    simp only [AtOrBefore]
    omega

/-- Not behind a place on the first line are the beginnings of this line that are no longer
than the column allows. -/
theorem behind_atOrBefore_first_iff (before : List Char) {p : Position} (hp : p.line ≤ 1) :
    (behind before).AtOrBefore p.fromOne
      ↔ '\n' ∉ before ∧ before.length ≤ p.column - 1 := by
  by_cases hfeed : '\n' ∈ before
  · have hcount := List.count_pos_iff.mpr hfeed
    simp only [behind, AtOrBefore, fromOne, hfeed, not_true, false_and, iff_false]
    omega
  · rw [behind_of_notMem hfeed]
    simp only [AtOrBefore, fromOne, hfeed, not_false_iff, true_and]
    omega

end Position

-- =============================================== the characters before a place

namespace Text

open Position

/-- The beginnings of a text that are beginnings of its first line, cut to a length. -/
theorem prefix_takeWhile_iff {before text : List Char} (h : before <+: text) (n : Nat) :
    before <+: (text.take n).takeWhile (· != '\n') ↔ '\n' ∉ before ∧ before.length ≤ n := by
  constructor
  · intro hline
    have htake := hline.trans (List.takeWhile_prefix _)
    refine ⟨fun hfeed => ?_, (List.prefix_take_iff.mp htake).2⟩
    have hkept := List.mem_takeWhile_imp (hline.subset hfeed)
    simp at hkept
  · rintro ⟨hfeed, hlength⟩
    obtain ⟨rest, hrest⟩ := List.prefix_take_iff.mpr ⟨h, hlength⟩
    rw [← hrest, List.takeWhile_append_of_pos (ne_feed_of_notMem hfeed)]
    exact List.prefix_append _ _

/-- On the first line, what is before a position is the columns before it, cut at the line's
end. -/
theorem beforePosition_first (text : List Char) {p : Position} (hp : p.line ≤ 1) :
    beforePosition text p = (text.take (p.column - 1)).takeWhile (· != '\n') := by
  have hzero : p.line - 1 = 0 := by omega
  rw [beforePosition_eq, hzero, firstLines_zero]
  rfl

/-- Behind the end of a line the position is one line less down. -/
theorem beforePosition_feed (text : List Char) (n column : Nat) :
    beforePosition ('\n' :: text) ⟨n + 2, column⟩
      = '\n' :: beforePosition text ⟨n + 1, column⟩ := by
  simp only [beforePosition_eq, Nat.add_one_sub_one, firstLines_feed, List.length_cons,
    List.drop_succ_cons, List.cons_append]

/-- Characters of the first line are before any position on a later line. -/
theorem beforePosition_cons {c : Char} (hc : c ≠ '\n') (text : List Char) (n column : Nat) :
    beforePosition (c :: text) ⟨n + 2, column⟩ = c :: beforePosition text ⟨n + 2, column⟩ := by
  simp only [beforePosition_eq, Nat.add_one_sub_one, firstLines_cons hc, List.length_cons,
    List.drop_succ_cons, List.cons_append]

/-- **What comes before a place** are the beginnings of the text whose own places are not
behind it. -/
theorem prefix_beforePosition_iff {text before : List Char} (h : before <+: text)
    (p : Position) :
    before <+: beforePosition text p ↔ (behind before).AtOrBefore p.fromOne := by
  induction text generalizing before p with
  | nil =>
    rw [List.prefix_nil.mp h]
    exact iff_of_true List.nil_prefix (behind_nil_atOrBefore p)
  | cons c text ih =>
    by_cases hp : p.line ≤ 1
    · rw [beforePosition_first _ hp, prefix_takeWhile_iff h, behind_atOrBefore_first_iff _ hp]
    · obtain ⟨line, column⟩ := p
      obtain ⟨n, rfl⟩ : ∃ n, line = n + 2 := ⟨line - 2, by dsimp only at hp; omega⟩
      cases before with
      | nil => exact iff_of_true List.nil_prefix (behind_nil_atOrBefore _)
      | cons c' before =>
        obtain ⟨rfl, hprefix⟩ := List.cons_prefix_cons.mp h
        by_cases hc : c' = '\n'
        · subst hc
          rw [beforePosition_feed, List.prefix_cons_inj, ih hprefix, behind_cons_feed]
          simp only [AtOrBefore, fromOne]
          omega
        · have hlow : 2 ≤ (fromOne ⟨n + 2, column⟩).line := by
            simp only [fromOne]
            omega
          rw [beforePosition_cons hc, List.prefix_cons_inj, ih hprefix,
            behind_cons_atOrBefore_iff hc before hlow]

-- ================================================================== positions

/-- The bytes counted are those of the characters as a text. -/
theorem utf8Size_eq (cs : List Char) : utf8Size cs = (String.ofList cs).utf8ByteSize := by
  induction cs with
  | nil => rfl
  | cons c rest ih =>
    have hsplit : String.ofList (c :: rest) = String.singleton c ++ String.ofList rest := by
      rw [String.singleton_eq_ofList, ← String.ofList_append, List.singleton_append]
    rw [utf8Size, ih, hsplit, String.utf8ByteSize_append, String.utf8ByteSize_singleton]

theorem utf8Size_toList (text : String) : utf8Size text.toList = text.utf8ByteSize := by
  rw [utf8Size_eq, String.ofList_toList]

/-- Of two beginnings of a text the one with fewer bytes is a beginning of the other. -/
theorem utf8Size_le_iff {text before other : List Char} (h : before <+: text)
    (hother : other <+: text) : utf8Size before ≤ utf8Size other ↔ before <+: other := by
  constructor
  · intro hle
    rcases List.prefix_or_prefix_of_prefix h hother with hprefix | ⟨rest, hrest⟩
    · exact hprefix
    · cases rest with
      | nil => rw [← hrest, List.append_nil]
      | cons c rest =>
        have hpos := c.utf8Size_pos
        rw [← hrest, utf8Size_append, utf8Size] at hle
        omega
  · rintro ⟨rest, rfl⟩
    rw [utf8Size_append]
    omega

/-- The characters before a position of a text. -/
def charsBefore {text : String} (k : text.Pos) : List Char := (text.sliceTo k).copy.toList

/-- The characters before a place begin the text. -/
theorem prefix_charsBefore {text : String} (k : text.Pos) : charsBefore k <+: text.toList := by
  have happend := congrArg String.toList k.splits.eq_append
  rw [String.toList_append] at happend
  exact ⟨_, happend.symm⟩

theorem utf8Size_charsBefore {text : String} (k : text.Pos) :
    utf8Size (charsBefore k) = k.offset.byteIdx := by
  rw [charsBefore, utf8Size_toList, k.splits.offset_eq_rawEndPos, String.byteIdx_rawEndPos]

/-- Between two parts of a text there is a position. -/
theorem exists_splits {text : String} {before after : List Char}
    (h : before ++ after = text.toList) :
    ∃ k : text.Pos, k.Splits (String.ofList before) (String.ofList after)
      ∧ k.offset = ⟨utf8Size before⟩ := by
  have happend : text = String.ofList before ++ String.ofList after := by
    rw [← String.ofList_append, h, String.ofList_toList]
  have hsplits := String.Pos.splits_ofEqAppend happend
  refine ⟨_, hsplits, ?_⟩
  rw [hsplits.offset_eq_rawEndPos, utf8Size_eq]
  rfl

/-- The boundaries of a text are where its positions are. -/
theorem boundary_iff_isValid (text : String) (offset : Nat) :
    Boundary text.toList offset ↔ (String.Pos.Raw.mk offset).IsValid text := by
  constructor
  · rintro ⟨before, ⟨after, h⟩, rfl⟩
    obtain ⟨k, -, hoffset⟩ := exists_splits h
    rw [← hoffset]
    exact k.isValid
  · intro hvalid
    have hsize := utf8Size_charsBefore (text.pos ⟨offset⟩ hvalid)
    rw [String.offset_pos] at hsize
    exact ⟨_, prefix_charsBefore _, hsize⟩

theorem boundary_byteOffset (text : String) (p : Position) :
    Boundary text.toList (byteOffset text p) :=
  ⟨_, prefix_beforePosition _ _, rfl⟩

-- ==================================================================== cutting

/-- The characters from a byte on. There are none to be had if the byte is within a
character, or behind the text. -/
def cutFrom? (text : String) (offset : Nat) : Option (List Char) :=
  (text.pos? ⟨offset⟩).map fun k => (text.sliceFrom k).copy.toList

/-- The offset of a place is that place. -/
theorem pos?_offset {text : String} (k : text.Pos) : text.pos? k.offset = some k := by
  have hvalid := String.Pos.Raw.isValidForSlice_eq_true_iff.mpr k.isValid.toSlice
  rw [String.pos?, String.Slice.pos?, dif_pos hvalid]
  rfl

/-- A cut fails exactly where there is no boundary. -/
theorem cutFrom?_eq_none_iff (text : String) (offset : Nat) :
    cutFrom? text offset = none ↔ ¬ Boundary text.toList offset := by
  rw [cutFrom?, Option.map_eq_none_iff, boundary_iff_isValid]
  constructor
  · intro hnone hvalid
    have hsome := pos?_offset (text.pos ⟨offset⟩ hvalid)
    rw [String.offset_pos, hnone] at hsome
    cases hsome
  · intro hvalid
    have hslice : ¬ (String.Pos.Raw.mk offset).isValidForSlice text.toSlice = true := by
      intro h
      exact hvalid (String.Pos.Raw.isValidForSlice_eq_true_iff.mp h).ofSlice
    rw [String.pos?, String.Slice.pos?, dif_neg hslice]
    rfl

/-- Between the two bytes of a letter there is none. -/
example : cutFrom? "é" 1 = none := by decide

/-- Behind each of its beginnings the text can be cut. -/
theorem cutFrom?_utf8Size {text : String} {before after : List Char}
    (h : before ++ after = text.toList) : cutFrom? text (utf8Size before) = some after := by
  obtain ⟨k, hsplits, hoffset⟩ := exists_splits h
  rw [cutFrom?, ← hoffset, pos?_offset, Option.map_some, hsplits.copy_sliceFrom_eq,
    String.toList_ofList]

/-- The bytes of the pieces of a text. -/
def sizeOfPieces : List (List Char) → Nat
  | [] => 0
  | piece :: pieces => utf8Size piece + sizeOfPieces pieces

/-- The size of the pieces is that of the whole. -/
theorem sizeOfPieces_eq (pieces : List (List Char)) :
    sizeOfPieces pieces = utf8Size pieces.flatten := by
  induction pieces with
  | nil => rfl
  | cons piece pieces ih => rw [sizeOfPieces, List.flatten_cons, utf8Size_append, ih]

/-- The number of bytes before a place: those of the lines before its line, and those of
the characters before its column in the text from that line on. -/
def cutOffset? (text : String) (p : Position) : Option Nat :=
  let lineStart := sizeOfPieces ((linePieces text.toList).take (p.line - 1))
  (cutFrom? text lineStart).map fun rest =>
    lineStart + utf8Size ((rest.take (p.column - 1)).takeWhile (· != '\n'))

/-- The beginning of a line is behind a beginning of the text, so the cut does not fail. -/
theorem cutOffset?_eq (text : String) (p : Position) :
    cutOffset? text p = some (byteOffset text p) := by
  have hstart : sizeOfPieces ((linePieces text.toList).take (p.line - 1))
      = utf8Size (firstLines text.toList (p.line - 1)) := sizeOfPieces_eq _
  have hlines := List.prefix_iff_eq_append.mp (prefix_firstLines text.toList (p.line - 1))
  rw [cutOffset?, hstart, cutFrom?_utf8Size hlines, Option.map_some, byteOffset,
    beforePosition_eq, utf8Size_append]

end Text

-- ========================================================== there and back again

/-- The line and column of a position of a text. -/
def Position.ofPos {text : String} (k : text.Pos) : Position := behind (Text.charsBefore k)

namespace Text

/-- Before a place are the positions that are not behind it. -/
theorem le_byteOffset_iff {text : String} (k : text.Pos) (p : Position) :
    k.offset.byteIdx ≤ byteOffset text p ↔ (Position.ofPos k).AtOrBefore p.fromOne := by
  have hprefix := prefix_charsBefore k
  rw [← utf8Size_charsBefore, byteOffset,
    utf8Size_le_iff hprefix (prefix_beforePosition _ _), prefix_beforePosition_iff hprefix,
    Position.ofPos]

/-- **Bytes and places.** From the line and column of a position one comes back to it. From
any line and column one comes, over cuts that never fail, to a position within the text,
the last one that is not behind them. -/
theorem byteOffset_inverts_places (text : String) :
    (∀ k : text.Pos, byteOffset text (.ofPos k) = k.offset.byteIdx) ∧
    ∀ p : Position,
      cutOffset? text p = some (byteOffset text p) ∧
      (String.Pos.Raw.mk (byteOffset text p)).IsValid text ∧
      byteOffset text p ≤ text.utf8ByteSize ∧
      ∀ k : text.Pos,
        k.offset.byteIdx ≤ byteOffset text p ↔ (Position.ofPos k).AtOrBefore p.fromOne := by
  refine ⟨fun k => ?_, fun p => ⟨cutOffset?_eq text p, ?_, ?_, fun k => le_byteOffset_iff k p⟩⟩
  · rw [Position.ofPos, byteOffset_behind (prefix_charsBefore k), utf8Size_charsBefore]
  · exact (boundary_iff_isValid text _).mp (boundary_byteOffset text p)
  · rw [← utf8Size_toList]
    exact (utf8Size_le_iff (prefix_beforePosition _ _) List.prefix_rfl).mpr
      (prefix_beforePosition _ _)

/-- A column past the end of its line, the second here, leads to that end, and a line past the
last one to the end of the text. -/
example : byteOffset "é\nab\n" ⟨2, 80⟩ = 5 ∧ byteOffset "é\nab\n" ⟨7, 1⟩ = 6 := by decide

end Text

end PropertyGraphQL
