import MiniC.Proofs.LineIndex

/-! # Offsets between characters

The line starts of a text ascend, and the first of them is zero, so a search for the last one up to
an offset always finds one. Between two characters of a text that is not too long, the position of
an offset tells the offset: the line has a start in the index, and the characters of that line which
stand before the column have as many bytes as the offset lies behind it.
-/

namespace MiniC.LineIndex

open String (utf8Len)

variable {source : String} {offset : Nat}

theorem pairwise_startsAfter (offset : Nat) (text : List Char) :
    (startsAfter offset text).Pairwise (· < ·) := by
  induction text generalizing offset with
  | nil => exact .nil
  | cons c text ih =>
    rw [startsAfter]
    split
    · exact .cons (fun start hstart => (bounds_of_mem_startsAfter hstart).1) (ih _)
    · exact ih _

theorem starts_eq (source : String) :
    (ofSource source).starts = 0 :: startsAfter 0 source.toList := by
  rw [starts_ofSource (List.append_nil _).symm, startsAfter, List.append_nil]

theorem pairwise_starts (source : String) : (ofSource source).starts.Pairwise (· < ·) := by
  rw [starts_eq]
  exact .cons (fun start hstart => (bounds_of_mem_startsAfter hstart).1) (pairwise_startsAfter 0 _)

theorem lt_length_takeWhile_iff {starts : List Nat} (h : starts.Pairwise (· < ·)) {i : Nat}
    (hi : i < starts.length) : i < (starts.takeWhile (· ≤ offset)).length ↔ starts[i] ≤ offset := by
  induction starts generalizing i with
  | nil => cases hi
  | cons start starts ih =>
    obtain ⟨hstart, hstarts⟩ := List.pairwise_cons.mp h
    by_cases hle : start ≤ offset
    · rw [List.takeWhile_cons_of_pos (by simpa using hle)]
      cases i with
      | zero => simpa using hle
      | succ i => simpa using ih hstarts (Nat.lt_of_succ_lt_succ hi)
    · rw [List.takeWhile_cons_of_neg (by simpa using hle)]
      refine iff_of_false (Nat.not_lt_zero i) fun hget => hle ?_
      cases i with
      | zero => exact hget
      | succ i => exact Nat.le_trans (Nat.le_of_lt (hstart _ (List.getElem_mem _))) hget

theorem lt_linesUpTo_iff {i : Nat} (hi : i < (ofSource source).starts.length) :
    i < (ofSource source).linesUpTo offset ↔ (ofSource source).starts[i] ≤ offset :=
  lt_length_takeWhile_iff (pairwise_starts source) hi

theorem linesUpTo_pos (source : String) (offset : Nat) :
    0 < (ofSource source).linesUpTo offset := by
  rw [linesUpTo, starts_eq, List.takeWhile_cons_of_pos (by simp)]
  exact Nat.zero_lt_succ _

theorem linesUpTo_sub_one_lt (source : String) (offset : Nat) :
    (ofSource source).linesUpTo offset - 1 < (ofSource source).starts.length := by
  have hpos := linesUpTo_pos source offset
  have hle : (ofSource source).linesUpTo offset ≤ (ofSource source).starts.length :=
    (List.takeWhile_sublist _).length_le
  omega

/-- The byte offset of a position: the start of its line, and behind it the bytes of the characters
before its column. -/
def offsetOf (index : LineIndex) (p : Position) : Nat :=
  let start := index.starts.getD (p.line - 1) 0
  let line := (dropBytes? start index.source.toList).getD []
  start + utf8Len (line.take (p.col - 1))

theorem offsetOf_behind {before rest : List Char} (hs : source.toList = before ++ rest) :
    (ofSource source).offsetOf ⟨before.count '\n' + 1, (lastLine before).length + 1⟩
      = utf8Len before := by
  have hsource : (ofSource source).source = source := rfl
  have htext : source.toList = fullLines before ++ (lastLine before ++ rest) := by
    rw [hs, ← List.append_assoc, fullLines_append_lastLine]
  rw [offsetOf, Nat.add_sub_cancel, Nat.add_sub_cancel, lastStart hs, hsource, htext,
    dropBytes?_append, Option.getD_some, List.take_left, ← String.utf8Len_append,
    fullLines_append_lastLine]

variable {p : source.Pos} {before after : String}

theorem toList_of_splits (h : p.Splits before after) :
    source.toList = before.toList ++ after.toList := by
  rw [← String.toList_append, ← h.eq_append]

theorem byteIdx_of_splits (h : p.Splits before after) :
    p.offset.byteIdx = utf8Len before.toList := by
  rw [h.offset_eq_rawEndPos, String.byteIdx_rawEndPos, String.utf8Len_toList]

/-- Where all characters can be counted, the position behind a text counts its line feeds and the
characters behind the last of them. -/
theorem position_of_splits (hsize : source.utf8ByteSize < Position.limit)
    (h : p.Splits before after) :
    (ofSource source).position p.offset.byteIdx
      = ⟨before.toList.count '\n' + 1, (lastLine before.toList).length + 1⟩ := by
  have hs := toList_of_splits h
  rw [byteIdx_of_splits h, position_utf8Len hs, Position.behind_eq]
  rw [← String.utf8Len_toList, hs, String.utf8Len_append] at hsize
  have := length_le_utf8Len before.toList
  omega

/-- A position between two characters tells where it is. -/
theorem offsetOf_position (hsize : source.utf8ByteSize < Position.limit) (p : source.Pos) :
    (ofSource source).offsetOf ((ofSource source).position p.offset.byteIdx)
      = p.offset.byteIdx := by
  have h := p.splits
  rw [position_of_splits hsize h, offsetOf_behind (toList_of_splits h), byteIdx_of_splits h]

/-- What positions say of the byte offsets of a source. -/
structure Exact (source : String) : Prop where
  /-- The line of a boundary between characters is told by the line feeds before it, and the column
  by the characters behind the last of them, or behind the start of the source. -/
  boundary : ∀ (p : source.Pos) (before after : String), p.Splits before after →
    (ofSource source).position p.offset.byteIdx
      = ⟨before.toList.count '\n' + 1, (lastLine before.toList).length + 1⟩
  recovered : ∀ p : source.Pos,
    (ofSource source).offsetOf ((ofSource source).position p.offset.byteIdx) = p.offset.byteIdx
  /-- No two boundaries share a position. -/
  apart : ∀ p q : source.Pos,
    (ofSource source).position p.offset.byteIdx = (ofSource source).position q.offset.byteIdx →
      p = q
  /-- An offset past the end stands for the end. -/
  past : ∀ offset, source.utf8ByteSize ≤ offset →
    (ofSource source).position offset = (ofSource source).position source.utf8ByteSize
  /-- Just the lines before the place at which the search for an offset ends begin up to there. -/
  search : ∀ offset i (hi : i < (ofSource source).starts.length),
    i < (ofSource source).linesUpTo offset ↔ (ofSource source).starts[i] ≤ offset
  /-- The search never ends at the first place, nor behind the last line. -/
  found : ∀ offset, 0 < (ofSource source).linesUpTo offset ∧
    (ofSource source).linesUpTo offset - 1 < (ofSource source).starts.length

/-- Positions are exact where all lines and columns of a source can be counted. -/
theorem position_exact (source : String) (hsize : source.utf8ByteSize < 2 ^ 32 - 1) :
    Exact source := by
  constructor
  case boundary =>
    intro p before after h
    exact position_of_splits hsize h
  case recovered => exact offsetOf_position hsize
  case apart =>
    intro p q hpq
    have hoffset := offsetOf_position hsize p
    rw [hpq, offsetOf_position hsize q] at hoffset
    apply String.Pos.ext
    apply String.Pos.Raw.ext
    exact hoffset.symm
  case past =>
    intro offset h
    exact position_of_le h
  case search =>
    intro offset i hi
    exact lt_linesUpTo_iff hi
  case found =>
    intro offset
    exact ⟨linesUpTo_pos source offset, linesUpTo_sub_one_lt source offset⟩

/-- Characters of two, one, three and four bytes: the third one ends at byte 6, in column 2 of line
2, and an offset past the end is in column 3. -/
theorem position_exact_widths :
    "é\n日𝄞".utf8ByteSize = 10 ∧ (ofSource "é\n日𝄞").position 6 = ⟨2, 2⟩ ∧
      (ofSource "é\n日𝄞").offsetOf ⟨2, 2⟩ = 6 ∧ (ofSource "é\n日𝄞").position 11 = ⟨2, 3⟩ := by
  have hsize : "é\n日𝄞".utf8ByteSize = 10 := by decide +kernel
  have happend : "é\n日𝄞" = "é\n日" ++ "𝄞" := by decide +kernel
  have hthird : (⟨6⟩ : String.Pos.Raw) = "é\n日".rawEndPos := by decide +kernel
  have hvalid : (⟨6⟩ : String.Pos.Raw).IsValid "é\n日𝄞" :=
    String.Pos.Raw.isValid_iff_exists_append.mpr ⟨_, _, happend, hthird⟩
  have h : Exact "é\n日𝄞" := position_exact "é\n日𝄞" (by rw [hsize]; decide)
  have hbehind : (ofSource "é\n日𝄞").position 6 = ⟨2, 2⟩ :=
    h.boundary (.mk ⟨6⟩ hvalid) "é\n日" "𝄞" ⟨happend, hthird⟩
  have hlast : (ofSource "é\n日𝄞").position 10 = ⟨2, 3⟩ :=
    h.boundary "é\n日𝄞".endPos "é\n日𝄞" "" ⟨(String.append_empty).symm, rfl⟩
  have hback : (ofSource "é\n日𝄞").offsetOf ((ofSource "é\n日𝄞").position 6) = 6 :=
    h.recovered (.mk ⟨6⟩ hvalid)
  rw [hbehind] at hback
  refine ⟨hsize, hbehind, hback, ?_⟩
  rw [h.past 11 (by rw [hsize]; decide), hsize, hlast]

end MiniC.LineIndex
