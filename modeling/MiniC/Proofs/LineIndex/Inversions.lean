import MiniC.Proofs.LineIndex.Offsets

/-! # Offsets whose positions stand in the wrong order

Further into a text, lines do not go back, and on one line neither do columns as long as they count
the same thing. But the column of an offset inside a character counts bytes, and there can be fewer
characters than that up to a later offset between characters. The order is lost then, and where a
text has more lines than a position can count, but nowhere else.
-/

namespace MiniC

open String (utf8Len)

variable {a b : Nat} {text more : List Char}

/-- How the position of an offset `b` can stand before that of an offset `a` which is no greater. -/
inductive Inverted (text : List Char) (a b : Nat) : Prop
  /-- On the line of both, `a` splits a character and `b` does not, and more bytes stand before `a`
  than characters before `b`. -/
  | split (line : (charsWithin a text).count '\n' = (charsWithin b text).count '\n')
      (inside : bytesInside a text ≠ 0) (between : bytesInside b text = 0)
      (bytes : (lastLine (charsWithin b text)).length
        < utf8Len (lastLine (charsWithin a text)) + bytesInside a text)
      (countable : (lastLine (charsWithin b text)).length + 1 < Position.limit)
  /-- Both lines are too far down to be told apart. -/
  | uncounted (line : (charsWithin a text).count '\n' < (charsWithin b text).count '\n')
      (far : Position.limit ≤ (charsWithin a text).count '\n' + 1)
      (columns : columnsBefore b text < columnsBefore a text)
      (countable : columnsBefore b text + 1 < Position.limit)

theorem lastLine_append_of_not_mem (h : '\n' ∉ more) :
    lastLine (text ++ more) = lastLine text ++ more := by
  induction more using List.reverseRecOn with
  | nil => simp
  | append_singleton more c ih =>
    rw [List.mem_append, List.mem_singleton, not_or] at h
    rw [← List.append_assoc, lastLine_concat, if_neg (Ne.symm h.2), ih h.1, List.append_assoc]

/-- On one line, columns go back only from bytes to characters. -/
theorem columnsBefore_lt_iff (hab : a ≤ b)
    (hline : (charsWithin a text).count '\n' = (charsWithin b text).count '\n') :
    columnsBefore b text < columnsBefore a text ↔
      bytesInside a text ≠ 0 ∧ bytesInside b text = 0 ∧
        (lastLine (charsWithin b text)).length
          < utf8Len (lastLine (charsWithin a text)) + bytesInside a text := by
  obtain ⟨more, hmore⟩ := charsWithin_mono hab text
  rw [← hmore, List.count_append] at hline
  have hnewline : '\n' ∉ more := List.count_eq_zero.mp (by omega)
  -- both offsets are so many bytes behind the start of their line
  have hbytes : bytesInside a text ≤ utf8Len more + bytesInside b text := by
    have ha := utf8Len_charsWithin_add a text
    have hb := utf8Len_charsWithin_add b text
    rw [← hmore, String.utf8Len_append] at hb
    omega
  have hlength := length_le_utf8Len (lastLine (charsWithin a text))
  have hmorelength := length_le_utf8Len more
  simp only [columnsBefore, ← hmore, lastLine_append_of_not_mem hnewline, List.length_append,
    String.utf8Len_append]
  split <;> split <;> omega

namespace Position

/-- A position further down can only stand before one above it if their lines are the same at the
limit. -/
theorem clamp_lt_clamp_iff {line line' col col' : Nat} (h : line ≤ line') :
    clamp line' col' < clamp line col ↔
      (line = line' ∨ limit ≤ line) ∧ col' < col ∧ col' < limit := by
  simp only [lt_def, clamp]
  omega

end Position

namespace LineIndex

/-- The positions of two offsets stand in the wrong order just if the offsets are inverted. -/
theorem position_lt_iff_inverted (source : String) (hab : a ≤ b) :
    (ofSource source).position b < (ofSource source).position a ↔ Inverted source.toList a b := by
  have hlines : (charsWithin a source.toList).count '\n'
      ≤ (charsWithin b source.toList).count '\n' :=
    (charsWithin_mono hab _).sublist.count_le _
  rw [position_eq, position_eq, Position.clamp_lt_clamp_iff (by omega)]
  constructor
  · rintro ⟨hline, hcolumns, hcountable⟩
    by_cases heq : (charsWithin a source.toList).count '\n'
        = (charsWithin b source.toList).count '\n'
    · obtain ⟨hinside, hbetween, hbytes⟩ := (columnsBefore_lt_iff hab heq).mp (by omega)
      refine .split heq hinside hbetween hbytes ?_
      rwa [columnsBefore, if_pos hbetween] at hcountable
    · exact .uncounted (by omega) (by omega) (by omega) hcountable
  · rintro (⟨hline, hinside, hbetween, hbytes, hcountable⟩ | ⟨hline, hfar, hcolumns, hcountable⟩)
    · have hcolumns := (columnsBefore_lt_iff hab hline).mpr ⟨hinside, hbetween, hbytes⟩
      rw [columnsBefore, if_pos hbetween] at hcolumns ⊢
      exact ⟨by omega, by omega, hcountable⟩
    · exact ⟨by omega, by omega, hcountable⟩

/-- The second byte of a character of three bytes ends behind the end of the character. -/
theorem position_inverted_within :
    2 ≤ 3 ∧ Inverted "日".toList 2 3 ∧ (ofSource "日").position 3 < (ofSource "日").position 2 := by
  have hinverted : Inverted "日".toList 2 3 :=
    .split (by decide) (by decide) (by decide) (by decide) (by decide)
  exact ⟨by decide, hinverted, (position_lt_iff_inverted "日" (by decide)).mpr hinverted⟩

/-- Positions do not ascend with offsets: a character that is split can end behind its own end. -/
theorem position_not_monotone :
    (ofSource "日").position 2 = ⟨1, 3⟩ ∧ (ofSource "日").position 3 = ⟨1, 2⟩ ∧
      ¬ ∀ (source : String) (a b : Nat), a ≤ b →
        (ofSource source).position a ≤ (ofSource source).position b := by
  have hinside : (ofSource "日").position 2 = ⟨1, 3⟩ := by decide +kernel
  have hbehind : (ofSource "日").position 3 = ⟨1, 2⟩ := by decide +kernel
  refine ⟨hinside, hbehind, fun h => ?_⟩
  have hle := h "日" 2 3 (by decide)
  rw [hinside, hbehind] at hle
  exact absurd hle (by decide)

end LineIndex

end MiniC
