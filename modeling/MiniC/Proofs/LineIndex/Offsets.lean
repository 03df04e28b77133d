import MiniC.Proofs.LineIndex

/-! # Any byte offset

A byte offset stands behind the characters that end up to there, and it may stand some bytes inside
the character that follows them; past the end it stands for the end. On the line of the offset,
columns count characters if it stands between two characters, and bytes if it splits one.
-/

namespace MiniC

open String (utf8Len)

variable {offset : Nat} {c : Char} {text before rest : List Char}

/-- The characters of a text that end within its first `offset` bytes. -/
def charsWithin : Nat → List Char → List Char
  | _, [] => []
  | offset, c :: text =>
    if c.utf8Size ≤ offset then c :: charsWithin (offset - c.utf8Size) text else []

/-- How many of the first `offset` bytes of a text belong to a character that they split. -/
def bytesInside (offset : Nat) (text : List Char) : Nat :=
  min offset (utf8Len text) - utf8Len (charsWithin offset text)

/-- The text behind the characters that end up to an offset begins with one that does not. -/
theorem exists_charsWithin_append (offset : Nat) (text : List Char) :
    ∃ rest, text = charsWithin offset text ++ rest ∧
      ∀ c ∈ rest.head?, offset < utf8Len (charsWithin offset text) + c.utf8Size := by
  induction text generalizing offset with
  | nil => exact ⟨[], rfl, by simp⟩
  | cons d text ih =>
    rw [charsWithin]
    split
    next hd =>
      obtain ⟨rest, htext, hnext⟩ := ih (offset - d.utf8Size)
      refine ⟨rest, by rw [List.cons_append, ← htext], fun c hc => ?_⟩
      have := hnext c hc
      rw [String.utf8Len_cons]
      omega
    next hd =>
      refine ⟨d :: text, rfl, fun c hc => ?_⟩
      obtain rfl := Option.some.inj hc
      simpa using hd

theorem utf8Len_charsWithin_le (offset : Nat) (text : List Char) :
    utf8Len (charsWithin offset text) ≤ min offset (utf8Len text) := by
  induction text generalizing offset with
  | nil => simp [charsWithin]
  | cons c text ih =>
    rw [charsWithin]
    split
    next hc =>
      have := ih (offset - c.utf8Size)
      rw [String.utf8Len_cons, String.utf8Len_cons]
      omega
    · simp

theorem utf8Len_charsWithin_add (offset : Nat) (text : List Char) :
    utf8Len (charsWithin offset text) + bytesInside offset text = min offset (utf8Len text) := by
  have := utf8Len_charsWithin_le offset text
  rw [bytesInside]
  omega

theorem charsWithin_mono {offset' : Nat} (h : offset ≤ offset') (text : List Char) :
    charsWithin offset text <+: charsWithin offset' text := by
  induction text generalizing offset offset' with
  | nil => exact List.prefix_refl _
  | cons c text ih =>
    rw [charsWithin, charsWithin]
    split
    next hc =>
      rw [if_pos (by omega), List.prefix_cons_inj]
      exact ih (by omega)
    · exact List.nil_prefix

/-- The columns before an offset on its line: characters, or bytes if the offset splits one. -/
def columnsBefore (offset : Nat) (text : List Char) : Nat :=
  let line := lastLine (charsWithin offset text)
  if bytesInside offset text = 0 then line.length
  else utf8Len line + bytesInside offset text

namespace LineIndex

variable {source : String}

/-- An offset inside a character is on the line of that character, and its column is counted in
bytes. -/
theorem position_split {bytes : Nat} (hs : source.toList = before ++ c :: rest)
    (hpos : 0 < bytes) (hlt : bytes < c.utf8Size) :
    (ofSource source).position (utf8Len before + bytes)
      = .clamp (before.count '\n' + 1) (utf8Len (lastLine before) + bytes + 1) := by
  have hsource : (ofSource source).source = source := rfl
  have hsize : source.utf8ByteSize = utf8Len before + (utf8Len rest + c.utf8Size) := by
    rw [← String.utf8Len_toList, hs, String.utf8Len_append, String.utf8Len_cons]
  have hlines : (ofSource source).linesUpTo (utf8Len before + bytes) = before.count '\n' + 1 := by
    refine linesUpTo_of_le hs (Nat.le_add_right _ _) fun start hstart => ?_
    -- a line feed has one byte, so none can be split
    have hc : c ≠ '\n' := by
      rintro rfl
      rw [show ('\n').utf8Size = 1 from rfl] at hlt
      omega
    rw [startsAfter, if_neg hc] at hstart
    have := (bounds_of_mem_startsAfter hstart).1
    omega
  have hfull : utf8Len before = utf8Len (fullLines before) + utf8Len (lastLine before) := by
    rw [← String.utf8Len_append, fullLines_append_lastLine]
  have hwidth : (ofSource source).width (utf8Len (fullLines before)) (utf8Len before + bytes)
      = utf8Len (lastLine before) + bytes := by
    have htext : source.toList = fullLines before ++ (lastLine before ++ c :: rest) := by
      rw [hs, ← List.append_assoc, fullLines_append_lastLine]
    have hbytes : utf8Len before + bytes - utf8Len (fullLines before)
        = utf8Len (lastLine before) + bytes := by omega
    rw [width, hsource, htext, hbytes, dropBytes?_append, Option.bind_some, countChars?_append,
      countChars?_cons hpos, if_neg (by omega), Option.getD_none]
  rw [position, hsource, hsize, Nat.min_eq_left (by omega), hlines, Nat.add_sub_cancel,
    lastStart hs, hwidth]

theorem position_eq (source : String) (offset : Nat) :
    (ofSource source).position offset
      = .clamp ((charsWithin offset source.toList).count '\n' + 1)
        (columnsBefore offset source.toList + 1) := by
  have hclamp : (ofSource source).position offset
      = (ofSource source).position (min offset source.utf8ByteSize) := by
    rcases Nat.le_total offset source.utf8ByteSize with h | h
    · rw [Nat.min_eq_left h]
    · rw [Nat.min_eq_right h, position_of_le h]
  obtain ⟨rest, hs, hnext⟩ := exists_charsWithin_append offset source.toList
  have hadd := utf8Len_charsWithin_add offset source.toList
  rw [String.utf8Len_toList] at hadd
  rw [hclamp, ← hadd, columnsBefore]
  by_cases hinside : bytesInside offset source.toList = 0
  · rw [hinside, Nat.add_zero, position_utf8Len hs, Position.behind, if_pos rfl]
  · cases rest with
    | nil =>
      have hsize := congrArg utf8Len hs
      rw [List.append_nil, String.utf8Len_toList] at hsize
      omega
    | cons c rest =>
      have := hnext c rfl
      rw [position_split hs (by omega) (by omega), if_neg hinside]

end LineIndex

end MiniC
