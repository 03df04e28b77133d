import Mathlib.Data.List.DropRight
import Mathlib.Data.String.Basic
import MiniC.LineIndex
import MiniC.Token.Lexer

/-! # The position behind a text

The lexer moves a position along the characters that it passes, and a line index finds one for a
byte offset. Behind the same text both give the same position: as many lines down as the text has
line feeds, and as many columns along as characters stand behind the last of them.
-/

namespace MiniC

open String (utf8Len)

def lastLine (text : List Char) : List Char := text.rtakeWhile (· ≠ '\n')

def fullLines (text : List Char) : List Char := text.rdropWhile (· ≠ '\n')

theorem fullLines_append_lastLine (text : List Char) : fullLines text ++ lastLine text = text :=
  List.rdropWhile_append_rtakeWhile

theorem lastLine_concat (text : List Char) (c : Char) :
    lastLine (text ++ [c]) = if c = '\n' then [] else lastLine text ++ [c] := by
  rw [lastLine, List.rtakeWhile_concat]
  by_cases h : c = '\n' <;> simp [h, lastLine]

theorem newline_not_mem_lastLine (text : List Char) : '\n' ∉ lastLine text := fun h => by
  simpa using List.mem_rtakeWhile_imp h

theorem length_lastLine_le (text : List Char) : (lastLine text).length ≤ text.length := by
  have h := congrArg List.length (fullLines_append_lastLine text)
  rw [List.length_append] at h
  omega

theorem length_le_utf8Len (text : List Char) : text.length ≤ utf8Len text := by
  induction text with
  | nil => exact Nat.le_refl 0
  | cons c text ih =>
    have hc := c.utf8Size_pos
    rw [List.length_cons, String.utf8Len_cons]
    omega

theorem fullLines_cases (text : List Char) :
    fullLines text = [] ∨ ∃ lines, fullLines text = lines ++ ['\n'] := by
  unfold fullLines
  by_cases h : text.rdropWhile (· ≠ '\n') = []
  · exact .inl h
  · have hlast := List.rdropWhile_last_not (· ≠ '\n') text h
    simp only [decide_not, Bool.not_eq_true, Bool.not_eq_false', decide_eq_true_eq] at hlast
    refine .inr ⟨(text.rdropWhile (· ≠ '\n')).dropLast, ?_⟩
    conv_lhs => rw [← List.dropLast_append_getLast h]
    simp [hlast]

namespace Position

/-- The position behind a text that begins a source. -/
def behind (text : List Char) : Position :=
  clamp (text.count '\n' + 1) ((lastLine text).length + 1)

theorem behind_concat (text : List Char) (c : Char) :
    behind (text ++ [c]) = (behind text).past c := by
  rw [past, behind, lastLine_concat]
  split
  next h => simp [behind, clamp, h]; omega
  next h => simp [behind, clamp, h]; omega

theorem pastAll_eq_behind (text : List Char) : pastAll ⟨1, 1⟩ text = behind text := by
  induction text using List.reverseRecOn with
  | nil => rfl
  | append_singleton text c ih => rw [behind_concat, ← ih, pastAll, List.foldl_concat, pastAll]

theorem behind_append (text more : List Char) :
    behind (text ++ more) = (behind text).pastAll more := by
  rw [← pastAll_eq_behind, ← pastAll_eq_behind, pastAll, List.foldl_append, pastAll, pastAll]

/-- Nothing is cut off where a text has fewer characters than a position can count. -/
theorem behind_eq {text : List Char} (hlen : text.length < limit) :
    behind text = ⟨text.count '\n' + 1, (lastLine text).length + 1⟩ := by
  have hlines : text.count '\n' + 1 ≤ limit := Nat.lt_of_le_of_lt List.count_le_length hlen
  have hcols : (lastLine text).length + 1 ≤ limit :=
    Nat.lt_of_le_of_lt (length_lastLine_le text) hlen
  rw [behind, clamp, Nat.min_eq_left hlines, Nat.min_eq_left hcols]

end Position

namespace LineIndex

variable {source : String} {before rest : List Char}

/-- The byte offsets just after the line feeds of a text that begins at byte `offset`. -/
def startsAfter (offset : Nat) : List Char → List Nat
  | [] => []
  | c :: rest =>
    let next := offset + c.utf8Size
    if c = '\n' then next :: startsAfter next rest else startsAfter next rest

theorem startsFrom_eq (offset : Nat) (found : List Nat) (text : List Char) :
    startsFrom offset found text = found.reverse ++ startsAfter offset text := by
  induction text generalizing offset found with
  | nil => simp [startsFrom, startsAfter]
  | cons c text ih =>
    rw [startsFrom, startsAfter, ih]
    split <;> simp

theorem startsAfter_append (offset : Nat) (text more : List Char) :
    startsAfter offset (text ++ more)
      = startsAfter offset text ++ startsAfter (offset + utf8Len text) more := by
  induction text generalizing offset with
  | nil => simp [startsAfter]
  | cons c text ih =>
    have hlen : offset + utf8Len (c :: text) = offset + c.utf8Size + utf8Len text := by
      rw [String.utf8Len_cons]
      omega
    rw [List.cons_append, startsAfter, startsAfter, ih, hlen]
    split <;> simp

theorem bounds_of_mem_startsAfter {offset start : Nat} {text : List Char}
    (h : start ∈ startsAfter offset text) : offset < start ∧ start ≤ offset + utf8Len text := by
  induction text generalizing offset with
  | nil => simp [startsAfter] at h
  | cons c text ih =>
    have hc := c.utf8Size_pos
    rw [String.utf8Len_cons]
    have hmem : start = offset + c.utf8Size ∨ start ∈ startsAfter (offset + c.utf8Size) text := by
      rw [startsAfter] at h
      split at h
      · exact List.mem_cons.mp h
      · exact .inr h
    rcases hmem with rfl | hmem
    · omega
    · have := ih hmem
      omega

theorem length_startsAfter (offset : Nat) (text : List Char) :
    (startsAfter offset text).length = text.count '\n' := by
  induction text generalizing offset with
  | nil => rfl
  | cons c text ih =>
    rw [startsAfter]
    by_cases h : c = '\n' <;> simp [h, ih]

theorem startsAfter_of_not_mem {offset : Nat} {text : List Char} (h : '\n' ∉ text) :
    startsAfter offset text = [] := by
  rw [← List.length_eq_zero_iff, length_startsAfter, List.count_eq_zero_of_not_mem h]

theorem dropBytes?_cons {bytes : Nat} (hbytes : 0 < bytes) (c : Char) (text : List Char) :
    dropBytes? bytes (c :: text)
      = if c.utf8Size ≤ bytes then dropBytes? (bytes - c.utf8Size) text else none := by
  obtain ⟨n, rfl⟩ := Nat.exists_eq_add_one_of_ne_zero hbytes.ne'
  rw [dropBytes?]

theorem dropBytes?_append (text more : List Char) :
    dropBytes? (utf8Len text) (text ++ more) = some more := by
  induction text with
  | nil => simp [dropBytes?]
  | cons c text ih =>
    have hc := c.utf8Size_pos
    rw [String.utf8Len_cons, List.cons_append, dropBytes?_cons (by omega), if_pos (by omega),
      Nat.add_sub_cancel, ih]

theorem countChars?_cons {bytes : Nat} (hbytes : 0 < bytes) (counted : Nat) (c : Char)
    (text : List Char) :
    countChars? counted bytes (c :: text)
      = if c.utf8Size ≤ bytes then countChars? (counted + 1) (bytes - c.utf8Size) text
        else none := by
  obtain ⟨n, rfl⟩ := Nat.exists_eq_add_one_of_ne_zero hbytes.ne'
  rw [countChars?]

theorem countChars?_append (counted : Nat) (text more : List Char) (bytes : Nat) :
    countChars? counted (utf8Len text + bytes) (text ++ more)
      = countChars? (counted + text.length) bytes more := by
  induction text generalizing counted with
  | nil => simp
  | cons c text ih =>
    have hc := c.utf8Size_pos
    rw [String.utf8Len_cons, List.cons_append, countChars?_cons (by omega), if_pos (by omega),
      Nat.add_right_comm, Nat.add_sub_cancel, ih, List.length_cons, Nat.add_right_comm,
      Nat.add_assoc]

theorem starts_ofSource (hs : source.toList = before ++ rest) :
    (ofSource source).starts
      = (0 :: startsAfter 0 before) ++ startsAfter (utf8Len before) rest := by
  rw [ofSource, startsFrom_eq, hs, startsAfter_append]
  simp

/-- Up to an offset behind `before`, if no line begins in between, lines begin within `before`. -/
theorem linesUpTo_of_le {offset : Nat} (hs : source.toList = before ++ rest)
    (hle : utf8Len before ≤ offset)
    (hnext : ∀ start ∈ startsAfter (utf8Len before) rest, offset < start) :
    (ofSource source).linesUpTo offset = before.count '\n' + 1 := by
  have hin : ∀ start ∈ 0 :: startsAfter 0 before, decide (start ≤ offset) = true := by
    intro start hstart
    rw [decide_eq_true_eq]
    rcases List.mem_cons.mp hstart with rfl | hstart
    · exact Nat.zero_le _
    · have := (bounds_of_mem_startsAfter hstart).2
      omega
  have hout : (startsAfter (utf8Len before) rest).takeWhile (· ≤ offset) = [] := by
    cases hstarts : startsAfter (utf8Len before) rest with
    | nil => rfl
    | cons start starts =>
      have := hnext start (hstarts ▸ List.mem_cons_self)
      rw [List.takeWhile_cons_of_neg]
      simpa using this
  rw [linesUpTo, starts_ofSource hs, List.takeWhile_append_of_pos hin, hout, List.append_nil,
    List.length_cons, length_startsAfter]

theorem linesUpTo_utf8Len (hs : source.toList = before ++ rest) :
    (ofSource source).linesUpTo (utf8Len before) = before.count '\n' + 1 :=
  linesUpTo_of_le hs (Nat.le_refl _) fun _ hstart => (bounds_of_mem_startsAfter hstart).1

theorem lastStart (hs : source.toList = before ++ rest) :
    (ofSource source).starts.getD (before.count '\n') 0 = utf8Len (fullLines before) := by
  have hstarts : startsAfter 0 before = startsAfter 0 (fullLines before) := by
    conv_lhs => rw [← fullLines_append_lastLine before]
    rw [startsAfter_append, startsAfter_of_not_mem (newline_not_mem_lastLine before),
      List.append_nil]
  have hcount : before.count '\n' = (startsAfter 0 (fullLines before)).length := by
    rw [← hstarts, length_startsAfter]
  rw [starts_ofSource hs, hstarts, hcount]
  rcases fullLines_cases before with h | ⟨lines, h⟩
  · rw [h]
    rfl
  · have hnewline : startsAfter (0 + utf8Len lines) ['\n'] = [utf8Len (lines ++ ['\n'])] := by
      simp [startsAfter]
    rw [h, startsAfter_append, hnewline, ← List.cons_append, List.append_assoc]
    simp [List.getD_eq_getElem?_getD]

theorem width_lastLine (hs : source.toList = before ++ rest) :
    (ofSource source).width (utf8Len (fullLines before)) (utf8Len before)
      = (lastLine before).length := by
  have htext : source.toList = fullLines before ++ (lastLine before ++ rest) := by
    rw [hs, ← List.append_assoc, fullLines_append_lastLine]
  have hlen : utf8Len before - utf8Len (fullLines before) = utf8Len (lastLine before) := by
    have := congrArg utf8Len (fullLines_append_lastLine before)
    rw [String.utf8Len_append] at this
    omega
  have hsource : (ofSource source).source = source := rfl
  have hcount := countChars?_append 0 (lastLine before) rest 0
  rw [Nat.add_zero, Nat.zero_add, countChars?] at hcount
  rw [width, hsource, htext, hlen, dropBytes?_append, Option.bind_some, hcount, Option.getD_some]

/-- A line index gives the position that counting gives. -/
theorem position_utf8Len (hs : source.toList = before ++ rest) :
    (ofSource source).position (utf8Len before) = .behind before := by
  have hle : min (utf8Len before) (ofSource source).source.utf8ByteSize = utf8Len before := by
    have : source.utf8ByteSize = utf8Len (before ++ rest) := by rw [← hs, String.utf8Len_toList]
    rw [String.utf8Len_append] at this
    exact Nat.min_eq_left (by rw [show (ofSource source).source = source from rfl]; omega)
  rw [position, hle, linesUpTo_utf8Len hs, Nat.add_sub_cancel, lastStart hs, width_lastLine hs,
    Position.behind]

theorem position_of_le {offset : Nat} (h : source.utf8ByteSize ≤ offset) :
    (ofSource source).position offset = (ofSource source).position source.utf8ByteSize := by
  have hsource : (ofSource source).source = source := rfl
  rw [position, position, hsource, Nat.min_eq_right h, Nat.min_self]

end LineIndex

end MiniC
