import MiniC.Span

/-! # Byte offsets to positions

`LineIndex.ofSource` notes at which byte every line of a text begins. `LineIndex.position` turns
a byte offset into a position: the line is the last one that begins at or before the offset, and
the column counts the characters from there. An offset inside a character is counted in bytes,
and an offset past the end stands for the end.
-/

namespace MiniC

structure LineIndex where
  source : String
  starts : List Nat

namespace LineIndex

/-- The byte offsets just after the line feeds of a text that begins at byte `offset`, put in
front of the offsets `found` so far, which are held last first. -/
def startsFrom (offset : Nat) (found : List Nat) : List Char → List Nat
  | [] => found.reverse
  | c :: rest =>
    let next := offset + c.utf8Size
    startsFrom next (if c = '\n' then next :: found else found) rest

def ofSource (source : String) : LineIndex := ⟨source, startsFrom 0 [0] source.toList⟩

/-- The number of lines, where a line feed at the end opens one more line. -/
def lineCount (index : LineIndex) : Nat := index.starts.length

/-- How many lines begin at or before a byte offset. -/
def linesUpTo (index : LineIndex) (offset : Nat) : Nat :=
  (index.starts.takeWhile (· ≤ offset)).length

/-- The characters after the first `bytes` bytes; none if that cuts a character or there are
not so many bytes. -/
def dropBytes? : Nat → List Char → Option (List Char)
  | 0, rest => some rest
  | _ + 1, [] => none
  | bytes + 1, c :: rest =>
    if c.utf8Size ≤ bytes + 1 then dropBytes? (bytes + 1 - c.utf8Size) rest else none

/-- `counted` plus the number of characters in the first `bytes` bytes; none if that cuts a
character or there are not so many bytes. -/
def countChars? (counted : Nat) : Nat → List Char → Option Nat
  | 0, _ => some counted
  | _ + 1, [] => none
  | bytes + 1, c :: rest =>
    if c.utf8Size ≤ bytes + 1 then countChars? (counted + 1) (bytes + 1 - c.utf8Size) rest
    else none

/-- The width of the text between two byte offsets: in characters if both are between
characters, and else in bytes. -/
def width (index : LineIndex) (start stop : Nat) : Nat :=
  ((dropBytes? start index.source.toList).bind (countChars? 0 (stop - start))).getD (stop - start)

def position (index : LineIndex) (offset : Nat) : Position :=
  let offset := min offset index.source.utf8ByteSize
  let line := index.linesUpTo offset
  Position.clamp line (index.width (index.starts.getD (line - 1) 0) offset + 1)

end LineIndex

end MiniC
