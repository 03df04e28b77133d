import MiniC.Token

/-! # From text to tokens

`Piece.ofChars` cuts the next piece off a text: a blank, a comment or the text of one token,
always the longest that fits. `Token.lex` cuts a whole source, places every token by line and
column, and closes the list with `eof`. A block comment that never closes is an error of two
characters; the rest of the source lies inside it and gives no more tokens.
-/

namespace MiniC

namespace Position

def past (p : Position) (c : Char) : Position :=
  if c = '\n' then clamp (p.line + 1) 1 else clamp p.line (p.col + 1)

def pastAll (p : Position) (text : List Char) : Position := text.foldl past p

end Position

def isBlank (c : Char) : Bool :=
  c = ' ' || c = '\t' || c = '\r' || c = '\n' || c = '\x0c'

def isWordStart (c : Char) : Bool := c.isAlpha || c = '_'

def isWordPart (c : Char) : Bool := c.isAlphanum || c = '_'

namespace TokenKind

/-- The kind of a word: two words are reserved, all others are names. -/
def ofWord (word : List Char) : TokenKind :=
  if word = ['i', 'n', 't'] then intWord
  else if word = ['r', 'e', 't', 'u', 'r', 'n'] then returnWord
  else ident (String.ofList word)

/-- The kind of a run of digits, which must stay within 32 bits and their sign. -/
def ofDigits (digits : List Char) : TokenKind :=
  let value := Nat.ofDigitChars 10 digits 0
  if value ≤ 2147483647 then number (Int32.ofNat value) else error .invalidInteger

/-- The kind of a character that stands for itself. -/
def ofChar : Char → TokenKind
  | '=' => equals
  | '+' => plus
  | '-' => minus
  | '*' => star
  | '/' => slash
  | '(' => lparen
  | ')' => rparen
  | '\x7b' => lbrace
  | '\x7d' => rbrace
  | ',' => comma
  | ';' => semicolon
  | _ => error .invalidCharacter

end TokenKind

/-- What a text begins with: text to skip, the text of a token, or a block comment without end. -/
inductive Piece
  | skipped (text rest : List Char)
  | token (kind : TokenKind) (text rest : List Char)
  | unclosed (rest : List Char)

namespace Piece

/-- The text up to and with the first `*/`, behind what is already `seen`, held last first, and
the text after it. -/
def closeComment (seen : List Char) : List Char → Option (List Char × List Char)
  | '*' :: '/' :: rest => some (('/' :: '*' :: seen).reverse, rest)
  | c :: rest => closeComment (c :: seen) rest
  | [] => none

def ofChars (c : Char) (rest : List Char) : Piece :=
  if isBlank c then .skipped [c] rest
  else if c = '/' ∧ rest.head? = some '/' then
    .skipped (c :: rest.takeWhile (· != '\n')) (rest.dropWhile (· != '\n'))
  else if c = '/' ∧ rest.head? = some '*' then
    match closeComment [] rest.tail with
    | some (text, after) => .skipped (c :: '*' :: text) after
    | none => .unclosed rest.tail
  else if c.isDigit then
    .token (.ofDigits (c :: rest.takeWhile Char.isDigit)) (c :: rest.takeWhile Char.isDigit)
      (rest.dropWhile Char.isDigit)
  else if isWordStart c then
    .token (.ofWord (c :: rest.takeWhile isWordPart)) (c :: rest.takeWhile isWordPart)
      (rest.dropWhile isWordPart)
  else .token (.ofChar c) [c] rest

def text : Piece → List Char
  | skipped text _ => text
  | token _ text _ => text
  | unclosed _ => ['/', '*']

def rest : Piece → List Char
  | skipped _ rest => rest
  | token _ _ rest => rest
  | unclosed rest => rest

theorem closeComment_append {seen text rest after : List Char}
    (h : closeComment seen rest = some (text, after)) : text ++ after = seen.reverse ++ rest := by
  fun_induction closeComment seen rest with
  | case1 seen rest =>
    simp only [Option.some.injEq, Prod.mk.injEq] at h
    simp [← h.1, ← h.2]
  | case2 seen c rest _ ih => simpa using ih h
  | case3 => simp at h

/-- Nothing is lost: a piece and what follows it make up the text. -/
theorem text_append_rest (c : Char) (cs : List Char) :
    (ofChars c cs).text ++ (ofChars c cs).rest = c :: cs := by
  unfold ofChars
  split
  · simp [text, rest]
  split
  · simp [text, rest]
  split
  next hc =>
    obtain ⟨d, ds, rfl⟩ : ∃ d ds, cs = d :: ds := by
      cases cs with
      | nil => simp at hc
      | cons d ds => exact ⟨d, ds, rfl⟩
    have hd : d = '*' := by simpa using hc.2
    split
    next text after h => simp [Piece.text, Piece.rest, closeComment_append h, hd]
    · simp [text, rest, hc.1, hd]
  split
  · simp [text, rest]
  split <;> simp [text, rest]

theorem text_ne_nil (c : Char) (cs : List Char) : (ofChars c cs).text ≠ [] := by
  unfold ofChars
  split
  · simp [text]
  split
  · simp [text]
  split
  · split <;> simp [text]
  split
  · simp [text]
  split <;> simp [text]

theorem length_rest_lt (c : Char) (cs : List Char) :
    (ofChars c cs).rest.length < (c :: cs).length := by
  have h := congrArg List.length (text_append_rest c cs)
  have hp := List.length_pos_iff.mpr (text_ne_nil c cs)
  rw [List.length_append] at h
  omega

end Piece

namespace Token

/-- The tokens of the text `cs` at `place`, behind those already `done`, held last first. -/
def lexFrom (place : Position) (done : List Token) (cs : List Char) : List Token :=
  match cs with
  | [] => (⟨.eof, .point place⟩ :: done).reverse
  | c :: cs =>
    have := Piece.length_rest_lt c cs
    match _h : Piece.ofChars c cs with
    | .skipped text rest => lexFrom (place.pastAll text) done rest
    | .token kind text rest =>
      let after := place.pastAll text
      lexFrom after (⟨kind, place, after⟩ :: done) rest
    | .unclosed rest =>
      let after := place.pastAll ['/', '*']
      (⟨.eof, .point (after.pastAll rest)⟩ :: ⟨.error .unterminatedComment, place, after⟩
        :: done).reverse
termination_by cs.length
decreasing_by all_goals simpa [_h, Piece.rest] using this

def lex (source : String) : List Token := lexFrom ⟨1, 1⟩ [] source.toList

end Token

end MiniC
