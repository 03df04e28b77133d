import MiniC.Proofs.LineIndex
import MiniC.Proofs.Token.Lexeme

/-! # Tokens tile the source

A source is cut into trivia and lexemes in turn: no character is lost, and none belongs to two
parts. Its tokens are those of the lexemes in order, each at the positions that a line index gives
for its two ends, and an end mark. The one exception is a block comment that never closes, which
ends the list as an error of two characters.
-/

namespace MiniC

namespace Token

/-- The token of a `text` that stands behind `before` in a source. -/
def spanning (source : String) (before text : List Char) (kind : TokenKind) : Token :=
  let index := LineIndex.ofSource source
  ⟨kind, index.position (String.ofList before).utf8ByteSize,
    index.position (String.ofList (before ++ text)).utf8ByteSize⟩

/-- The end mark of a source. -/
def ending (source : String) : Token :=
  ⟨.eof, .point ((LineIndex.ofSource source).position source.utf8ByteSize)⟩

end Token

/-- How a text that stands behind `before` in a source, up to the end of it, is cut, and the tokens
that it gives. -/
inductive Tiling (source : String) : List Char → List Char → List Token → Prop
  | ending {before gap : List Char} : FinalTrivia gap →
      Tiling source before gap [.ending source]
  | lexeme {before gap text rest : List Char} {kind : TokenKind} {tokens : List Token} :
      Trivia gap → Lexeme kind text → Ends text rest →
      Tiling source (before ++ gap ++ text) rest tokens →
      Tiling source before (gap ++ (text ++ rest))
        (.spanning source (before ++ gap) text kind :: tokens)
  /-- The rest of the source lies in a comment that has no closer. -/
  | unclosed {before gap rest : List Char} : Trivia gap → ¬ commentCloser <:+: rest →
      Tiling source before (gap ++ (['/', '*'] ++ rest))
        [.spanning source (before ++ gap) ['/', '*'] (.error .unterminatedComment),
          .ending source]

variable {source : String} {before gap text rest cs : List Char} {kind : TokenKind}
  {tokens done : List Token}

theorem Trivia.append {gap' : List Char} (h : Trivia gap) (h' : Trivia gap') :
    Trivia (gap ++ gap') := by
  induction h with
  | nil => exact h'
  | blank hc _ ih => exact .blank hc ih
  | blockComment hbody _ ih => simpa using Trivia.blockComment hbody ih
  | lineComment hbody _ ih => simpa using Trivia.lineComment hbody ih

theorem FinalTrivia.prepend (h : FinalTrivia rest) (hgap : Trivia gap) :
    FinalTrivia (gap ++ rest) := by
  cases h with
  | closed h => exact .closed (hgap.append h)
  | lineComment h hbody =>
    rw [← List.append_assoc]
    exact .lineComment (hgap.append h) hbody

theorem Tiling.prepend (hgap : Trivia gap) (h : Tiling source (before ++ gap) rest tokens) :
    Tiling source before (gap ++ rest) tokens := by
  cases h with
  | ending h => exact .ending (h.prepend hgap)
  | lexeme h hlexeme hends htiling =>
    rw [List.append_assoc before] at htiling ⊢
    rw [← List.append_assoc gap]
    exact .lexeme (hgap.append h) hlexeme hends htiling
  | unclosed h hopen =>
    rw [List.append_assoc before, ← List.append_assoc gap]
    exact .unclosed (hgap.append h) hopen

namespace Token

theorem spanning_eq (hs : source.toList = before ++ (text ++ rest)) :
    spanning source before text kind
      = ⟨kind, .behind before, (Position.behind before).pastAll text⟩ := by
  have hs' : source.toList = (before ++ text) ++ rest := by rw [hs, List.append_assoc]
  rw [spanning, String.utf8ByteSize_ofList, String.utf8ByteSize_ofList,
    LineIndex.position_utf8Len hs, LineIndex.position_utf8Len hs', Position.behind_append]

theorem ending_eq (hs : source.toList = before ++ rest) :
    ending source = ⟨.eof, .point ((Position.behind before).pastAll rest)⟩ := by
  rw [ending, ← String.utf8Len_toList, LineIndex.position_utf8Len (List.append_nil _).symm, hs,
    Position.behind_append]

/-- However a text is cut, the lexer gives its tokens. -/
theorem lexFrom_of_tiling (h : Tiling source before cs tokens)
    (hs : source.toList = before ++ cs) :
    lexFrom (.behind before) done cs = done.reverse ++ tokens := by
  induction h generalizing done with
  | ending h => rw [lexFrom_finalTrivia h, ending_eq hs]
  | @lexeme before gap text rest kind tokens hgap hlexeme hends _ ih =>
    obtain ⟨c, cs, rfl, hpiece⟩ := hlexeme.ofChars hends
    have hs₁ : source.toList = (before ++ gap) ++ (c :: cs ++ rest) := by simpa using hs
    have hs₂ : source.toList = before ++ gap ++ (c :: cs) ++ rest := by simpa using hs
    rw [lexFrom_trivia hgap, ← Position.behind_append, List.cons_append, lexFrom_token hpiece,
      ← Position.behind_append, ih hs₂, spanning_eq hs₁, ← Position.behind_append]
    simp
  | @unclosed before gap rest hgap hopen =>
    have hs₁ : source.toList = (before ++ gap) ++ (['/', '*'] ++ rest) := by simpa using hs
    have hs₂ : source.toList = (before ++ gap ++ ['/', '*']) ++ rest := by simpa using hs
    have hpiece := Piece.ofChars_unclosed hopen
    rw [lexFrom_trivia hgap, ← Position.behind_append, List.cons_append, List.cons_append,
      List.nil_append, lexFrom_unclosed hpiece, spanning_eq hs₁, ending_eq hs₂,
      Position.behind_append (before ++ gap)]

/-- Every text can be cut: the pieces of a text are blanks, comments and lexemes. -/
theorem exists_tiling (source : String) (before cs : List Char) :
    ∃ tokens, Tiling source before cs tokens := by
  induction hn : cs.length using Nat.strong_induction_on generalizing before cs with
  | _ n ih =>
    -- What is left behind a piece can be cut.
    have step : ∀ before rest, rest.length < n → ∃ tokens, Tiling source before rest tokens :=
      fun before rest hlt => ih _ hlt before rest rfl
    cases cs with
    | nil => exact ⟨_, .ending (.closed .nil)⟩
    | cons c cs =>
      have hlt := Piece.length_rest_lt c cs
      cases hpiece : Piece.ofChars c cs with
      | skipped text rest =>
        rw [hpiece, Piece.rest, hn] at hlt
        cases Piece.ofChars_skipped hpiece with
        | blank hc =>
          obtain ⟨tokens, h⟩ := step (before ++ [c]) cs hlt
          exact ⟨tokens, h.prepend (.blank hc .nil)⟩
        | @blockComment body rest hbody =>
          have hgap := Trivia.blockComment hbody .nil
          obtain ⟨tokens, h⟩ := step (before ++ _) rest hlt
          exact ⟨tokens, by simpa using h.prepend hgap⟩
        | @lineComment body rest hbody hrest =>
          cases rest with
          | nil =>
            rw [List.append_nil]
            exact ⟨_, .ending (.lineComment .nil hbody)⟩
          | cons d rest =>
            obtain rfl : d = '\n' := hrest d rfl
            have hgap := Trivia.lineComment hbody .nil
            obtain ⟨tokens, h⟩ := step (before ++ _) rest (Nat.lt_of_succ_lt hlt)
            exact ⟨tokens, by simpa using h.prepend hgap⟩
      | token kind text rest =>
        rw [hpiece, Piece.rest, hn] at hlt
        have happend := Piece.text_append_rest c cs
        rw [hpiece, Piece.text, Piece.rest] at happend
        obtain ⟨hlexeme, hends⟩ := ofChars_token hpiece
        obtain ⟨tokens, h⟩ := step (before ++ [] ++ text) rest hlt
        rw [← happend]
        have hcut := Tiling.lexeme .nil hlexeme hends h
        exact ⟨_, hcut⟩
      | unclosed rest =>
        obtain ⟨rfl, rfl, hopen⟩ := Piece.ofChars_eq_unclosed hpiece
        have hcut : Tiling source before ([] ++ (['/', '*'] ++ rest)) _ := .unclosed .nil hopen
        exact ⟨_, hcut⟩

theorem lex_of_tiling (h : Tiling source [] source.toList tokens) : lex source = tokens :=
  lexFrom_of_tiling h rfl

theorem tiling_lex (source : String) : Tiling source [] source.toList (lex source) := by
  obtain ⟨tokens, h⟩ := exists_tiling source [] source.toList
  rwa [lex_of_tiling h]

/-- The tokens of a source are those that cutting it gives, however it is cut. -/
theorem lex_eq_iff_tiling (source : String) (tokens : List Token) :
    lex source = tokens ↔ Tiling source [] source.toList tokens :=
  ⟨fun h => h ▸ tiling_lex source, lex_of_tiling⟩

end Token

end MiniC
