import MiniC.Proofs.Token.Order

/-! # Sources that are joined by a line feed

Words, numbers and line comments end with their line at the latest, and a block comment ends where
it is closed. So a line feed separates two sources, if the first one leaves no comment open: each
is cut as it is cut alone, and the second one stands further down by the lines of the first.
-/

namespace MiniC

namespace Position

/-- The same column, `n` lines further down. -/
def down (n : Nat) (p : Position) : Position := { p with line := p.line + n }

end Position

/-- The same columns, `n` lines further down. -/
def Span.down (n : Nat) (s : Span) : Span := ⟨s.start.down n, s.stop.down n⟩

def Token.down (n : Nat) (t : Token) : Token := { t with span := t.span.down n }

variable {source source' : String} {before above gap text rest cs : List Char} {kind : TokenKind}
  {tokens more : List Token}

theorem FinalTrivia.newline (h : FinalTrivia gap) : Trivia (gap ++ ['\n']) := by
  cases h with
  | closed h => exact h.append (.blank rfl .nil)
  | @lineComment text body h hbody =>
    have hcomment : Trivia ('/' :: '/' :: (body ++ ['\n'])) := .lineComment hbody .nil
    simpa using h.append hcomment

theorem Ends.newline (h : Ends text rest) : Ends text (rest ++ '\n' :: cs) := by
  have hhead : ∀ c ∈ (rest ++ '\n' :: cs).head?, c ∈ rest.head? ∨ c = '\n' := by
    intro c hc
    cases rest with
    | nil => exact Or.inr (Option.some.inj hc).symm
    | cons d rest => exact Or.inl hc
  constructor
  · intro hword c hc
    rcases hhead c hc with hc | rfl
    · exact h.word hword c hc
    · decide
  · intro hnumeral c hc
    rcases hhead c hc with hc | rfl
    · exact h.numeral hnumeral c hc
    · decide
  · intro hslash c hc
    rcases hhead c hc with hc | rfl
    · exact h.slash hslash c hc
    · decide

namespace Tiling

/-- What stands before a line feed is cut as if nothing came behind it. -/
theorem join (h : Tiling source' before cs tokens) (hs' : source'.toList = before ++ cs)
    (hs : source.toList = source'.toList ++ '\n' :: rest)
    (hclosed : ∀ t ∈ tokens, t.kind ≠ .error .unterminatedComment)
    (hrest : Tiling source (source'.toList ++ ['\n']) rest more) :
    ∃ done, tokens = done ++ [.ending source'] ∧
      Tiling source before (cs ++ '\n' :: rest) (done ++ more) := by
  induction h with
  | @ending before gap hgap =>
    refine ⟨[], rfl, ?_⟩
    rw [hs', List.append_assoc] at hrest
    simpa using hrest.prepend hgap.newline
  | @lexeme before gap text after kind tokens hgap hlexeme hends _ ih =>
    have hs₁ : source'.toList = before ++ gap ++ text ++ after := by rw [hs']; simp
    have hs₂ : source'.toList = before ++ gap ++ (text ++ after) := by rw [hs']; simp
    have hs₃ : source.toList = before ++ gap ++ (text ++ (after ++ '\n' :: rest)) := by
      rw [hs, hs₂]
      simp
    obtain ⟨done, rfl, htiling⟩ := ih hs₁ (List.forall_mem_cons.mp hclosed).2
    have hcut := Tiling.lexeme hgap hlexeme hends.newline htiling
    have htoken : Token.spanning source' (before ++ gap) text kind
        = .spanning source (before ++ gap) text kind := by
      rw [Token.spanning_eq hs₂, Token.spanning_eq hs₃]
    refine ⟨.spanning source (before ++ gap) text kind :: done, by rw [htoken]; rfl, ?_⟩
    simpa using hcut
  | unclosed => exact absurd rfl (hclosed _ List.mem_cons_self)

end Tiling

theorem lastLine_append_newline (above text : List Char) :
    lastLine (above ++ '\n' :: text) = lastLine text := by
  induction text using List.reverseRecOn with
  | nil => rw [lastLine_concat, if_pos rfl]; rfl
  | append_singleton text c ih =>
    rw [← List.cons_append, ← List.append_assoc, lastLine_concat, lastLine_concat, ih]

theorem Position.behind_append_newline
    (hfit : above.count '\n' + text.count '\n' + 2 ≤ Position.limit) :
    Position.behind (above ++ '\n' :: text)
      = (Position.behind text).down (above.count '\n' + 1) := by
  have hcount : (above ++ '\n' :: text).count '\n' = above.count '\n' + 1 + text.count '\n' := by
    simp only [List.count_append, List.count_cons_self]
    omega
  simp only [behind, lastLine_append_newline, hcount, clamp, down, mk.injEq, and_true]
  omega

namespace Token

theorem spanning_down (hs : source.toList = above ++ '\n' :: source'.toList)
    (hs' : source'.toList = before ++ (text ++ rest))
    (hfit : above.count '\n' + source'.toList.count '\n' + 2 ≤ Position.limit) :
    (spanning source' before text kind).down (above.count '\n' + 1)
      = spanning source (above ++ '\n' :: before) text kind := by
  have hsource : source.toList = (above ++ '\n' :: before) ++ (text ++ rest) := by
    rw [hs, hs']
    simp
  have hstop : above ++ '\n' :: before ++ text = above ++ '\n' :: (before ++ text) := by simp
  rw [hs'] at hfit
  simp only [List.count_append] at hfit
  rw [spanning_eq hs', spanning_eq hsource, ← Position.behind_append, ← Position.behind_append,
    hstop, Position.behind_append_newline (by omega),
    Position.behind_append_newline (by rw [List.count_append]; omega)]
  rfl

theorem ending_down (hs : source.toList = above ++ '\n' :: source'.toList)
    (hfit : above.count '\n' + source'.toList.count '\n' + 2 ≤ Position.limit) :
    (ending source').down (above.count '\n' + 1) = ending source := by
  have hend : ∀ s : String, ending s = ⟨.eof, .point (.behind s.toList)⟩ := by
    intro s
    rw [ending_eq (List.append_nil s.toList).symm]
    rfl
  rw [hend, hend, hs, Position.behind_append_newline hfit]
  rfl

end Token

/-- What stands behind a line feed is cut as if nothing came before it, further down. -/
theorem Tiling.down (h : Tiling source' before cs tokens) (hs' : source'.toList = before ++ cs)
    (hs : source.toList = above ++ '\n' :: source'.toList)
    (hfit : above.count '\n' + source'.toList.count '\n' + 2 ≤ Position.limit) :
    Tiling source (above ++ '\n' :: before) cs
      (tokens.map (·.down (above.count '\n' + 1))) := by
  induction h with
  | ending hgap =>
    rw [List.map_singleton, Token.ending_down hs hfit]
    exact .ending hgap
  | @lexeme before gap text rest kind tokens hgap hlexeme hends _ ih =>
    have hs₁ : source'.toList = before ++ gap ++ text ++ rest := by rw [hs']; simp
    have hs₂ : source'.toList = before ++ gap ++ (text ++ rest) := by rw [hs']; simp
    have htiling := ih hs₁
    rw [List.map_cons, Token.spanning_down hs hs₂ hfit]
    simpa using @Tiling.lexeme source (above ++ '\n' :: before) gap text rest kind _ hgap hlexeme
      hends (by simpa using htiling)
  | @unclosed before gap rest hgap hopen =>
    have hs₁ : source'.toList = before ++ gap ++ (['/', '*'] ++ rest) := by rw [hs']; simp
    rw [List.map_cons, List.map_singleton, Token.spanning_down hs hs₁ hfit,
      Token.ending_down hs hfit]
    simpa using @Tiling.unclosed source (above ++ '\n' :: before) gap rest hgap hopen

theorem LineIndex.lineCount_ofSource (source : String) :
    (ofSource source).lineCount = source.toList.count '\n' + 1 := by
  rw [lineCount, starts_ofSource (List.append_nil _).symm, startsAfter]
  simp [length_startsAfter]

/-- The tokens of two sources with a line feed between them are the tokens of the first one, but
for its end mark, and those of the second one, end mark and errors included, further down by the
lines of the first. The first must close its comments, and all lines must be countable. -/
theorem Token.lex_newline (s s' : String) (hsize : s.utf8ByteSize + s'.utf8ByteSize < 2 ^ 32 - 2)
    (hclosed : ∀ t ∈ lex s, t.kind ≠ .error .unterminatedComment) :
    ∃ tokens, lex s = tokens ++ [.ending s] ∧
      lex (s ++ "\n" ++ s')
        = tokens ++ (lex s').map (·.down (LineIndex.ofSource s).lineCount) := by
  have hcount : ∀ s : String, s.toList.count '\n' ≤ s.utf8ByteSize := by
    intro s
    rw [← String.utf8Len_toList]
    exact List.count_le_length.trans (length_le_utf8Len _)
  have hfit : s.toList.count '\n' + s'.toList.count '\n' + 2 ≤ Position.limit := by
    have h := hcount s
    have h' := hcount s'
    rw [Position.limit]
    omega
  have hs : (s ++ "\n" ++ s').toList = s.toList ++ '\n' :: s'.toList := by simp
  have hdown := (tiling_lex s').down rfl hs hfit
  rw [← LineIndex.lineCount_ofSource] at hdown
  obtain ⟨tokens, htokens, htiling⟩ := (tiling_lex s).join rfl hs hclosed hdown
  refine ⟨tokens, htokens, lex_of_tiling ?_⟩
  rwa [hs]

/-- A character of two bytes, a lone slash and a comment stand before the line feed, and a comment
that is not closed behind it. -/
theorem Token.lex_newline_slash :
    ∃ tokens, lex "a\né / // x" = tokens ++ [⟨.eof, ⟨2, 9⟩, ⟨2, 9⟩⟩] ∧
      lex "a\né / // x\n/=\n /*" = tokens ++ [⟨.slash, ⟨3, 1⟩, ⟨3, 2⟩⟩, ⟨.equals, ⟨3, 2⟩, ⟨3, 3⟩⟩,
        ⟨.error .unterminatedComment, ⟨4, 2⟩, ⟨4, 4⟩⟩, ⟨.eof, ⟨4, 4⟩, ⟨4, 4⟩⟩] := by
  obtain ⟨tokens, h, hjoined⟩ := lex_newline "a\né / // x" "/=\n /*" (by decide +kernel)
    (by decide +kernel)
  have hending : ending "a\né / // x" = ⟨.eof, ⟨2, 9⟩, ⟨2, 9⟩⟩ := by decide +kernel
  have hbehind : (lex "/=\n /*").map (·.down (LineIndex.ofSource "a\né / // x").lineCount)
      = [⟨.slash, ⟨3, 1⟩, ⟨3, 2⟩⟩, ⟨.equals, ⟨3, 2⟩, ⟨3, 3⟩⟩,
        ⟨.error .unterminatedComment, ⟨4, 2⟩, ⟨4, 4⟩⟩, ⟨.eof, ⟨4, 4⟩, ⟨4, 4⟩⟩] := by
    decide +kernel
  rw [hending] at h
  rw [hbehind] at hjoined
  exact ⟨tokens, h, hjoined⟩

end MiniC
