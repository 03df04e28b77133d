import MiniC.Token.Lexer

/-! # The end mark

The list that a source is cut into closes with `eof`, and no other token of it is one: the pieces
of a text are blanks, comments, words, numbers and single characters.
-/

namespace MiniC

theorem TokenKind.ofWord_ne_eof (word : List Char) : ofWord word ≠ eof := by
  unfold ofWord
  split
  · simp
  · split <;> simp

theorem TokenKind.ofDigits_ne_eof (digits : List Char) : ofDigits digits ≠ eof := by
  unfold ofDigits
  dsimp only
  split <;> simp

theorem TokenKind.ofChar_ne_eof (c : Char) : ofChar c ≠ eof := by
  unfold ofChar
  split <;> simp

theorem Piece.token_ne_eof {c : Char} {cs text rest : List Char} {kind : TokenKind}
    (h : ofChars c cs = .token kind text rest) : kind ≠ .eof := by
  unfold ofChars at h
  split at h
  · cases h
  split at h
  · cases h
  split at h
  · split at h <;> cases h
  split at h
  · cases h
    exact TokenKind.ofDigits_ne_eof _
  split at h
  · cases h
    exact TokenKind.ofWord_ne_eof _
  · cases h
    exact TokenKind.ofChar_ne_eof _

namespace Token

/-- The kinds `ks` with one `eof` behind them, and none among them. -/
def Closes (tokens : List Token) (ks : List TokenKind) : Prop :=
  tokens.map (·.kind) = ks ++ [.eof] ∧ .eof ∉ ks

theorem closes_reverse_cons {done : List Token} (h : ∀ t ∈ done, t.kind ≠ .eof) (span : Span) :
    ∃ ks, Closes (⟨.eof, span⟩ :: done).reverse ks := by
  refine ⟨done.reverse.map (·.kind), by simp, ?_⟩
  rw [List.mem_map]
  rintro ⟨t, ht, hk⟩
  exact h t (List.mem_reverse.mp ht) hk

theorem lexFrom_closes (place : Position) (done : List Token) (cs : List Char)
    (h : ∀ t ∈ done, t.kind ≠ .eof) : ∃ ks, Closes (lexFrom place done cs) ks := by
  fun_induction lexFrom place done cs with
  | case1 => exact closes_reverse_cons h _
  | case2 place done c cs _ text rest _ ih => exact ih h
  | case3 place done c cs _ kind text rest hp _ ih =>
    exact ih (List.forall_mem_cons.mpr ⟨Piece.token_ne_eof hp, h⟩)
  | case4 => exact closes_reverse_cons (List.forall_mem_cons.mpr ⟨by simp, h⟩) _

theorem lex_closes (source : String) : ∃ ks, Closes (lex source) ks :=
  lexFrom_closes _ _ _ (by simp)

end Token

end MiniC
