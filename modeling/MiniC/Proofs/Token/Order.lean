import MiniC.Proofs.Span
import MiniC.Proofs.Token.Tiling

/-! # Tokens stand in order

In a source whose lines and columns can all be counted, a position lies behind every position
before it. Since tokens tile the source, each of them ends before the next one begins, and all but
the end mark have some text.
-/

namespace MiniC

namespace Position

variable {text more : List Char}

theorem behind_lt_concat {c : Char} (hlen : (text ++ [c]).length < limit) :
    behind text < behind (text ++ [c]) := by
  have hshorter : text.length < limit := by
    rw [List.length_append] at hlen
    omega
  rw [behind_eq hlen, behind_eq hshorter, lt_def, lastLine_concat]
  by_cases hc : c = '\n' <;> simp [hc]

theorem behind_lt (hmore : more ≠ []) (hlen : (text ++ more).length < limit) :
    behind text < behind (text ++ more) := by
  induction more using List.reverseRecOn with
  | nil => exact absurd rfl hmore
  | append_singleton more c ih =>
    rw [← List.append_assoc] at hlen ⊢
    have hlast := behind_lt_concat hlen
    by_cases h : more = []
    · rwa [h, List.append_nil] at hlast ⊢
    · refine lt_trans (ih h ?_) hlast
      rw [List.length_append] at hlen
      omega

theorem behind_le (hlen : (text ++ more).length < limit) :
    behind text ≤ behind (text ++ more) := by
  by_cases h : more = []
  · rw [h, List.append_nil]
  · exact le_of_lt (behind_lt h hlen)

end Position

namespace Token

/-- Every token ends before the next one begins, and all but end marks have some text. -/
structure InOrder (tokens : List Token) : Prop where
  precedes : tokens.Pairwise (·.span.Precedes ·.span)
  proper : ∀ t ∈ tokens, t.kind ≠ .eof → t.span.Proper

variable {source : String} {before text rest cs : List Char} {kind : TokenKind}
  {tokens : List Token}

theorem inOrder_spanning (htext : text ≠ []) (hs : source.toList = before ++ (text ++ rest))
    (hlen : source.length < Position.limit)
    (hrest : (∀ t ∈ tokens, .behind (before ++ text) ≤ t.span.start) ∧ InOrder tokens) :
    (∀ t ∈ spanning source before text kind :: tokens, .behind before ≤ t.span.start) ∧
      InOrder (spanning source before text kind :: tokens) := by
  have hle : (before ++ text).length < Position.limit := by
    rw [← String.length_toList, hs] at hlen
    simp only [List.length_append] at hlen ⊢
    omega
  have hlt := Position.behind_lt htext hle
  rw [spanning_eq hs, ← Position.behind_append]
  obtain ⟨hbehind, horder⟩ := hrest
  refine ⟨List.forall_mem_cons.mpr ⟨le_refl _, fun t ht => ?_⟩, .cons hbehind horder.precedes,
    List.forall_mem_cons.mpr ⟨fun _ => hlt, horder.proper⟩⟩
  exact le_trans (le_of_lt hlt) (hbehind t ht)

theorem inOrder_ending (hs : source.toList = before ++ rest)
    (hlen : source.length < Position.limit) :
    (∀ t ∈ [ending source], .behind before ≤ t.span.start) ∧ InOrder [ending source] := by
  rw [ending_eq hs, ← Position.behind_append]
  refine ⟨List.forall_mem_singleton.mpr (Position.behind_le ?_), List.pairwise_singleton _ _,
    List.forall_mem_singleton.mpr fun h => absurd rfl h⟩
  rwa [← hs, String.length_toList]

/-- The tokens of a text stand in order behind what is before it. -/
theorem inOrder_of_tiling (h : Tiling source before cs tokens)
    (hs : source.toList = before ++ cs) (hlen : source.length < Position.limit) :
    (∀ t ∈ tokens, .behind before ≤ t.span.start) ∧ InOrder tokens := by
  -- A gap only moves the tokens further behind.
  have hgap : ∀ {before gap cs : List Char} {tokens : List Token},
      source.toList = before ++ (gap ++ cs) →
      (∀ t ∈ tokens, .behind (before ++ gap) ≤ t.span.start) ∧ InOrder tokens →
        (∀ t ∈ tokens, .behind before ≤ t.span.start) ∧ InOrder tokens := by
    rintro before gap cs tokens hs ⟨hbehind, horder⟩
    refine ⟨fun t ht => le_trans (Position.behind_le ?_) (hbehind t ht), horder⟩
    rw [← String.length_toList, hs] at hlen
    simp only [List.length_append] at hlen ⊢
    omega
  induction h with
  | ending _ => exact inOrder_ending hs hlen
  | @lexeme before gap text rest kind tokens _ hlexeme hends _ ih =>
    obtain ⟨c, cs, rfl, -⟩ := hlexeme.ofChars hends
    have hs₁ : source.toList = before ++ gap ++ (c :: cs ++ rest) := by rw [hs]; simp
    have hs₂ : source.toList = before ++ gap ++ (c :: cs) ++ rest := by rw [hs]; simp
    exact hgap hs (inOrder_spanning (List.cons_ne_nil c cs) hs₁ hlen (ih hs₂))
  | @unclosed before gap rest _ _ =>
    have hs₁ : source.toList = before ++ gap ++ (['/', '*'] ++ rest) := by rw [hs]; simp
    have hs₂ : source.toList = before ++ gap ++ ['/', '*'] ++ rest := by rw [hs]; simp
    exact hgap hs (inOrder_spanning (by simp) hs₁ hlen (inOrder_ending hs₂ hlen))

theorem inOrder_lex (h : source.utf8ByteSize < Position.limit) : InOrder (lex source) := by
  have hlen : source.length < Position.limit := by
    rw [← String.utf8Len_toList] at h
    rw [← String.length_toList]
    exact Nat.lt_of_le_of_lt (length_le_utf8Len _) h
  exact (inOrder_of_tiling (tiling_lex source) rfl hlen).2

end Token

end MiniC
