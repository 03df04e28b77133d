import MiniC.Grammar.Cursor
import MiniC.Proofs.Except

/-! # The kinds ahead of a cursor

What the grammar decides depends on the kinds of the tokens from the cursor on. Each operation of
a cursor is described by what it does to them. A reader accepts only kinds that stand before an
`eof`, so as long as one lies ahead the cursor stands at a token of the list.
-/

namespace MiniC

namespace Cursor

def kinds (c : Cursor) : List TokenKind := c.rest.map (·.kind)

/-- The list closes ahead of the cursor. -/
def Ended (c : Cursor) : Prop := .eof ∈ c.kinds

theorem kinds_ofTokens (tokens : List Token) :
    (ofTokens tokens).kinds = tokens.map (·.kind) := by
  simp [kinds, rest, ofTokens]

variable {c : Cursor} {k k' : TokenKind} {ks : List TokenKind}

theorem getElem?_kinds (c : Cursor) (i : Nat) :
    c.kinds[i]? = c.tokens[c.position + i]?.map (·.kind) := by
  simp [kinds, rest]

theorem kind_of_kinds (h : c.kinds = k :: ks) : c.kind = k := by
  have hk : some k = c.tokens[c.position]?.map (·.kind) := by
    simpa [h] using c.getElem?_kinds 0
  obtain ⟨t, ht, rfl⟩ := Option.map_eq_some_iff.mp hk.symm
  simp [kind, current, ht]

theorem nextKind_of_kinds (h : c.kinds = k :: k' :: ks) : c.nextKind = k' := by
  rw [nextKind, ← c.getElem?_kinds 1, h]
  rfl

theorem kinds_advance (h : c.kinds = k :: ks) (hk : k ≠ .eof) : c.advance.kinds = ks := by
  have he : c.atEnd = false := by simp [atEnd, kind_of_kinds h, hk]
  have ht : ({ c with position := c.position + 1 } : Cursor).kinds = c.kinds.tail := by
    simp [kinds, rest]
  rw [advance, he, if_neg Bool.false_ne_true, ht, h, List.tail_cons]

theorem remaining_eq_length_kinds (c : Cursor) : c.remaining = c.kinds.length := by
  rw [kinds, List.length_map, length_rest]

theorem before_iff {d : Cursor} : c.Before d ↔ d.kinds.length < c.kinds.length := by
  rw [Before, remaining_eq_length_kinds, remaining_eq_length_kinds]

theorem Ended.kinds_eq (h : c.Ended) : ∃ ks, c.kinds = c.kind :: ks := by
  obtain ⟨k, ks, hk⟩ := List.exists_cons_of_ne_nil (List.ne_nil_of_mem h)
  exact ⟨ks, by rw [hk, kind_of_kinds hk]⟩

theorem Ended.advance (h : c.Ended) (hk : c.kind ≠ .eof) :
    c.kinds = c.kind :: c.advance.kinds ∧ c.advance.Ended := by
  obtain ⟨ks, hks⟩ := h.kinds_eq
  have ha := kinds_advance hks hk
  refine ⟨by rw [ha, ← hks], ?_⟩
  rw [Ended, hks, List.mem_cons] at h
  rw [Ended, ha]
  exact h.resolve_left (Ne.symm hk)

theorem Ended.nextKind_eq (h : c.Ended) (hk : c.kind ≠ .eof) : c.nextKind = c.advance.kind := by
  obtain ⟨ha, hc⟩ := h.advance hk
  obtain ⟨ks, hks⟩ := hc.kinds_eq
  exact nextKind_of_kinds (ha.trans (congrArg _ hks))

theorem check_of_kinds (h : c.kinds = k :: ks) : c.check k' = decide (k = k') := by
  rw [check, kind_of_kinds h]

theorem expect_of_kinds (h : c.kinds = k :: ks) : c.expect k = .ok (c.current, c.advance) := by
  rw [expect_eq, check_of_kinds h]
  simp

theorem expectIdent_of_kinds {name : String} (h : c.kinds = .ident name :: ks) :
    c.expectIdent = .ok ((name, c.span), c.advance) := by
  rw [expectIdent_eq, kind_of_kinds h]

theorem expect_eq_ok {t : Token} {d : Cursor} (h : c.expect k = .ok (t, d)) :
    c.kind = k ∧ c.advance = d := by
  rw [expect_eq] at h
  split at h
  next hc =>
    simp only [Except.ok.injEq, Prod.mk.injEq] at h
    exact ⟨by simpa [check] using hc, h.2⟩
  · cases h

theorem current_of_expect {t : Token} {d : Cursor} (h : c.expect k = .ok (t, d)) :
    c.current = t := by
  rw [expect_eq] at h
  split at h
  · simp only [Except.ok.injEq, Prod.mk.injEq] at h
    exact h.1
  · cases h

theorem expectIdent_eq_ok {name : String} {span : Span} {d : Cursor}
    (h : c.expectIdent = .ok ((name, span), d)) : c.kind = .ident name ∧ c.advance = d := by
  rw [expectIdent_eq] at h
  split at h
  next hc =>
    simp only [Except.ok.injEq, Prod.mk.injEq] at h
    exact ⟨by rw [hc, h.1.1], h.2⟩
  · cases h

end Cursor

end MiniC
