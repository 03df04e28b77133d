import MiniC.Proofs.Grammar.Cursor

/-! # Moving a cursor

A reader moves its cursor forward along the list. What it does on the way depends on the tokens it
stands at and, at a name, on the kind behind the name, so two cursors that see the same up to some
position are treated alike up to there. Behind a list that ends in an opening bracket that bracket
is seen again, and such a cursor is the one place from which a reader does not move on.
-/

namespace MiniC

namespace Cursor

def moveTo (c : Cursor) (i : Nat) : Cursor := { c with position := i }

@[simp] theorem position_moveTo (c : Cursor) (i : Nat) : (c.moveTo i).position = i := rfl

@[simp] theorem moveTo_moveTo (c : Cursor) (i j : Nat) : (c.moveTo i).moveTo j = c.moveTo j := rfl

variable {c c' d d' : Cursor} {i m n : Nat} {k : TokenKind}

theorem moveTo_position (h : i = c.position) : c.moveTo i = c := by
  subst h
  rfl

theorem advance_eq_moveTo (h : c.kind ≠ .eof) : c.advance = c.moveTo (c.position + 1) := by
  have he : c.atEnd = false := by simpa [atEnd] using h
  rw [advance, he, if_neg Bool.false_ne_true]
  rfl

theorem position_advance (h : c.kind ≠ .eof) : c.advance.position = c.position + 1 := by
  rw [advance_eq_moveTo h, position_moveTo]

theorem check_of_kind (h : c.kind = k) : c.check k = true := decide_eq_true h

theorem not_check_of_kind (h : c.kind ≠ k) : ¬ c.check k = true := by
  rwa [check, decide_eq_true_eq]

theorem current_of_size_le (h : c.tokens.size ≤ c.position) :
    c.current = c.tokens.back?.getD .endMark := by
  rw [current, Array.getElem?_eq_none h]

theorem nextKind_of_size_le (h : c.tokens.size ≤ c.position) : c.nextKind = .eof := by
  rw [nextKind, Array.getElem?_eq_none (Nat.le_succ_of_le h)]
  rfl

theorem Ended.lt_size (h : c.Ended) : c.position < c.tokens.size := by
  have hlen : 0 < c.kinds.length := List.length_pos_of_mem h
  rw [← remaining_eq_length_kinds, remaining] at hlen
  omega

theorem kind_advance (h : c.nextKind = k) (hn : k ≠ .eof) (hk : c.kind ≠ .eof) :
    c.advance.kind = k ∧ c.position + 1 < c.tokens.size := by
  cases ht : c.tokens[c.position + 1]? with
  | none => exact absurd (by rw [← h, nextKind, ht]; rfl) hn
  | some t =>
    rw [nextKind, ht] at h
    refine ⟨?_, (Array.getElem?_eq_some_iff.mp ht).1⟩
    rw [advance_eq_moveTo hk, kind, current]
    simpa [moveTo, ht] using h

/-- The last token of the list opens a bracket. -/
def OpenEnded (c : Cursor) : Prop := ∃ t, c.tokens.back? = some t ∧ t.kind = .lparen

theorem openEnded_of_size_le (h : c.tokens.size ≤ c.position) (hk : c.kind = .lparen) :
    c.OpenEnded := by
  rw [kind, current_of_size_le h] at hk
  cases ht : c.tokens.back? with
  | none =>
    rw [ht] at hk
    cases hk
  | some t => exact ⟨t, ht, by simpa [ht] using hk⟩

theorem OpenEnded.kind_of_size_le (ho : c.OpenEnded) (h : c.tokens.size ≤ c.position) :
    c.kind = .lparen := by
  obtain ⟨t, ht, hk⟩ := ho
  rw [kind, current_of_size_le h, ht]
  exact hk

/-- The cursor stands right behind the list and sees its last token, an opening bracket, again. -/
def Repeats (c : Cursor) : Prop := c.OpenEnded ∧ c.position = c.tokens.size

theorem not_repeats_of_kind (h : c.kind ≠ .lparen) : ¬ c.Repeats :=
  fun ⟨ho, hp⟩ => h (ho.kind_of_size_le (Nat.le_of_eq hp.symm))

theorem not_repeats_of_lt (h : c.position < c.tokens.size) : ¬ c.Repeats :=
  fun ⟨_, hp⟩ => Nat.ne_of_lt h hp

theorem not_repeats_advance (hk : c.kind ≠ .lparen) (he : c.kind ≠ .eof) : ¬ c.advance.Repeats := by
  rintro ⟨⟨t, ht, htk⟩, hp⟩
  rw [tokens_advance] at ht hp
  rw [position_advance he] at hp
  rw [Array.back?, ← hp, Nat.add_sub_cancel] at ht
  apply hk
  rw [kind, current, ht]
  exact htk

/-- A reader at `c` gets to `d`. -/
structure Reaches (c d : Cursor) : Prop where
  tokens : d.tokens = c.tokens
  le : c.position ≤ d.position
  ended : c.Ended → d.Ended
  /-- An opening bracket that is seen again is not read. -/
  within : c.OpenEnded → c.position ≤ c.tokens.size → d.position ≤ d.tokens.size

theorem reaches_refl (c : Cursor) : Reaches c c := ⟨rfl, Nat.le_refl _, id, fun _ h => h⟩

theorem openEnded_congr (h : d.tokens = c.tokens) : d.OpenEnded ↔ c.OpenEnded := by
  rw [OpenEnded, OpenEnded, h]

namespace Reaches

theorem trans {f : Cursor} (h : Reaches c d) (h' : Reaches d f) : Reaches c f where
  tokens := h'.tokens.trans h.tokens
  le := Nat.le_trans h.le h'.le
  ended := fun hc => h'.ended (h.ended hc)
  within := fun ho hp => h'.within ((openEnded_congr h.tokens).mpr ho) (h.within ho hp)

theorem advance (hk : c.kind ≠ .eof) (hr : ¬ c.Repeats) : Reaches c c.advance where
  tokens := c.tokens_advance
  le := by
    rw [position_advance hk]
    exact Nat.le_succ _
  ended := fun hc => (hc.advance hk).2
  within := by
    intro ho hp
    rw [position_advance hk, tokens_advance]
    exact Nat.lt_of_le_of_ne hp fun h => hr ⟨ho, h⟩

theorem eq_moveTo (h : Reaches c d) : d = c.moveTo d.position := by
  obtain ⟨tokens, position⟩ := d
  obtain rfl : tokens = c.tokens := h.tokens
  rfl

theorem openEnded (h : Reaches c d) (hd : d.OpenEnded) : c.OpenEnded :=
  (openEnded_congr h.tokens).mp hd

theorem lt_size (h : Reaches c d) (hk : d.kind ≠ c.kind) : c.position < c.tokens.size := by
  refine Nat.lt_of_not_le fun hc => hk ?_
  have hd : d.tokens.size ≤ d.position := h.tokens ▸ Nat.le_trans hc h.le
  rw [kind, kind, current_of_size_le hc, current_of_size_le hd, h.tokens]

end Reaches

theorem Reaches.lt_of_advance (h : Reaches c.advance d) (hk : c.kind ≠ .eof) :
    c.position < d.position := by
  have hle := h.le
  rwa [position_advance hk] at hle

theorem before_of_lt (ht : d.tokens = c.tokens) (hp : c.position < c.tokens.size)
    (hd : c.position < d.position) : c.Before d := by
  rw [Before, remaining, remaining, ht]
  omega

theorem Reaches.before (h : Reaches c.advance d) (hk : c.kind ≠ .eof)
    (hp : c.position < c.tokens.size) : c.Before d :=
  before_of_lt (h.tokens.trans c.tokens_advance) hp (h.lt_of_advance hk)

/-- A token that is read behind one of another kind is a token of the list. -/
theorem Reaches.before_advance (h : Reaches c d) (hd : d.kind ≠ .eof) (hk : d.kind ≠ c.kind) :
    c.Before d.advance := by
  refine before_of_lt (d.tokens_advance.trans h.tokens) (h.lt_size hk) ?_
  rw [position_advance hd]
  exact Nat.lt_succ_of_le h.le

/-- The cursor stands in the list, with an end mark ahead. -/
structure On (tokens : List Token) (c : Cursor) : Prop where
  tokens : c.tokens = tokens.toArray
  ended : c.Ended

namespace On

variable {tokens : List Token}

theorem getElem? (h : c.On tokens) : tokens[c.position]? = some c.current := by
  have hlt := h.ended.lt_size
  have ht : c.tokens[c.position]? = some c.tokens[c.position] := Array.getElem?_eq_getElem hlt
  rw [current, ht, ← ht, h.tokens, List.getElem?_toArray]

theorem mem (h : c.On tokens) : c.current ∈ tokens := List.mem_of_getElem? h.getElem?

theorem advance (h : c.On tokens) (hk : c.kind ≠ .eof) : c.advance.On tokens :=
  ⟨c.tokens_advance.trans h.tokens, (h.ended.advance hk).2⟩

end On

/-- Whatever holds of a cursor if it holds of those with fewer tokens ahead, holds of all. -/
theorem before_induction {P : Cursor → Prop} (step : ∀ c, (∀ d, c.Before d → P d) → P c)
    (c : Cursor) : P c :=
  (measure remaining).wf.induction c step

/-- The second cursor stands where the first one does, and sees the same up to position `n`. -/
structure SameTo (n : Nat) (c c' : Cursor) : Prop where
  position : c'.position = c.position
  current : ∀ i, c.position ≤ i → i ≤ n → (c'.moveTo i).current = (c.moveTo i).current
  next : ∀ i, c.position ≤ i → i < n → (c.moveTo i).kind.isIdent = true →
    (c'.moveTo i).nextKind = (c.moveTo i).nextKind

namespace SameTo

theorem mono (h : SameTo n c c') (hm : m ≤ n) : SameTo m c c' where
  position := h.position
  current := fun i hi hm' => h.current i hi (Nat.le_trans hm' hm)
  next := fun i hi hm' => h.next i hi (Nat.lt_of_lt_of_le hm' hm)

theorem symm (h : SameTo n c c') : SameTo n c' c where
  position := h.position.symm
  current := fun i hi hn => (h.current i (h.position ▸ hi) hn).symm
  next := by
    intro i hi hn hk
    rw [kind, h.current i (h.position ▸ hi) (Nat.le_of_lt hn)] at hk
    exact (h.next i (h.position ▸ hi) hn hk).symm

theorem current_eq (h : SameTo n c c') (hn : c.position ≤ n) : c'.current = c.current := by
  have hi := h.current c.position (Nat.le_refl _) hn
  rwa [moveTo_position rfl, moveTo_position h.position.symm] at hi

theorem nextKind_eq (h : SameTo n c c') (hn : c.position < n) (hk : c.kind.isIdent = true) :
    c'.nextKind = c.nextKind := by
  have hi := h.next c.position (Nat.le_refl _) hn (by rwa [moveTo_position rfl])
  rwa [moveTo_position rfl, moveTo_position h.position.symm] at hi

theorem moveTo (h : SameTo n c c') (hr : Reaches c d) : SameTo n d (c'.moveTo d.position) where
  position := rfl
  current := by
    intro i hi hn
    rw [hr.eq_moveTo]
    exact h.current i (Nat.le_trans hr.le hi) hn
  next := by
    intro i hi hn hk
    rw [hr.eq_moveTo] at hk ⊢
    exact h.next i (Nat.le_trans hr.le hi) hn hk

theorem advance (h : SameTo n c c') (hn : c.position ≤ n) (hk : c.kind ≠ .eof)
    (hr : ¬ c.Repeats) : SameTo n c.advance c'.advance := by
  have hk' : c'.kind ≠ .eof := by rwa [kind, h.current_eq hn]
  have hm := h.moveTo (Reaches.advance hk hr)
  rwa [position_advance hk, ← h.position, ← advance_eq_moveTo hk'] at hm

end SameTo

end Cursor

end MiniC
