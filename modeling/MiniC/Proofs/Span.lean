import Mathlib.Order.MinMax
import MiniC.Span

/-! # Rows of spans

What stands in a source stands in a row: every span has some text in it and begins behind the one
before it. Rows are put together where one ends and the next one begins, and whoever leaves out
some spans of a row still has one. Merging the first and the last span of a row gives a span that
holds all of it.
-/

namespace MiniC

instance : Preorder Position where
  le_refl p := by rw [Position.le_def]; omega
  le_trans p q r := by simp only [Position.le_def]; omega
  lt_iff_le_not_ge p q := by simp only [Position.le_def, Position.lt_def]; omega

namespace Position

protected theorem le_antisymm (p q : Position) (h : p ≤ q) (h' : q ≤ p) : p = q := by
  obtain ⟨line, col⟩ := p
  obtain ⟨line', col'⟩ := q
  simp only [le_def] at h h'
  rw [mk.injEq]
  omega

protected theorem le_total (p q : Position) : p ≤ q ∨ q ≤ p := by
  rw [le_def, le_def]
  omega

instance : LinearOrder Position where
  toPreorder := inferInstance
  le_antisymm := Position.le_antisymm
  le_total := Position.le_total
  toDecidableLE := inferInstance
  toDecidableLT := inferInstance
  toDecidableEq := inferInstance
  min := Position.min
  max := Position.max
  min_def _ _ := rfl
  max_def _ _ := rfl

end Position

namespace Span

def Proper (s : Span) : Prop := s.start < s.stop

/-- The second span lies in the first one. -/
def Covers (s t : Span) : Prop := s.start ≤ t.start ∧ t.stop ≤ s.stop

/-- The first span ends before the second one begins. -/
def Precedes (s t : Span) : Prop := s.stop ≤ t.start

variable {a b s t : Span} {l l' : List Span} {p p' q q' r : Position}

theorem Proper.ne_dummy (h : s.Proper) : s ≠ dummy := by
  rintro rfl
  exact lt_irrefl _ h

theorem Covers.refl (s : Span) : s.Covers s := ⟨le_refl _, le_refl _⟩

theorem Covers.proper (h : s.Covers t) (ht : t.Proper) : s.Proper :=
  lt_of_le_of_lt h.1 (lt_of_lt_of_le ht h.2)

theorem merge_dummy_left (a : Span) : dummy.merge a = a := if_pos rfl

theorem merge_dummy_right (a : Span) : a.merge dummy = a := by
  unfold merge
  split
  next h => exact h.symm
  · exact if_pos rfl

theorem merge_of_ne (ha : a ≠ dummy) (hb : b ≠ dummy) :
    a.merge b = ⟨min a.start b.start, max a.stop b.stop⟩ := by
  rw [Span.merge, if_neg ha, if_neg hb]
  rfl

/-- The spans lie one behind another between two positions. -/
def Row : Position → List Span → Position → Prop
  | p, [], q => p ≤ q
  | p, s :: spans, q => p ≤ s.start ∧ s.Proper ∧ Row s.stop spans q

theorem Row.from_le (h : Row p l q) (hp : p' ≤ p) : Row p' l q := by
  cases l with
  | nil => exact le_trans hp h
  | cons s l => exact ⟨le_trans hp h.1, h.2⟩

theorem Row.to_le (h : Row p l q) (hq : q ≤ q') : Row p l q' := by
  induction l generalizing p with
  | nil => exact le_trans h hq
  | cons s l ih => exact ⟨h.1, h.2.1, ih h.2.2⟩

theorem Row.le (h : Row p l q) : p ≤ q := by
  induction l generalizing p with
  | nil => exact h
  | cons s l ih => exact le_trans h.1 (le_trans (le_of_lt h.2.1) (ih h.2.2))

theorem Row.append (h : Row p l q) (h' : Row q l' r) : Row p (l ++ l') r := by
  induction l generalizing p with
  | nil => exact h'.from_le h
  | cons s l ih => exact ⟨h.1, h.2.1, ih h.2.2⟩

theorem Row.split (h : Row p (l ++ l') r) : ∃ q, Row p l q ∧ Row q l' r := by
  induction l generalizing p with
  | nil => exact ⟨p, le_refl p, h⟩
  | cons s l ih =>
    obtain ⟨q, hl, hl'⟩ := ih h.2.2
    exact ⟨q, ⟨h.1, h.2.1, hl⟩, hl'⟩

theorem Row.sublist (hl : l'.Sublist l) (h : Row p l q) : Row p l' q := by
  induction hl generalizing p with
  | slnil => exact h
  | cons s _ ih => exact (ih h.2.2).from_le (le_trans h.1 (le_of_lt h.2.1))
  | cons_cons s _ ih => exact ⟨h.1, h.2.1, ih h.2.2⟩

theorem Row.span (h : Row p l q) (hs : s ∈ l) : Row p [s] q :=
  h.sublist (List.singleton_sublist.mpr hs)

theorem Row.pairwise (h : Row p l q) : l.Pairwise Precedes := by
  induction l generalizing p with
  | nil => exact .nil
  | cons s l ih =>
    refine .cons ?_ (ih h.2.2)
    intro t ht
    exact (h.2.2.span ht).1

theorem Row.to_last (h : Row p (l ++ [s]) q) : Row p (l ++ [s]) s.stop := by
  induction l generalizing p with
  | nil => exact ⟨h.1, h.2.1, le_refl _⟩
  | cons t l ih => exact ⟨h.1, h.2.1, ih h.2.2⟩

/-- The first and the last span of a row make a span that holds the row. -/
theorem Row.merge (h : Row p (a :: (l ++ [b])) q) :
    Row p [a.merge b] q ∧ Row (a.merge b).start (a :: (l ++ [b])) (a.merge b).stop := by
  obtain ⟨hstart, ha, hrow⟩ := h
  obtain ⟨hle, hb, hstop⟩ := hrow.span (List.mem_append_right l (List.mem_singleton_self b))
  have hmerge : a.merge b = ⟨a.start, b.stop⟩ := by
    rw [merge_of_ne ha.ne_dummy hb.ne_dummy, min_eq_left (le_trans (le_of_lt ha) hle),
      max_eq_right (le_trans hle (le_of_lt hb))]
  rw [hmerge]
  refine ⟨⟨hstart, ?_, hstop⟩, le_refl _, ha, hrow.to_last⟩
  exact lt_of_lt_of_le ha (le_trans hle (le_of_lt hb))

end Span

end MiniC
