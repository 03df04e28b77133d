import Mathlib.Data.List.Perm.Basic
import MiniC.Proofs.Span

/-! # Merging spans

Positions stand in one line that begins with the dummy position, and two spans that have a place
merge into the span from the earlier start to the later end. They never merge into the dummy span,
not even where an end stands before its start, so merging is the join of a semilattice with the
dummy span at its bottom. For spans with some text it gives the least span that contains both, and
many spans can be merged in any order.
-/

namespace MiniC

namespace Position

variable {p : Position}

theorem dummy_le (p : Position) : dummy ≤ p := by
  rw [le_def]
  simp only [dummy]
  omega

theorem eq_dummy_of_le (h : p ≤ dummy) : p = dummy := le_antisymm h (dummy_le p)

end Position

namespace Span

variable {a b s : Span} {l l' : List Span} {x : Position}

theorem contains_iff : s.contains x = true ↔ s.start ≤ x ∧ x < s.stop := by
  rw [contains, decide_eq_true_eq]

theorem Covers.contains (h : s.Covers a) (hx : a.contains x = true) : s.contains x = true := by
  rw [contains_iff] at hx ⊢
  exact ⟨le_trans h.1 hx.1, lt_of_lt_of_le hx.2 h.2⟩

theorem not_contains_dummy (x : Position) : ¬ dummy.contains x = true := by
  rw [contains_iff]
  exact fun h => not_lt_of_ge (Position.dummy_le x) h.2

/-- The start of a merge is one of both starts, and where it is the dummy position as well as the
later end, so is the end of that span. -/
theorem merge_ne_dummy (ha : a ≠ dummy) (hb : b ≠ dummy) : a.merge b ≠ dummy := by
  rw [merge_of_ne ha hb]
  intro h
  obtain ⟨hstart, hstop⟩ := Span.mk.inj h
  have hle : max a.stop b.stop ≤ .dummy := le_of_eq hstop
  obtain ⟨hastop, hbstop⟩ := max_le_iff.mp hle
  rcases min_choice a.start b.start with hmin | hmin
  · have hstart : a.start = .dummy := hmin.symm.trans hstart
    exact ha (congrArg₂ Span.mk hstart (Position.eq_dummy_of_le hastop))
  · have hstart : b.start = .dummy := hmin.symm.trans hstart
    exact hb (congrArg₂ Span.mk hstart (Position.eq_dummy_of_le hbstop))

theorem merge_comm (a b : Span) : a.merge b = b.merge a := by
  by_cases ha : a = dummy
  · rw [ha, merge_dummy_left, merge_dummy_right]
  by_cases hb : b = dummy
  · rw [hb, merge_dummy_left, merge_dummy_right]
  rw [merge_of_ne ha hb, merge_of_ne hb ha]
  exact congrArg₂ Span.mk (min_comm a.start b.start) (max_comm a.stop b.stop)

theorem merge_assoc (a b c : Span) : (a.merge b).merge c = a.merge (b.merge c) := by
  by_cases ha : a = dummy
  · rw [ha, merge_dummy_left, merge_dummy_left]
  by_cases hb : b = dummy
  · rw [hb, merge_dummy_left, merge_dummy_right]
  by_cases hc : c = dummy
  · rw [hc, merge_dummy_right, merge_dummy_right]
  rw [merge_of_ne (merge_ne_dummy ha hb) hc, merge_of_ne ha (merge_ne_dummy hb hc),
    merge_of_ne ha hb, merge_of_ne hb hc]
  exact congrArg₂ Span.mk (min_assoc a.start b.start c.start) (max_assoc a.stop b.stop c.stop)

theorem merge_self (a : Span) : a.merge a = a := by
  by_cases ha : a = dummy
  · rw [ha, merge_dummy_left]
  rw [merge_of_ne ha ha]
  exact congrArg₂ Span.mk (min_self a.start) (max_self a.stop)

instance : Std.Commutative merge := ⟨merge_comm⟩

instance : Std.Associative merge := ⟨merge_assoc⟩

theorem covers_merge_left (ha : a ≠ dummy) : (a.merge b).Covers a := by
  by_cases hb : b = dummy
  · rw [hb, merge_dummy_right]
    exact .refl a
  rw [merge_of_ne ha hb]
  exact ⟨min_le_left _ _, le_max_left _ _⟩

theorem contains_merge_left (b : Span) (hx : a.contains x = true) :
    (a.merge b).contains x = true := by
  have ha : a ≠ dummy := by
    rintro rfl
    exact not_contains_dummy x hx
  exact (covers_merge_left ha).contains hx

theorem contains_merge_right (a : Span) (hx : b.contains x = true) :
    (a.merge b).contains x = true := by
  rw [merge_comm]
  exact contains_merge_left a hx

theorem covers_merge (ha : a ≠ dummy) (hb : b ≠ dummy) (hsa : s.Covers a) (hsb : s.Covers b) :
    s.Covers (a.merge b) := by
  rw [merge_of_ne ha hb]
  exact ⟨le_min hsa.1 hsb.1, max_le hsa.2 hsb.2⟩

theorem Proper.covers_of_contains (ha : a.Proper)
    (h : ∀ x, a.contains x = true → s.contains x = true) : s.Covers a := by
  have hstart := contains_iff.mp (h a.start (contains_iff.mpr ⟨le_refl _, ha⟩))
  refine ⟨hstart.1, le_of_not_gt fun hstop => ?_⟩
  -- The end of the covering span would be a position of the other one.
  have hend := contains_iff.mp (h s.stop (contains_iff.mpr ⟨le_of_lt hstart.2, hstop⟩))
  exact lt_irrefl _ hend.2

theorem contains_foldl_merge (hx : a.contains x = true ∨ ∃ s ∈ l, s.contains x = true) :
    (l.foldl merge a).contains x = true := by
  induction l generalizing a with
  | nil => simpa using hx
  | cons t l ih =>
    refine ih ?_
    rcases hx with hx | ⟨s, hs, hx⟩
    · exact Or.inl (contains_merge_left t hx)
    · rcases List.mem_cons.mp hs with rfl | hs
      · exact Or.inl (contains_merge_right a hx)
      · exact Or.inr ⟨s, hs, hx⟩

theorem mergeAll_perm (h : l.Perm l') : mergeAll l = mergeAll l' := h.foldl_eq dummy

theorem contains_mergeAll (hs : s ∈ l) (hx : s.contains x = true) :
    (mergeAll l).contains x = true :=
  contains_foldl_merge (Or.inr ⟨s, hs, hx⟩)

theorem mergeAll_covers (hs : s ∈ l) (hproper : s.Proper) : (mergeAll l).Covers s :=
  hproper.covers_of_contains fun _ => contains_mergeAll hs

/-- An operation on spans that joins them, with the dummy span as its identity. -/
structure Joins (join : Span → Span → Span) : Prop where
  assoc : ∀ a b c, join (join a b) c = join a (join b c)
  comm : ∀ a b, join a b = join b a
  idem : ∀ a, join a a = a
  dummy_left : ∀ a, join dummy a = a
  dummy_right : ∀ a, join a dummy = a
  /-- Spans that have a place do not lose it. -/
  ne_dummy : ∀ a b, a ≠ dummy → b ≠ dummy → join a b ≠ dummy
  contains : ∀ (a b : Span) x, a.contains x = true ∨ b.contains x = true →
    (join a b).contains x = true
  /-- Of two spans with some text, just the spans that reach as far contain both. -/
  least : ∀ a b s : Span, a.Proper → b.Proper →
    ((∀ x, a.contains x = true ∨ b.contains x = true → s.contains x = true) ↔
      s.Covers (join a b))

theorem joins_merge : Joins merge where
  assoc := merge_assoc
  comm := merge_comm
  idem := merge_self
  dummy_left := merge_dummy_left
  dummy_right := merge_dummy_right
  ne_dummy _ _ := merge_ne_dummy
  contains a b x hx := hx.elim (contains_merge_left b) (contains_merge_right a)
  least a b s ha hb := by
    constructor
    · intro h
      have hsa : s.Covers a := ha.covers_of_contains fun x hx => h x (Or.inl hx)
      have hsb : s.Covers b := hb.covers_of_contains fun x hx => h x (Or.inr hx)
      exact covers_merge ha.ne_dummy hb.ne_dummy hsa hsb
    · rintro h x (hx | hx)
      · exact h.contains (contains_merge_left b hx)
      · exact h.contains (contains_merge_right a hx)

end Span

end MiniC
