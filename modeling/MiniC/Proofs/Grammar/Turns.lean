import MiniC.Proofs.Grammar.Movement
import MiniC.Proofs.Grammar.Operands

/-! # Reading operands without end

Expressions are read in turns, and a turn that leads to one more operand uses up a token as long
as the cursor stands in the list. Behind the list the last token is seen again and again, and an
opening bracket is the only one that leads from one operand to the next there. So the loop stops
without a result just if its turns would go on for ever, and in any case its result is that of its
first turn, read on.
-/

namespace MiniC

namespace Cursor

variable {c : Cursor}

theorem kind_advance_of_size_le (h : c.tokens.size ≤ c.position) : c.advance.kind = c.kind := by
  by_cases hk : c.kind = .eof
  · rw [advance, atEnd, decide_eq_true hk, if_pos rfl]
  · have ha : c.advance.tokens.size ≤ c.advance.position := by
      rw [position_advance hk, tokens_advance]
      exact Nat.le_succ_of_le h
    rw [kind, kind, current_of_size_le h, current_of_size_le ha, tokens_advance]

theorem not_before_of_size_le (h : c.tokens.size ≤ c.position) (d : Cursor) : ¬ c.Before d := by
  have hc : c.remaining = 0 := Nat.sub_eq_zero_of_le h
  rw [Before, hc]
  exact Nat.not_lt_zero _

theorem exists_kinds_of_lt (h : c.position < c.tokens.size) : ∃ k ks, c.kinds = k :: ks := by
  refine List.exists_cons_of_ne_nil (List.ne_nil_of_length_pos ?_)
  rw [← remaining_eq_length_kinds, remaining]
  omega

end Cursor

namespace Grammar

variable {e : Expr} {l l' : Level} {c c' : Cursor} {enclosing enclosing' : Enclosing}

theorem afterOperand_ne_operand (hk : c.kind.canStartExpr = true) :
    afterOperand e l c enclosing ≠ .ok (.operand l' enclosing' c') := by
  have hclosing : c.kind.Closing := by
    rintro op - hop
    rw [hop] at hk
    cases op <;> cases hk
  have hne : ∀ k, k.canStartExpr = false → c.kind ≠ k := by
    rintro k h rfl
    rw [h] at hk
    cases hk
  rw [afterOperand_of_closing hclosing]
  rcases enclosing with _ | ⟨⟨bracket, outer⟩, enclosing⟩
  · simp [afterAssignment]
  · rw [afterAssignment_of_end fun hc => absurd hc (hne _ rfl), Cursor.expect_eq,
      if_neg (Cursor.not_check_of_kind (hne _ rfl))]
    intro h
    cases h

theorem operand_of_lparen (hk : c.kind = .lparen) :
    operand l enclosing c = .ok (.operand .empty ((.group, l) :: enclosing) c.advance) := by
  rw [operand, hk]

/-- Behind the list only an opening bracket leads to one more operand. -/
theorem operand_of_size_le (h : c.tokens.size ≤ c.position)
    (ho : operand l enclosing c = .ok (.operand l' enclosing' c')) : c.kind = .lparen := by
  cases operand_step ho with
  | target name hname hl hnext =>
    rw [Cursor.nextKind_of_size_le h] at hnext
    cases hnext
  | call name hname hnext =>
    rw [Cursor.nextKind_of_size_le h] at hnext
    cases hnext
  | arguments name hname hnext =>
    rw [Cursor.nextKind_of_size_le h] at hnext
    cases hnext
  | identifier name hname ho =>
    refine absurd ho (afterOperand_ne_operand ?_)
    rw [Cursor.kind_advance_of_size_le h, hname]
    rfl
  | number value hvalue ho =>
    refine absurd ho (afterOperand_ne_operand ?_)
    rw [Cursor.kind_advance_of_size_le h, hvalue]
    rfl
  | group hparen => exact hparen

theorem operands_of_size_le (h : c.tokens.size ≤ c.position) (hk : c.kind = .lparen) :
    operands l enclosing c = .error .endless := by
  rw [operands, operand_of_lparen hk]
  exact if_neg (Cursor.not_before_of_size_le h _)

theorem operands_turn (l : Level) (enclosing : Enclosing) (c : Cursor) :
    operands l enclosing c = finish (operand l enclosing c) := by
  by_cases h : c.position < c.tokens.size
  · obtain ⟨k, ks, hc⟩ := Cursor.exists_kinds_of_lt h
    exact operands_eq_finish hc
  · have hsize : c.tokens.size ≤ c.position := Nat.le_of_not_lt h
    cases ho : operand l enclosing c with
    | error failure => rw [operands, ho, finish]
    | ok p =>
      cases p with
      | complete e d => rw [operands, ho, finish]
      | operand l' enclosing' c' =>
        have hk := operand_of_size_le hsize ho
        rw [operand_of_lparen hk] at ho
        cases ho
        have hk' : c.advance.kind = .lparen := (Cursor.kind_advance_of_size_le hsize).trans hk
        have hsize' : c.advance.tokens.size ≤ c.advance.position := by
          rw [Cursor.position_advance (by simp [hk]), Cursor.tokens_advance]
          exact Nat.le_succ_of_le hsize
        rw [operands_of_size_le hsize hk, finish, operands_of_size_le hsize' hk']

/-- A turn leads from one operand that is due to the next. -/
def Turn (s t : Level × Enclosing × Cursor) : Prop :=
  operand s.1 s.2.1 s.2.2 = .ok (.operand t.1 t.2.1 t.2.2)

/-- Turns that go on for ever. -/
def EndlessRun (s : Level × Enclosing × Cursor) : Prop :=
  ∃ run : Nat → Level × Enclosing × Cursor, run 0 = s ∧ ∀ n, Turn (run n) (run (n + 1))

/-- The state after the bracket at the cursor was read so many times. -/
def reopened (s : Level × Enclosing × Cursor) : Nat → Level × Enclosing × Cursor
  | 0 => s
  | n + 1 =>
    let (l, enclosing, c) := reopened s n
    (.empty, (.group, l) :: enclosing, c.advance)

theorem endlessRun_of_size_le (h : c.tokens.size ≤ c.position) (hk : c.kind = .lparen) :
    EndlessRun (l, enclosing, c) := by
  have hsize : ∀ n, (reopened (l, enclosing, c) n).2.2.tokens.size
      ≤ (reopened (l, enclosing, c) n).2.2.position ∧
        (reopened (l, enclosing, c) n).2.2.kind = .lparen := by
    intro n
    induction n with
    | zero => exact ⟨h, hk⟩
    | succ n ih =>
      obtain ⟨hsize, hk⟩ := ih
      refine ⟨?_, (Cursor.kind_advance_of_size_le hsize).trans hk⟩
      rw [reopened, Cursor.position_advance (by simp [hk]), Cursor.tokens_advance]
      exact Nat.le_succ_of_le hsize
  exact ⟨reopened (l, enclosing, c), rfl, fun n => operand_of_lparen (hsize n).2⟩

theorem EndlessRun.prepend {s t : Level × Enclosing × Cursor} (h : EndlessRun t)
    (hs : Turn s t) : EndlessRun s := by
  obtain ⟨run, h₀, hrun⟩ := h
  refine ⟨fun n => n.casesOn s run, rfl, fun n => ?_⟩
  cases n with
  | zero => exact (h₀ ▸ hs : Turn s (run 0))
  | succ n => exact hrun n

theorem EndlessRun.turn {s : Level × Enclosing × Cursor} (h : EndlessRun s) :
    ∃ t, Turn s t ∧ EndlessRun t := by
  obtain ⟨run, rfl, hrun⟩ := h
  exact ⟨run 1, hrun 0, fun n => run (n + 1), rfl, fun n => hrun (n + 1)⟩

theorem afterOperand_ne_endless_of_closing
    (h : c.kind.Closing → afterAssignment (l.assignment e) c enclosing ≠ .error .endless) :
    afterOperand e l c enclosing ≠ .error .endless := by
  by_cases hk : c.kind.Closing
  · rw [afterOperand_of_closing hk]
    exact h hk
  · obtain ⟨l', hl⟩ :
        ∃ l', afterOperand e l c enclosing = .ok (.operand l' enclosing c.advance) :=
      afterOperand_of_not_closing hk
    simp [hl]

theorem afterOperand_ne_endless : afterOperand e l c enclosing ≠ .error .endless := by
  have hx : ∀ k c, Cursor.expect c k ≠ .error .endless := by
    intro k c
    rw [Cursor.expect_eq]
    split <;> simp
  induction enclosing generalizing e l c with
  | nil => exact afterOperand_ne_endless_of_closing fun _ => by simp [afterAssignment]
  | cons frame enclosing ih =>
    refine afterOperand_ne_endless_of_closing fun _ => ?_
    obtain ⟨bracket, outer⟩ := frame
    rcases bracket.ends_or_goesOn c.kind with hend | ⟨hcomma, callee, calleeSpan, args, rfl⟩
    · rw [afterAssignment_of_end hend]
      intro h
      rcases bind_eq_error_iff.mp h with h | ⟨r, -, h⟩
      · exact hx _ _ h
      · exact ih h
    · simp [afterAssignment_comma hcomma]

theorem operand_ne_endless : operand l enclosing c ≠ .error .endless := by
  unfold operand
  cases c.kind with
  | ident name =>
    dsimp only
    split
    · simp
    · split
      · split
        · exact afterOperand_ne_endless
        · simp
      · exact afterOperand_ne_endless
  | number value => exact afterOperand_ne_endless
  | lparen => simp
  | _ => simp

/-- Operands are read without a result just if the turns go on for ever. -/
theorem operands_endless_iff :
    operands l enclosing c = .error .endless ↔ EndlessRun (l, enclosing, c) := by
  fun_induction operands l enclosing c with
  | case1 l enclosing c failure ho =>
    constructor
    · rintro ⟨rfl⟩
      exact absurd ho operand_ne_endless
    · intro h
      obtain ⟨t, ht, -⟩ := h.turn
      cases ho.symm.trans ht
  | case2 l enclosing c e c' ho =>
    constructor
    · intro h
      cases h
    · intro h
      obtain ⟨t, ht, -⟩ := h.turn
      cases ho.symm.trans ht
  | case3 l enclosing c l' enclosing' c' ho hb ih =>
    rw [ih]
    constructor
    · exact fun h => h.prepend ho
    · intro h
      obtain ⟨t, ht, hrun⟩ := h.turn
      cases ho.symm.trans ht
      exact hrun
  | case4 l enclosing c l' enclosing' c' ho hb =>
    have hsize : c.tokens.size ≤ c.position := by
      refine Nat.le_of_not_lt fun hlt => hb ?_
      obtain ⟨k, ks, hc⟩ := Cursor.exists_kinds_of_lt hlt
      exact operand_before hc ho
    exact ⟨fun _ => endlessRun_of_size_le hsize (operand_of_size_le hsize ho), fun _ => rfl⟩

end Grammar

end MiniC
