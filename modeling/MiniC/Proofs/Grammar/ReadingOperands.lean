import MiniC.Proofs.Grammar.Completing

/-! # What the reader of expressions looks at

By the turns of the loop: each turn looks at the tokens of one operand and at what stands behind
it, up to the next operand or the end of the expression.
-/

namespace MiniC

namespace Grammar

variable {e : Expr} {l : Level} {bracket : Bracket} {outer : Level} {enclosing : Enclosing}
  {c c' d start : Cursor} {k : TokenKind}

theorem finish_bind {α : Type} (x : Except Failure α) (f : α → Except Failure Progress) :
    finish (x >>= f) = x >>= fun a => finish (f a) := by
  cases x <;> rfl

/-- Behind a token that goes on with one more operand, operands are read. -/
def GoesOn (start c : Cursor) : Prop :=
  ∀ d l enclosing, c.Reaches d → d.kind.canStartExpr = false → d.kind ≠ .eof →
    (start.Ended → Progress.Read start.kinds (.operand l enclosing d.advance)) →
    Reading (Opens (Derives .assignment) start) (operands l enclosing) d.advance

theorem canStartExpr_token (op : BinaryOp) : op.token.canStartExpr = false := by
  cases op <;> rfl

theorem canStartExpr_of_not_closing (h : ¬ k.Closing) : k.canStartExpr = false ∧ k ≠ .eof := by
  rcases k.closing_cases with ⟨op, -, rfl⟩ | ⟨op, -, rfl⟩ | hk
  · exact ⟨canStartExpr_token op, op.token_ne_eof⟩
  · exact ⟨canStartExpr_token op, op.token_ne_eof⟩
  · exact absurd hk h

theorem not_repeats_of_canStartExpr (h : c.kind.canStartExpr = false) : ¬ c.Repeats :=
  Cursor.not_repeats_of_kind fun hk => by
    rw [hk] at h
    cases h

theorem GoesOn.advance (h : GoesOn start c) (hk : c.kind ≠ .eof) (hr : ¬ c.Repeats) :
    GoesOn start c.advance :=
  fun d l enclosing hd => h d l enclosing ((Cursor.Reaches.advance hk hr).trans hd)

theorem Behind.read {all : List TokenKind} {p : Progress} (h : Behind all e l enclosing c)
    (ho : afterOperand e l c enclosing = .ok p) : p.Read all := by
  obtain ⟨ke, kl, ko, hE, hl, he, hall, hc⟩ := h
  exact afterOperand_read hE hl he hc hall ho

/-- An operand with an operator behind it, or what closes the assignment instead. -/
theorem reading_afterOperand_of_closing (ih : GoesOn start c)
    (hread : start.Ended → Behind start.kinds e l enclosing c)
    (h : c.kind.Closing → Reading (Opens (Derives .assignment) start)
      (fun c => finish (afterAssignment (l.assignment e) c enclosing)) c) :
    Reading (Opens (Derives .assignment) start)
      (fun c => finish (afterOperand e l c enclosing)) c := by
  by_cases hk : c.kind.Closing
  · refine (h hk).congr fun c' hc' => ?_
    have hk' : c'.kind.Closing := kind_congr hc' ▸ hk
    rw [afterOperand_of_closing hk']
  · obtain ⟨l', hl⟩ : ∃ l', ∀ c', c'.kind = c.kind →
        afterOperand e l c' enclosing = .ok (.operand l' enclosing c'.advance) :=
      afterOperand_operator hk
    obtain ⟨hstart, heof⟩ := canStartExpr_of_not_closing hk
    refine .advance heof (not_repeats_of_canStartExpr hstart)
      (ih c l' enclosing (Cursor.reaches_refl c) hstart heof
        fun hs => (hread hs).read (hl c rfl)) fun c' hc' => ?_
    rw [hl c' (kind_congr hc'), finish]

theorem reading_afterOperand (ih : GoesOn start c)
    (hread : start.Ended → Behind start.kinds e l enclosing c) :
    Reading (Opens (Derives .assignment) start)
      (fun c => finish (afterOperand e l c enclosing)) c := by
  induction enclosing generalizing e l c with
  | nil => exact reading_afterOperand_of_closing ih hread fun _ => .pass fun c' _ => rfl
  | cons frame enclosing ihE =>
    refine reading_afterOperand_of_closing ih hread fun hk => ?_
    obtain ⟨bracket, outer⟩ := frame
    rcases bracket.ends_or_goesOn c.kind with hend | ⟨hc, callee, calleeSpan, args, rfl⟩
    · have hx : Reading (Opens (Derives .assignment) start)
          (fun c => c.expect .rparen >>= fun r =>
            finish (afterOperand (bracket.closed (l.assignment e) r.1.span) outer r.2 enclosing))
          c := by
        refine .bind (reading_expect (by simp) (by simp) fun hs => (hread hs).opens)
          fun t d hd => ?_
        obtain ⟨hr, rfl⟩ := Cursor.expect_eq_ok hd
        exact ihE (ih.advance (by simp [hr]) (Cursor.not_repeats_of_kind (by simp [hr])))
          fun hs => (hread hs).close hr t.span
      refine hx.congr fun c' hc' => ?_
      rw [afterAssignment_of_end (kind_congr hc' ▸ hend), finish_bind]
    · have hstart : c.kind.canStartExpr = false := by rw [hc]; rfl
      refine .advance (by simp [hc]) (not_repeats_of_canStartExpr hstart)
        (ih c .empty _ (Cursor.reaches_refl c) hstart (by simp [hc]) fun hs =>
          (hread hs).read ((afterOperand_of_closing hk).trans (afterAssignment_comma hc)))
        fun c' hc' => ?_
      rw [afterAssignment_comma ((kind_congr hc').trans hc), finish]

theorem canStartExpr_cases (h : k.canStartExpr = true) :
    (∃ name, k = .ident name) ∨ (∃ value, k = .number value) ∨ k = .lparen := by
  cases k with
  | ident name => exact Or.inl ⟨name, rfl⟩
  | number value => exact Or.inr (Or.inl ⟨value, rfl⟩)
  | lparen => exact Or.inr (Or.inr rfl)
  | _ => cases h

theorem operand_refused (h : c.kind.canStartExpr = false) :
    operand l enclosing c
      = .error (.refused (c.unexpected .expectedExpression "expression")) := by
  unfold operand
  cases hk : c.kind with
  | ident | number | lparen =>
    rw [hk] at h
    cases h
  | _ => rfl

/-- Operands are read behind all cursors with fewer tokens ahead. -/
def ReadsBelow (start c : Cursor) : Prop :=
  ∀ d, c.Before d → ∀ l enclosing,
    (start.Ended → Progress.Read start.kinds (.operand l enclosing d)) →
    Reading (Opens (Derives .assignment) start) (operands l enclosing) d

theorem ReadsBelow.goesOn (h : ReadsBelow start c) (hk : c.kind.canStartExpr = true)
    (hd : c.Reaches d) : GoesOn start d := by
  intro f l enclosing hf hstart heof hread
  have hcf := hd.trans hf
  have hlt : c.position < c.tokens.size := by
    refine hcf.lt_size fun heq => ?_
    rw [heq, hk] at hstart
    cases hstart
  refine h f.advance (Cursor.before_of_lt (f.tokens_advance.trans hcf.tokens) hlt ?_) l enclosing
    hread
  rw [Cursor.position_advance heof]
  exact Nat.lt_succ_of_le hcf.le

theorem turn_read {all : List TokenKind} {p : Progress}
    (h : Progress.Read all (.operand l enclosing c)) (ho : operand l enclosing c = .ok p) :
    p.Read all := by
  obtain ⟨ke, kl, hE, hl, hall, hc⟩ := h
  exact operand_read hE hl hc hall ho

theorem ended_of_read {all : List TokenKind}
    (h : Progress.Read all (.operand l enclosing c)) : c.Ended := by
  obtain ⟨_, _, _, _, _, hc⟩ := h
  exact hc

theorem reading_afterToken (ih : ReadsBelow start c) (hk : c.kind.canStartExpr = true)
    (hrep : ¬ c.Repeats) (he : Derives .call [c.kind] e)
    (hread : start.Ended → Progress.Read start.kinds (.operand l enclosing c)) :
    Reading (Opens (Derives .assignment) start)
      (fun d => finish (afterOperand e l d enclosing)) c.advance := by
  have heof : c.kind ≠ .eof := by
    intro h
    rw [h] at hk
    cases hk
  refine reading_afterOperand (ih.goesOn hk (.advance heof hrep)) fun hs => ?_
  obtain ⟨ha, hd⟩ := (ended_of_read (hread hs)).advance heof
  exact behind_of_read (hread hs) he ha hd

theorem reading_operands_of_number (ih : ReadsBelow start c) {value : Int32}
    (hk : c.kind = .number value)
    (hread : start.Ended → Progress.Read start.kinds (.operand l enclosing c)) :
    Reading (Opens (Derives .assignment) start) (operands l enclosing) c := by
  have heof : c.kind ≠ .eof := by simp [hk]
  have hrep : ¬ c.Repeats := Cursor.not_repeats_of_kind (by simp [hk])
  have hafter : Reading (Opens (Derives .assignment) start)
      (fun d => finish (afterOperand (.number value c.span) l d enclosing)) c.advance :=
    reading_afterToken ih (by rw [hk]; rfl) hrep
      (hk ▸ .ofPrimary (.number value c.span)) hread
  refine .advance heof hrep hafter fun c' hc' => ?_
  rw [operands_turn, operand, (kind_congr hc').trans hk, span_congr hc']

/-- Read on behind the name and the opening bracket of a call: it has no arguments, or the first
one begins. -/
def afterCallee (name : String) (span : Span) (l : Level) (enclosing : Enclosing) (c : Cursor) :
    Except Failure Progress :=
  if c.check .rparen then
    afterOperand (.call name span [] (span.merge c.span) none) l c.advance enclosing
  else .ok (.operand .empty ((.call name span [], l) :: enclosing) c)

section Names

variable {name : String} (hk : c.kind = .ident name)

include hk

theorem operand_name_target (hl : l.isEmpty = true) (hn : c.nextKind = .equals) :
    operand l enclosing c
      = .ok (.operand { target := some (name, c.span) } enclosing c.advance.advance) := by
  rw [operand, hk]
  simp [hl, hn]

theorem operand_name_call (hn : c.nextKind = .lparen) :
    operand l enclosing c = afterCallee name c.span l enclosing c.advance.advance := by
  rw [operand, hk]
  simp [hn, afterCallee]

theorem operand_name (hl : l.isEmpty = true → c.nextKind ≠ .equals) (hn : c.nextKind ≠ .lparen) :
    operand l enclosing c
      = afterOperand (.identifier name c.span none) l c.advance enclosing := by
  rw [operand, hk]
  dsimp only
  rw [if_neg (by simpa using hl), if_neg hn]

variable (ih : ReadsBelow start c)
  (hread : start.Ended → Progress.Read start.kinds (.operand l enclosing c))

include ih hread

theorem reading_operands_of_target (hl : l.isEmpty = true) (hn : c.nextKind = .equals) :
    Reading (Opens (Derives .assignment) start) (operands l enclosing) c := by
  have heof : c.kind ≠ .eof := by simp [hk]
  obtain ⟨hnext, hlt⟩ := Cursor.kind_advance hn (by simp) heof
  have hrep : ¬ c.advance.Repeats := Cursor.not_repeats_of_kind (by simp [hnext])
  have hbefore : c.Before c.advance.advance :=
    (Cursor.Reaches.advance (by simp [hnext]) hrep).before heof (Nat.lt_of_succ_lt hlt)
  have hsecond : Reading (Opens (Derives .assignment) start)
      (fun d => operands { target := some (name, c.span) } enclosing d.advance) c.advance :=
    .advance (by simp [hnext]) hrep
      (ih _ hbefore _ _ fun hs => turn_read (hread hs) (operand_name_target hk hl hn))
      fun _ _ => rfl
  refine .advanceName heof (Cursor.not_repeats_of_kind (by simp [hk])) hsecond
    fun c' hc' hn' => ?_
  have hk' := (kind_congr hc').trans hk
  rw [operands_turn, operand_name_target hk' hl ((hn' (by rw [hk]; rfl)).trans hn),
    span_congr hc', finish]

theorem reading_afterCallee (hn : c.nextKind = .lparen) :
    Reading (Opens (Derives .assignment) start)
      (fun d => finish (afterCallee name c.span l enclosing d)) c.advance.advance := by
  have heof : c.kind ≠ .eof := by simp [hk]
  obtain ⟨hnext, hlt⟩ := Cursor.kind_advance hn (by simp) heof
  have hreach₁ : c.Reaches c.advance := .advance heof (Cursor.not_repeats_of_kind (by simp [hk]))
  have hreach₂ : c.advance.Reaches c.advance.advance :=
    .advance (by simp [hnext]) (Cursor.not_repeats_advance (by simp [hk]) heof)
  by_cases hr : c.advance.advance.kind = .rparen
  · have hrep : ¬ c.advance.advance.Repeats := Cursor.not_repeats_of_kind (by simp [hr])
    have hafter : Reading (Opens (Derives .assignment) start)
        (fun d => finish (afterOperand
          (.call name c.span [] (c.span.merge c.advance.advance.span) none) l d enclosing))
        c.advance.advance.advance := by
      refine reading_afterOperand (ih.goesOn (by rw [hk]; rfl)
        ((hreach₁.trans hreach₂).trans (.advance (by simp [hr]) hrep))) fun hs => ?_
      obtain ⟨ha₁, hc₁⟩ := (ended_of_read (hread hs)).advance heof
      obtain ⟨ha₂, hc₂⟩ := hc₁.advance (by simp [hnext])
      obtain ⟨ha₃, hc₃⟩ := hc₂.advance (by simp [hr])
      refine behind_of_read (hread hs) (.call name c.span _ [] (by simp)) ?_ hc₃
      rw [ha₁, ha₂, ha₃, hk, hnext, hr]
      simp [commaSeparated]
    refine .advance (by simp [hr]) hrep hafter fun c' hc' => ?_
    have hcheck : c'.check .rparen = true := by
      rw [Cursor.check, kind_congr hc', hr, decide_eq_true rfl]
    rw [afterCallee, if_pos hcheck, span_congr hc']
  · have hcheck : ∀ c' : Cursor, c'.current = c.advance.advance.current →
        ¬ c'.check .rparen = true := by
      intro c' hc'
      rwa [Cursor.check, decide_eq_true_eq, kind_congr hc']
    refine (ih _ (hreach₂.before heof (Nat.lt_of_succ_lt hlt)) .empty _ fun hs =>
      turn_read (hread hs) ((operand_name_call hk hn).trans (if_neg (hcheck _ rfl)))).congr
        fun c' hc' => ?_
    rw [afterCallee, if_neg (hcheck c' hc'), finish]

theorem reading_operands_of_call (hn : c.nextKind = .lparen) :
    Reading (Opens (Derives .assignment) start) (operands l enclosing) c := by
  have heof : c.kind ≠ .eof := by simp [hk]
  obtain ⟨hnext, hlt⟩ := Cursor.kind_advance hn (by simp) heof
  have hrep : ¬ c.Repeats := Cursor.not_repeats_of_kind (by simp [hk])
  have hrep₁ : ¬ c.advance.Repeats := Cursor.not_repeats_advance (by simp [hk]) heof
  have hsecond : Reading (Opens (Derives .assignment) start)
      (fun d => finish (afterCallee name c.span l enclosing d.advance)) c.advance :=
    .advance (by simp [hnext]) hrep₁ (reading_afterCallee hk ih hread hn) fun _ _ => rfl
  refine .advanceName heof hrep hsecond fun c' hc' hn' => ?_
  have hk' := (kind_congr hc').trans hk
  rw [operands_turn, operand_name_call hk' ((hn' (by rw [hk]; rfl)).trans hn), span_congr hc']

theorem reading_operands_of_name (hl : l.isEmpty = true → c.nextKind ≠ .equals)
    (hn : c.nextKind ≠ .lparen) :
    Reading (Opens (Derives .assignment) start) (operands l enclosing) c := by
  have heof : c.kind ≠ .eof := by simp [hk]
  have hrep : ¬ c.Repeats := Cursor.not_repeats_of_kind (by simp [hk])
  have hafter : Reading (Opens (Derives .assignment) start)
      (fun d => finish (afterOperand (.identifier name c.span none) l d enclosing)) c.advance :=
    reading_afterToken ih (by rw [hk]; rfl) hrep
      (hk ▸ .ofPrimary (.identifier name c.span)) hread
  refine .advanceName heof hrep hafter fun c' hc' hn' => ?_
  have hk' := (kind_congr hc').trans hk
  have hnext := hn' (by rw [hk]; rfl)
  rw [operands_turn, operand_name hk' (hnext ▸ hl) (hnext ▸ hn), span_congr hc']

end Names

theorem reading_operands_of_lparen (ih : ReadsBelow start c) (hk : c.kind = .lparen)
    (hread : start.Ended → Progress.Read start.kinds (.operand l enclosing c)) :
    Reading (Opens (Derives .assignment) start) (operands l enclosing) c := by
  by_cases hlt : c.position < c.tokens.size
  · have heof : c.kind ≠ .eof := by simp [hk]
    have hinside := ih c.advance (Cursor.before_of_lt c.tokens_advance hlt
      (Cursor.position_advance heof ▸ Nat.lt_succ_self _)) .empty ((.group, l) :: enclosing)
      fun hs => turn_read (hread hs) (operand_of_lparen hk)
    refine .advance heof (Cursor.not_repeats_of_lt hlt) hinside fun c' hc' => ?_
    rw [operands_turn, operand_of_lparen ((kind_congr hc').trans hk), finish]
  · have hsize := Nat.le_of_not_lt hlt
    exact .ofEndless (operands_of_size_le hsize hk) (fun hc => hlt hc.lt_size)
      (Cursor.openEnded_of_size_le hsize hk)

/-- From before an operand to behind the expression. -/
theorem reading_operands (start c : Cursor) (l : Level) (enclosing : Enclosing)
    (hread : start.Ended → Progress.Read start.kinds (.operand l enclosing c)) :
    Reading (Opens (Derives .assignment) start) (operands l enclosing) c := by
  induction c using Cursor.before_induction generalizing l enclosing with
  | step c ih =>
    by_cases hstart : c.kind.canStartExpr = true
    · rcases canStartExpr_cases hstart with ⟨name, hk⟩ | ⟨value, hk⟩ | hk
      · by_cases hl : l.isEmpty = true ∧ c.nextKind = .equals
        · exact reading_operands_of_target hk ih hread hl.1 hl.2
        · by_cases hn : c.nextKind = .lparen
          · exact reading_operands_of_call hk ih hread hn
          · exact reading_operands_of_name hk ih hread (fun he hn => hl ⟨he, hn⟩) hn
      · exact reading_operands_of_number ih hk hread
      · exact reading_operands_of_lparen ih hk hread
    · rw [Bool.not_eq_true] at hstart
      have href := refusal_unexpected c .expectedExpression "expression" rfl
      refine .refuse href (fun hs => opens_of_read (hread hs)) fun c' hc' => ?_
      have hstart' : c'.kind.canStartExpr = false := by rwa [kind_congr hc']
      rw [operands_turn, operand_refused hstart', finish, Cursor.unexpected, Cursor.unexpected,
        kind_congr hc', span_congr hc']

theorem reading_expression (c : Cursor) :
    Reading (Opens (Derives .assignment) c) expression c :=
  reading_operands c c .empty [] fun hc =>
    ⟨[], [], rfl, Level.read_empty_iff.mpr rfl, rfl, hc⟩

end Grammar

end MiniC
