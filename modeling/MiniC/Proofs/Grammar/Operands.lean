import MiniC.Proofs.Grammar.Step

/-! # All expressions are read

A reader that stands before the kinds of an expression reads them all, and the tree it makes is
the derived one up to spans. Inside brackets and behind operators there is more to read, so the
statement is about a reader inside a level: what it does before the kinds of an expression of some
sort is what it does behind the last operand of it.
-/

namespace MiniC

open Grammar

namespace Cursor

theorem remaining_advance_le (c : Cursor) : c.advance.remaining ≤ c.remaining := by
  unfold advance remaining
  split
  · exact Nat.le_refl _
  · dsimp only
    omega

theorem before_of_kinds {c d : Cursor} {k : TokenKind} {ks : List TokenKind}
    (h : c.kinds = k :: ks) (hk : k ≠ .eof) (hd : d.remaining ≤ c.advance.remaining) :
    c.Before d := by
  rw [remaining_eq_length_kinds c.advance, kinds_advance h hk] at hd
  rw [Before, remaining_eq_length_kinds c, h, List.length_cons]
  omega

end Cursor

namespace Grammar

variable {e : Expr} {l l' : Level} {c c' : Cursor} {enclosing enclosing' : Enclosing}

theorem afterOperand_operator {k : TokenKind} (h : ¬ k.Closing) :
    ∃ l', ∀ c, c.kind = k →
      afterOperand e l c enclosing = .ok (.operand l' enclosing c.advance) := by
  rcases k.closing_cases with ⟨op, hop, rfl⟩ | ⟨op, hop, rfl⟩ | hk
  · exact ⟨_, fun c hc => afterOperand_product hop hc⟩
  · exact ⟨_, fun c hc => afterOperand_sum hop hc⟩
  · exact absurd hk h

theorem afterOperand_of_not_closing (h : ¬ c.kind.Closing) :
    ∃ l', afterOperand e l c enclosing = .ok (.operand l' enclosing c.advance) := by
  obtain ⟨l', hl⟩ := afterOperand_operator h
  exact ⟨l', hl c rfl⟩

theorem afterOperand_remaining_le
    (h : afterOperand e l c enclosing = .ok (.operand l' enclosing' c')) :
    c'.remaining ≤ c.remaining := by
  induction enclosing generalizing e l c with
  | nil =>
    by_cases hk : c.kind.Closing
    · rw [afterOperand_of_closing hk] at h
      cases h
    · obtain ⟨l₁, hl⟩ : ∃ l₁, afterOperand e l c [] = .ok (.operand l₁ [] c.advance) :=
        afterOperand_of_not_closing hk
      cases hl.symm.trans h
      exact c.remaining_advance_le
  | cons frame enclosing ih =>
    by_cases hk : c.kind.Closing
    · rw [afterOperand_of_closing hk] at h
      obtain ⟨bracket, outer⟩ := frame
      rcases bracket.ends_or_goesOn c.kind with hend | ⟨hcomma, callee, calleeSpan, args, rfl⟩
      · rw [afterAssignment_of_end hend] at h
        obtain ⟨⟨t, d⟩, hx, h⟩ := bind_eq_ok_iff.mp h
        obtain ⟨-, rfl⟩ := Cursor.expect_eq_ok hx
        exact Nat.le_trans (ih h) c.remaining_advance_le
      · rw [afterAssignment_comma hcomma] at h
        cases h
        exact c.remaining_advance_le
    · obtain ⟨l₁, hl⟩ := afterOperand_of_not_closing hk
      cases hl.symm.trans h
      exact c.remaining_advance_le

/-- Before the end of the list, reading an operand uses up a token. -/
theorem operand_before {k : TokenKind} {ks : List TokenKind} (hc : c.kinds = k :: ks)
    (h : operand l enclosing c = .ok (.operand l' enclosing' c')) : c.Before c' := by
  have hkind := Cursor.kind_of_kinds hc
  cases operand_step h with
  | target name hname =>
    exact Cursor.before_of_kinds hc (by simp [← hkind, hname]) (Cursor.remaining_advance_le _)
  | call name hname _ _ h =>
    exact Cursor.before_of_kinds hc (by simp [← hkind, hname])
      (Nat.le_trans (afterOperand_remaining_le h)
        (Nat.le_trans (Cursor.remaining_advance_le _) (Cursor.remaining_advance_le _)))
  | arguments name hname =>
    exact Cursor.before_of_kinds hc (by simp [← hkind, hname]) (Cursor.remaining_advance_le _)
  | identifier name hname h =>
    exact Cursor.before_of_kinds hc (by simp [← hkind, hname]) (afterOperand_remaining_le h)
  | number value hvalue h =>
    exact Cursor.before_of_kinds hc (by simp [← hkind, hvalue]) (afterOperand_remaining_le h)
  | group hparen =>
    exact Cursor.before_of_kinds hc (by simp [← hkind, hparen]) (Nat.le_refl _)

def finish : Except Failure Progress → Except Failure (Expr × Cursor)
  | .error failure => .error failure
  | .ok (.complete e c) => .ok (e, c)
  | .ok (.operand level enclosing c) => operands level enclosing c

theorem operands_eq_finish {k : TokenKind} {ks : List TokenKind} (hc : c.kinds = k :: ks) :
    operands l enclosing c = finish (operand l enclosing c) := by
  rw [operands]
  split
  next h => rw [h]; rfl
  next h => rw [h]; rfl
  next h => rw [h, if_pos (operand_before hc h)]; rfl

/-- A kind that can stand behind a name without making it a target or a callee. -/
def Follows (k : TokenKind) : Prop := k ≠ .equals ∧ k ≠ .lparen

theorem follows_token {op : BinaryOp} (h : op.rank ≠ .assignment) : Follows op.token := by
  cases op <;> first | exact absurd rfl h | simp [Follows, BinaryOp.token]

theorem follows_rparen : Follows .rparen := by simp [Follows]

theorem follows_comma : Follows .comma := by simp [Follows]

theorem follows_semicolon : Follows .semicolon := by simp [Follows]

variable {name : String} {k : TokenKind} {ks more : List TokenKind}

theorem operand_identifier (hc : c.kinds = .ident name :: k :: ks) (hk : Follows k) :
    operand l enclosing c
      = afterOperand (.identifier name c.span none) l c.advance enclosing := by
  unfold operand
  simp [Cursor.kind_of_kinds hc, Cursor.nextKind_of_kinds hc, hk.1, hk.2]

theorem operand_number {value : Int32} (hc : c.kinds = .number value :: ks) :
    operand l enclosing c = afterOperand (.number value c.span) l c.advance enclosing := by
  unfold operand
  rw [Cursor.kind_of_kinds hc]

theorem operand_lparen (hc : c.kinds = .lparen :: ks) :
    operand l enclosing c
      = .ok (.operand .empty ((.group, l) :: enclosing) c.advance) := by
  unfold operand
  rw [Cursor.kind_of_kinds hc]

theorem operand_target (hc : c.kinds = .ident name :: .equals :: ks) :
    operand .empty enclosing c
      = .ok (.operand { target := some (name, c.span) } enclosing c.advance.advance) := by
  unfold operand
  simp [Cursor.kind_of_kinds hc, Cursor.nextKind_of_kinds hc, Level.isEmpty, Level.empty]

theorem operand_call_nil (hc : c.kinds = .ident name :: .lparen :: .rparen :: ks) :
    operand l enclosing c
      = afterOperand (.call name c.span [] (c.span.merge c.advance.advance.span) none) l
          c.advance.advance.advance enclosing := by
  have h₁ := Cursor.kinds_advance hc (by simp)
  have h₂ := Cursor.kinds_advance h₁ (by simp)
  unfold operand
  simp [Cursor.kind_of_kinds hc, Cursor.nextKind_of_kinds hc, Cursor.check_of_kinds h₂]

theorem operand_call (hc : c.kinds = .ident name :: .lparen :: k :: ks) (hk : k ≠ .rparen) :
    operand l enclosing c
      = .ok (.operand .empty ((.call name c.span [], l) :: enclosing) c.advance.advance) := by
  have h₁ := Cursor.kinds_advance hc (by simp)
  have h₂ := Cursor.kinds_advance h₁ (by simp)
  unfold operand
  simp [Cursor.kind_of_kinds hc, Cursor.nextKind_of_kinds hc, Cursor.check_of_kinds h₂, hk]

/-- Nothing stands yet where an expression of the sort would be held. -/
def Room : Rank → Level → Prop
  | .assignment, l => l = .empty
  | .additive, l => l.sum = none ∧ l.product = none
  | .multiplicative, l => l.product = none
  | .call, _ | .primary, _ => True

/-- What is held for looser sorts than this one is still the same. -/
def Kept : Rank → Level → Level → Prop
  | .assignment, _, _ => True
  | .additive, l, l' => l'.target = l.target
  | .multiplicative, l, l' => l'.target = l.target ∧ l'.sum = l.sum
  | .call, l, l' | .primary, l, l' => l' = l

/-- The expression of the sort that an operand completes. -/
def completed : Rank → Level → Expr → Expr
  | .assignment => Level.assignment
  | .additive => Level.additive
  | .multiplicative => Level.multiplicative
  | .call | .primary => fun _ e => e

/-- Reading from before the kinds on is reading from behind their last operand on, which completes
the tree. -/
def Passes (r : Rank) (ks : List TokenKind) (e : Expr) : Prop :=
  ∀ (l : Level) (enclosing : Enclosing) (c : Cursor) (k : TokenKind) (more : List TokenKind),
    Room r l → c.kinds = ks ++ k :: more → Follows k →
    ∃ l' e' c', Kept r l l' ∧ (completed r l' e').relabel .spanless = e.relabel .spanless ∧
      c'.kinds = k :: more ∧
      operands l enclosing c = finish (afterOperand e' l' c' enclosing)

theorem passes_identifier (name : String) (span : Span) :
    Passes .primary [.ident name] (.identifier name span none) := by
  intro l enclosing c k more _ hc hk
  refine ⟨l, .identifier name c.span none, c.advance, rfl, by simp [completed],
    Cursor.kinds_advance hc (by simp), ?_⟩
  rw [operands_eq_finish hc, operand_identifier hc hk]

theorem passes_number (value : Int32) (span : Span) :
    Passes .primary [.number value] (.number value span) := by
  intro l enclosing c k more _ hc _
  refine ⟨l, .number value c.span, c.advance, rfl, by simp [completed],
    Cursor.kinds_advance hc (by simp), ?_⟩
  rw [operands_eq_finish hc, operand_number hc]

variable {ks' : List TokenKind} {e' : Expr} {op : BinaryOp}

theorem Passes.assign (h : Passes .additive ks e) (name : String) (nameSpan span : Span) :
    Passes .assignment (.ident name :: .equals :: ks)
      (.binary .assign (.identifier name nameSpan none) e span) := by
  intro l enclosing c k more hl hc hk
  obtain rfl : l = .empty := hl
  have h₁ := Cursor.kinds_advance hc (by simp)
  have h₂ := Cursor.kinds_advance h₁ (by simp)
  obtain ⟨l', e', c', ht, he, hc', ho⟩ :=
    h { target := some (name, c.span) } enclosing _ k more ⟨rfl, rfl⟩ h₂ hk
  refine ⟨l', e', c', trivial, ?_, hc', ?_⟩
  · rw [completed, Level.assignment_of_some ht]
    simp only [completed] at he
    simp [he]
  · rw [operands_eq_finish hc, operand_target hc]
    exact ho

theorem Passes.ofAdditive (h : Passes .additive ks e) : Passes .assignment ks e := by
  intro l enclosing c k more hl hc hk
  obtain rfl : l = .empty := hl
  obtain ⟨l', e', c', ht, he, hc', ho⟩ := h .empty enclosing c k more ⟨rfl, rfl⟩ hc hk
  refine ⟨l', e', c', trivial, ?_, hc', ho⟩
  rw [completed, Level.assignment_of_none ht]
  exact he

theorem Passes.sum (h : Passes .additive ks e) (h' : Passes .multiplicative ks' e')
    (hop : op.rank = .additive) (span : Span) :
    Passes .additive (ks ++ op.token :: ks') (.binary op e e' span) := by
  intro l enclosing c k more hl hc hk
  have hf : Follows op.token := follows_token (by simp [hop])
  obtain ⟨l₁, e₁, c₁, ht₁, he₁, hc₁, ho₁⟩ :=
    h l enclosing c op.token (ks' ++ k :: more) hl (by simpa using hc) hf
  obtain ⟨l₂, e₂, c₂, ⟨ht₂, hs₂⟩, he₂, hc₂, ho₂⟩ :=
    h' { target := l₁.target, sum := some (l₁.additive e₁, op) } enclosing c₁.advance k more rfl
      (Cursor.kinds_advance hc₁ op.token_ne_eof) hk
  refine ⟨l₂, e₂, c₂, ht₂.trans ht₁, ?_, hc₂, ?_⟩
  · rw [completed, Level.additive_of_some hs₂]
    simp only [completed] at he₁ he₂
    simp [he₁, he₂]
  · rw [ho₁, afterOperand_sum hop (Cursor.kind_of_kinds hc₁)]
    exact ho₂

theorem Passes.ofMultiplicative (h : Passes .multiplicative ks e) : Passes .additive ks e := by
  intro l enclosing c k more hl hc hk
  obtain ⟨l', e', c', ⟨ht, hs⟩, he, hc', ho⟩ := h l enclosing c k more hl.2 hc hk
  refine ⟨l', e', c', ht, ?_, hc', ho⟩
  rw [completed, Level.additive_of_none (hs.trans hl.1)]
  exact he

theorem Passes.product (h : Passes .multiplicative ks e) (h' : Passes .call ks' e')
    (hop : op.rank = .multiplicative) (span : Span) :
    Passes .multiplicative (ks ++ op.token :: ks') (.binary op e e' span) := by
  intro l enclosing c k more hl hc hk
  have hf : Follows op.token := follows_token (by simp [hop])
  obtain ⟨l₁, e₁, c₁, hkept₁, he₁, hc₁, ho₁⟩ :=
    h l enclosing c op.token (ks' ++ k :: more) hl (by simpa using hc) hf
  obtain ⟨l₂, e₂, c₂, rfl, he₂, hc₂, ho₂⟩ :=
    h' { l₁ with product := some (l₁.multiplicative e₁, op) } enclosing c₁.advance k more trivial
      (Cursor.kinds_advance hc₁ op.token_ne_eof) hk
  refine ⟨{ l₁ with product := some (l₁.multiplicative e₁, op) }, e₂, c₂, hkept₁, ?_, hc₂, ?_⟩
  · rw [completed, Level.multiplicative_of_some rfl]
    simp only [completed] at he₁ he₂
    simp [he₁, he₂]
  · rw [ho₁, afterOperand_product hop (Cursor.kind_of_kinds hc₁)]
    exact ho₂

theorem Passes.ofCall (h : Passes .call ks e) : Passes .multiplicative ks e := by
  intro l enclosing c k more hl hc hk
  obtain ⟨l', e', c', rfl, he, hc', ho⟩ := h l enclosing c k more trivial hc hk
  refine ⟨l', e', c', ⟨rfl, rfl⟩, ?_, hc', ho⟩
  rw [completed, Level.multiplicative_of_none hl]
  exact he

theorem Passes.ofPrimary (h : Passes .primary ks e) : Passes .call ks e := h

theorem Passes.group (h : Passes .assignment ks e) :
    Passes .primary (.lparen :: (ks ++ [.rparen])) e := by
  intro l enclosing c k more _ hc hk
  have h₁ : c.advance.kinds = ks ++ .rparen :: k :: more := by
    simpa using Cursor.kinds_advance hc (by simp)
  obtain ⟨l₁, e₁, c₁, -, he₁, hc₁, ho₁⟩ :=
    h .empty ((.group, l) :: enclosing) c.advance .rparen (k :: more) rfl h₁ follows_rparen
  refine ⟨l, l₁.assignment e₁, c₁.advance, rfl, he₁, Cursor.kinds_advance hc₁ (by simp), ?_⟩
  have hk₁ : c₁.kind.Closing := Cursor.kind_of_kinds hc₁ ▸ TokenKind.closing_rparen
  rw [operands_eq_finish hc, operand_lparen hc]
  refine ho₁.trans ?_
  rw [afterOperand_of_closing hk₁, afterAssignment, Cursor.expect_of_kinds hc₁, ok_bind]

theorem Derives.exists_cons {r : Rank} (h : Derives r ks e) :
    ∃ k ks', ks = k :: ks' ∧ k.canStartExpr = true := by
  induction h with
  | assign => exact ⟨_, _, rfl, rfl⟩
  | ofAdditive _ ih => exact ih
  | sum _ _ _ _ ih =>
    obtain ⟨k, ks', rfl, hk⟩ := ih
    exact ⟨k, _, rfl, hk⟩
  | ofMultiplicative _ ih => exact ih
  | product _ _ _ _ ih =>
    obtain ⟨k, ks', rfl, hk⟩ := ih
    exact ⟨k, _, rfl, hk⟩
  | ofCall _ ih => exact ih
  | call => exact ⟨_, _, rfl, rfl⟩
  | ofPrimary _ ih => exact ih
  | identifier => exact ⟨_, _, rfl, rfl⟩
  | number => exact ⟨_, _, rfl, rfl⟩
  | group => exact ⟨_, _, rfl, rfl⟩

theorem operands_arguments (callee : String) (calleeSpan : Span)
    (parts : List (List TokenKind × Expr)) (hne : parts ≠ [])
    (h : ∀ a ∈ parts, Passes .assignment a.1 a.2) (done : List Expr)
    (hc : c.kinds = commaSeparated (parts.map (·.1)) ++ .rparen :: k :: more) :
    ∃ args span c', args.map (·.relabel .spanless) = parts.map (·.2.relabel .spanless) ∧
      c'.kinds = k :: more ∧
        operands .empty ((.call callee calleeSpan done, l) :: enclosing) c
          = finish (afterOperand (.call callee calleeSpan (done.reverse ++ args) span none) l c'
              enclosing) := by
  induction parts generalizing c done with
  | nil => exact absurd rfl hne
  | cons part parts ih =>
    cases parts with
    | nil =>
      obtain ⟨l₁, e₁, c₁, -, he₁, hc₁, ho₁⟩ :=
        h part (by simp) .empty ((.call callee calleeSpan done, l) :: enclosing) c .rparen
          (k :: more) rfl (by simpa [commaSeparated] using hc) follows_rparen
      have hk₁ : c₁.kind.Closing := Cursor.kind_of_kinds hc₁ ▸ TokenKind.closing_rparen
      have hcomma : ¬ c₁.check .comma = true := by simp [Cursor.check_of_kinds hc₁]
      refine ⟨[l₁.assignment e₁], calleeSpan.merge c₁.current.span, c₁.advance, ?_,
        Cursor.kinds_advance hc₁ (by simp), ?_⟩
      · simpa [completed] using he₁
      · rw [ho₁, afterOperand_of_closing hk₁, afterAssignment, if_neg hcomma,
          Cursor.expect_of_kinds hc₁, ok_bind, List.reverse_cons]
    | cons part' parts =>
      obtain ⟨l₁, e₁, c₁, -, he₁, hc₁, ho₁⟩ :=
        h part (by simp) .empty ((.call callee calleeSpan done, l) :: enclosing) c .comma
          (commaSeparated ((part' :: parts).map (·.1)) ++ .rparen :: k :: more) rfl
          (by simpa [commaSeparated] using hc) follows_comma
      have hk₁ : c₁.kind.Closing := Cursor.kind_of_kinds hc₁ ▸ TokenKind.closing_comma
      have hcomma : c₁.check .comma = true := by simp [Cursor.check_of_kinds hc₁]
      obtain ⟨args, span, c', hargs, hc', ho'⟩ :=
        ih (by simp) (fun a ha => h a (List.mem_cons_of_mem _ ha)) (l₁.assignment e₁ :: done)
          (Cursor.kinds_advance hc₁ (by simp))
      refine ⟨l₁.assignment e₁ :: args, span, c', ?_, hc', ?_⟩
      · rw [List.map_cons, List.map_cons, hargs]
        exact congrArg (· :: _) he₁
      · rw [ho₁, afterOperand_of_closing hk₁, afterAssignment, if_pos hcomma, finish, ho',
          List.reverse_cons, List.append_assoc, List.singleton_append]

theorem passes_call (callee : String) (calleeSpan span : Span)
    (args : List (List TokenKind × Expr)) (hd : ∀ a ∈ args, Derives .assignment a.1 a.2)
    (h : ∀ a ∈ args, Passes .assignment a.1 a.2) :
    Passes .call (.ident callee :: .lparen :: (commaSeparated (args.map (·.1)) ++ [.rparen]))
      (.call callee calleeSpan (args.map (·.2)) span none) := by
  intro l enclosing c k more _ hc hk
  cases args with
  | nil =>
    have hc : c.kinds = .ident callee :: .lparen :: .rparen :: k :: more := hc
    have h₁ := Cursor.kinds_advance hc (by simp)
    have h₂ := Cursor.kinds_advance h₁ (by simp)
    refine ⟨l, .call callee c.span [] (c.span.merge c.advance.advance.span) none, _, rfl,
      by simp [completed], Cursor.kinds_advance h₂ (by simp), ?_⟩
    rw [operands_eq_finish hc, operand_call_nil hc]
  | cons arg args =>
    obtain ⟨k', ks', hk', hstart⟩ := (hd arg (by simp)).exists_cons
    have hne : k' ≠ .rparen := by rintro rfl; cases hstart
    have hc' : c.kinds = .ident callee :: .lparen :: k' ::
        (ks' ++ (args.map (·.1)).flatMap (.comma :: ·) ++ .rparen :: k :: more) := by
      rw [hc, List.map_cons, commaSeparated_cons, hk']
      simp
    have h₁ := Cursor.kinds_advance hc (by simp)
    have h₂ := Cursor.kinds_advance h₁ (by simp)
    obtain ⟨args', span', c', hargs, hkinds, ho⟩ :=
      operands_arguments callee c.span (arg :: args) (by simp) h [] (by simpa using h₂)
    refine ⟨l, .call callee c.span args' span' none, c', rfl, ?_, hkinds, ?_⟩
    · simp only [completed, Expr.relabel_call, List.map_map]
      rw [hargs]
      rfl
    · rw [operands_eq_finish hc', operand_call hc' hne]
      exact ho

theorem derives_passes {r : Rank} (h : Derives r ks e) : Passes r ks e := by
  induction h with
  | assign name nameSpan span _ ih => exact ih.assign name nameSpan span
  | ofAdditive _ ih => exact ih.ofAdditive
  | sum hop span _ _ ih ih' => exact ih.sum ih' hop span
  | ofMultiplicative _ ih => exact ih.ofMultiplicative
  | product hop span _ _ ih ih' => exact ih.product ih' hop span
  | ofCall _ ih => exact ih.ofCall
  | call callee calleeSpan span args hd ih => exact passes_call callee calleeSpan span args hd ih
  | ofPrimary _ ih => exact ih.ofPrimary
  | identifier name span => exact passes_identifier name span
  | number value span => exact passes_number value span
  | group _ ih => exact ih.group

/-- Kinds that derive an assignment are read up to the semicolon behind them. -/
theorem Derives.reads (h : Derives .assignment ks e) (hc : c.kinds = ks ++ .semicolon :: more) :
    ∃ e' d, expression c = .ok (e', d) ∧ d.kinds = .semicolon :: more ∧
      e'.relabel .spanless = e.relabel .spanless := by
  obtain ⟨l', e', c', -, he, hc', ho⟩ :=
    derives_passes h .empty [] c .semicolon more rfl hc follows_semicolon
  have hk : c'.kind.Closing := Cursor.kind_of_kinds hc' ▸ TokenKind.closing_semicolon
  refine ⟨l'.assignment e', c', ?_, hc', he⟩
  rw [expression, ho, afterOperand_of_closing hk]
  rfl

end Grammar

end MiniC
