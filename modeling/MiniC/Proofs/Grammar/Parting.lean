import MiniC.Proofs.Grammar.Earliest

/-! # Lists that part

A list with a token that the lexer could not form is read side by side with a list that has a
semicolon in its place and ends soon behind it. Up to there both readers do the same. The token is
always refused with the error of the lexer; only where it stands behind an expression statement or
behind a prototype is there one more help text, and these are the two places where the semicolon
is taken and a list can end well.
-/

namespace MiniC

open Grammar

/-- The help for an expression statement without its semicolon, by where it starts. -/
def semicolonMissingAt (p : Position) : String :=
  "the expression starting at " ++ p.text ++ " needs a terminating `;`"

theorem missingSemicolon_eq (value : Expr) :
    missingSemicolon value = semicolonMissingAt value.span.start := by
  unfold missingSemicolon semicolonMissingAt Span.text
  with_reducible rfl

theorem semicolonMissingAt_ne {help : String} (h : help.toList.head? ≠ some 't') (p : Position) :
    semicolonMissingAt p ≠ help := by
  intro hp
  have hhead : "the expression starting at ".toList.head? = some 't' := by decide +kernel
  unfold semicolonMissingAt at hp
  rw [← hp, String.toList_append, String.toList_append, List.append_assoc, List.head?_append,
    hhead] at h
  exact h Option.some_or

/-- The help for an item that ends behind its prototype. -/
def Prototype.unfinished : String := "end a declaration with `;` or give the function a body"

def Stmt.unfinished : Stmt → List String
  | .expr value => [missingSemicolon value]
  | .decl _ | .ret _ _ => []

def FunctionBody.unfinished (b : FunctionBody) : List String :=
  (b.statements.getLast?.map (·.unfinished)).getD []

def ParseError.helped (e : ParseError) (help : List String) : ParseError :=
  { e with help := e.help ++ help }

@[simp] theorem ParseError.helped_nil (e : ParseError) : e.helped [] = e := by simp [helped]

/-- Two lists of tokens with the same beginning. Behind it, one goes on with a token that the lexer
could not form; the other one has a semicolon there and then ends, behind a closing brace or not. -/
structure Parting where
  shared : List Token
  cause : LexError
  span : Span
  rest : List Token
  closesBody : Bool

namespace Parting

def stopped (p : Parting) : List Token := p.shared ++ ⟨.error p.cause, p.span⟩ :: p.rest

def tail (p : Parting) : List Token :=
  if p.closesBody then [⟨.rbrace, .dummy⟩, .endMark] else [.endMark]

def ended (p : Parting) : List Token := p.shared ++ ⟨.semicolon, .dummy⟩ :: p.tail

def error (p : Parting) : ParseError := .ofLexError p.cause p.span

def past (p : Parting) : Cursor := (Cursor.ofTokens p.ended).moveTo (p.shared.length + 1)

/-- The cursors stand at the same place of both lists, no further than where these part. -/
structure At (p : Parting) (c c' : Cursor) : Prop where
  tokens : c.tokens = p.stopped.toArray
  tokens' : c'.tokens = p.ended.toArray
  position : c'.position = c.position
  le : c.position ≤ p.shared.length

/-- What the cursors see. -/
inductive Sees (p : Parting) (c c' : Cursor) : Prop
  | shared (current : c'.current = c.current) (advance : p.At c.advance c'.advance)
    (next : ∀ k, k ≠ .error p.cause → k ≠ .semicolon → (c'.nextKind = k ↔ c.nextKind = k))
  | parted (kind : c.kind = .error p.cause) (span : c.span = p.span) (kind' : c'.kind = .semicolon)
    (advance : c'.advance = p.past)

variable {p : Parting} {c c' d d' : Cursor} {k : TokenKind}

theorem at_ofTokens (p : Parting) : p.At (.ofTokens p.stopped) (.ofTokens p.ended) :=
  ⟨rfl, rfl, rfl, Nat.zero_le _⟩

theorem At.sees (h : p.At c c') : p.Sees c c' := by
  obtain ⟨tokens, i⟩ := c
  obtain ⟨tokens', i'⟩ := c'
  obtain ⟨rfl, rfl, rfl, hle⟩ := h
  dsimp only at hle ⊢
  rcases Nat.lt_or_eq_of_le hle with hlt | rfl
  · have hcurrent : (Cursor.mk p.ended.toArray i').current
        = (Cursor.mk p.stopped.toArray i').current := by
      simp [Cursor.current, stopped, ended, List.getElem?_append_left hlt, hlt]
    refine .shared hcurrent ?_ fun k hk hk' => ?_
    · rw [Cursor.advance, Cursor.advance, Cursor.atEnd, Cursor.atEnd, Cursor.kind, Cursor.kind,
        hcurrent]
      split
      · exact ⟨rfl, rfl, rfl, hle⟩
      · exact ⟨rfl, rfl, rfl, hlt⟩
    · rcases Nat.lt_or_eq_of_le (show i' + 1 ≤ p.shared.length from hlt) with hnext | hnext
      · simp [Cursor.nextKind, stopped, ended, List.getElem?_append_left hnext]
      · simp [Cursor.nextKind, stopped, ended, hnext, Ne.symm hk, Ne.symm hk']
  · refine .parted ?_ ?_ ?_ ?_
    · simp [Cursor.kind, Cursor.current, stopped]
    · simp [Cursor.span, Cursor.current, stopped]
    · simp [Cursor.kind, Cursor.current, ended]
    · simp [Cursor.advance, Cursor.atEnd, Cursor.kind, Cursor.current, ended, past,
        Cursor.ofTokens, Cursor.moveTo]

theorem At.kind_eq_iff (h : p.At c c') (hk : k ≠ .error p.cause) (hk' : k ≠ .semicolon) :
    c'.kind = k ↔ c.kind = k := by
  cases h.sees with
  | shared current => rw [Cursor.kind, current, Cursor.kind]
  | parted kind span kind' => simp [kind, kind', Ne.symm hk, Ne.symm hk']

theorem At.check_eq (h : p.At c c') (hk : k ≠ .error p.cause) (hk' : k ≠ .semicolon) :
    c'.check k = c.check k := by
  rw [Cursor.check, Cursor.check, decide_eq_decide]
  exact h.kind_eq_iff hk hk'

theorem At.atEnd_eq (h : p.At c c') : c'.atEnd = c.atEnd :=
  h.check_eq (by simp) (by simp)

theorem At.of_kind (h : p.At c c') (hc : c.kind = k) (hk : k ≠ .error p.cause) :
    c'.current = c.current ∧ p.At c.advance c'.advance ∧
      ∀ k, k ≠ .error p.cause → k ≠ .semicolon → (c'.nextKind = k ↔ c.nextKind = k) := by
  cases h.sees with
  | shared current advance next => exact ⟨current, advance, next⟩
  | parted kind => exact absurd (hc.symm.trans kind) hk

theorem At.advance (h : p.At c c') (hc : c.kind = k) (hk : k ≠ .error p.cause) :
    p.At c.advance c'.advance :=
  (h.of_kind hc hk).2.1

theorem At.before_iff (h : p.At c c') (hd : p.At d d') : c'.Before d' ↔ c.Before d := by
  have hp := h.position
  have hp' := hd.position
  have hle := h.le
  have hle' := hd.le
  rw [Cursor.Before, Cursor.Before, Cursor.remaining, Cursor.remaining, Cursor.remaining,
    Cursor.remaining, h.tokens, h.tokens', hd.tokens, hd.tokens']
  simp only [stopped, ended, List.size_toArray, List.length_append, List.length_cons]
  omega

/-- The error of the refused list if the help for its place cannot be told from the other list. -/
def Hidden (p : Parting) (help : List String) : Prop :=
  if p.closesBody then help = [Prototype.unfinished] else ∃ s : Stmt, help = s.unfinished

/-- How two readers end side by side: both with a result, both with the same failure before the
lists part, or one with an error of the lexer where the other one fails or goes on. -/
inductive Outcome {α : Type} (p : Parting) (R : α → α → Prop) (B : List String → α → Prop) :
    Except Failure α → Except Failure α → Prop
  | both {a a' : α} (h : R a a') : Outcome p R B (.ok a) (.ok a')
  | same (failure : Failure) : Outcome p R B (.error failure) (.error failure)
  | stop {help : List String} (h : help = [] ∨ p.Hidden help) (failure : Failure) :
    Outcome p R B (.error (.refused (p.error.helped help))) (.error failure)
  | beyond {help : List String} {a' : α} (h : B help a') :
    Outcome p R B (.error (.refused (p.error.helped help))) (.ok a')

/-- The reader of the other list does not go on alone. -/
def Never {α : Type} (_ : List String) (_ : α) : Prop := False

structure Together {α : Type} (p : Parting) (r r' : α × Cursor) : Prop where
  value : r'.1 = r.1
  cursor : p.At r.2 r'.2

/-- The reader of the other list went on to a cursor, with a value for which there is a help. -/
def Alone {α : Type} (end_ : Cursor) (help : α → List String) (texts : List String)
    (r' : α × Cursor) : Prop :=
  texts = help r'.1 ∧ r'.2 = end_

variable {α β : Type} {R : α → α → Prop} {B : List String → α → Prop} {S : β → β → Prop}
  {C : List String → β → Prop} {x y : Except Failure α} {f g : α → Except Failure β}

theorem Outcome.plain (p : Parting) (failure : Failure) :
    Outcome p R B (.error (.refused p.error)) (.error failure) := by
  have h := Outcome.stop (p := p) (R := R) (B := B) (Or.inl rfl) failure
  rwa [ParseError.helped_nil] at h

theorem Outcome.bind (h : Outcome p R B x y)
    (hboth : ∀ a a', x = .ok a → R a a' → Outcome p S C (f a) (g a'))
    (hbeyond : ∀ help a', B help a' →
      Outcome p S C (.error (.refused (p.error.helped help))) (g a')) :
    Outcome p S C (x >>= f) (y >>= g) := by
  cases h with
  | both h => exact hboth _ _ rfl h
  | same failure => exact .same failure
  | stop h failure => exact .stop h failure
  | beyond h => exact hbeyond _ _ h

theorem Outcome.andThen (h : Outcome p R Never x y)
    (hboth : ∀ a a', x = .ok a → R a a' → Outcome p S C (f a) (g a')) :
    Outcome p S C (x >>= f) (y >>= g) :=
  h.bind hboth fun _ _ hnever => hnever.elim

/-- At the token that the lexer could not form, nothing matters but this. -/
theorem unexpected_eq (hk : c.kind = .error p.cause) (hs : c.span = p.span) (code : Code)
    (expected : String) : c.unexpected code expected = p.error := by
  rw [Cursor.unexpected, hk, hs]
  rfl

theorem unexpected_congr (h : c'.current = c.current) (code : Code) (expected : String) :
    c'.unexpected code expected = c.unexpected code expected := by
  rw [Cursor.unexpected, Cursor.unexpected, Cursor.kind, Cursor.span, h]
  rfl

theorem outcome_unexpected (h : p.At c c') (code : Code) (expected : String) :
    Outcome p R B (.error (.refused (c.unexpected code expected)))
      (.error (.refused (c'.unexpected code expected))) := by
  cases h.sees with
  | shared current =>
    rw [unexpected_congr current]
    exact .same _
  | parted kind span =>
    rw [unexpected_eq kind span]
    exact .plain p _

theorem outcome_expect (h : p.At c c') (hk : k ≠ .error p.cause) (hk' : k ≠ .semicolon) :
    Outcome p p.Together Never (c.expect k) (c'.expect k) := by
  rw [Cursor.expect_eq, Cursor.expect_eq, h.check_eq hk hk']
  by_cases hc : c.kind = k
  · obtain ⟨current, advance, -⟩ := h.of_kind hc hk
    rw [if_pos (Cursor.check_of_kind hc), if_pos (Cursor.check_of_kind hc)]
    exact .both ⟨current, advance⟩
  · rw [if_neg (Cursor.not_check_of_kind hc), if_neg (Cursor.not_check_of_kind hc)]
    exact outcome_unexpected h _ _

/-- A semicolon is what only the other list has where the lists part. -/
theorem outcome_semicolon (h : p.At c c') :
    Outcome p p.Together (Alone p.past fun _ => []) (c.expect .semicolon)
      (c'.expect .semicolon) := by
  cases h.sees with
  | shared current advance =>
    have hcheck : c'.check .semicolon = c.check .semicolon := by
      rw [Cursor.check, Cursor.check, Cursor.kind, current, Cursor.kind]
    rw [Cursor.expect_eq, Cursor.expect_eq, hcheck]
    split
    · exact .both ⟨current, advance⟩
    · exact outcome_unexpected h _ _
  | parted kind span kind' advance =>
    rw [Cursor.expect_eq, Cursor.expect_eq, if_neg (Cursor.not_check_of_kind (by simp [kind])),
      if_pos (Cursor.check_of_kind kind'), unexpected_eq kind span, ← p.error.helped_nil]
    exact .beyond ⟨rfl, advance⟩

theorem outcome_expectIdent (h : p.At c c') :
    Outcome p p.Together Never c.expectIdent c'.expectIdent := by
  cases h.sees with
  | shared current advance =>
    have hkind : c'.kind = c.kind := kind_congr current
    have hspan : c'.span = c.span := span_congr current
    have hname : c'.unexpectedName = c.unexpectedName := by
      rw [Cursor.unexpectedName, Cursor.unexpectedName, unexpected_congr current, hkind]
    rw [Cursor.expectIdent_eq, Cursor.expectIdent_eq, hkind, hspan, hname]
    cases c.kind with
    | ident name => exact .both ⟨rfl, advance⟩
    | _ => exact .same _
  | parted kind span kind' =>
    have hname : c.unexpectedName = p.error := by
      rw [Cursor.unexpectedName, unexpected_eq kind span, kind]
    rw [Cursor.expectIdent_eq, Cursor.expectIdent_eq, kind, kind', hname]
    exact .plain p _

theorem outcome_typeName (h : p.At c c') :
    Outcome p p.Together Never (typeName c) (typeName c') := by
  rw [typeName, typeName, h.check_eq (by simp) (by simp)]
  by_cases hc : c.kind = .intWord
  · obtain ⟨current, advance, -⟩ := h.of_kind hc (by simp)
    rw [if_pos (Cursor.check_of_kind hc), if_pos (Cursor.check_of_kind hc), span_congr current]
    exact .both ⟨rfl, advance⟩
  · rw [if_neg (Cursor.not_check_of_kind hc), if_neg (Cursor.not_check_of_kind hc)]
    exact outcome_unexpected h _ _

variable {e : Expr} {l : Level} {enclosing : Enclosing}

/-- Both readers go on in the same way behind an operand. -/
inductive Abreast (p : Parting) : Progress → Progress → Prop
  | operand {c c' : Cursor} (l : Level) (enclosing : Enclosing) (cursor : p.At c c') :
    Abreast p (.operand l enclosing c) (.operand l enclosing c')
  | complete {c c' : Cursor} (e : Expr) (cursor : p.At c c') :
    Abreast p (.complete e c) (.complete e c')

theorem outcome_afterOperand_of_closing (h : p.At c c')
    (hclosing : Outcome p p.Abreast Never (afterAssignment (l.assignment e) c enclosing)
      (afterAssignment (l.assignment e) c' enclosing)) :
    Outcome p p.Abreast Never (afterOperand e l c enclosing) (afterOperand e l c' enclosing) := by
  have hop : ∀ op : BinaryOp, c.kind = op.token → c'.kind = op.token ∧
      p.At c.advance c'.advance := by
    intro op hk
    have hne : op.token ≠ .error p.cause := by cases op <;> simp [BinaryOp.token]
    obtain ⟨current, advance, -⟩ := h.of_kind hk hne
    exact ⟨(kind_congr current).trans hk, advance⟩
  rcases c.kind.closing_cases with ⟨op, hrank, hk⟩ | ⟨op, hrank, hk⟩ | hk
  · obtain ⟨hk', hadvance⟩ := hop op hk
    rw [afterOperand_product hrank hk, afterOperand_product hrank hk']
    exact .both (.operand _ _ hadvance)
  · obtain ⟨hk', hadvance⟩ := hop op hk
    rw [afterOperand_sum hrank hk, afterOperand_sum hrank hk']
    exact .both (.operand _ _ hadvance)
  · have hk' : c'.kind.Closing := by
      cases h.sees with
      | shared current => rwa [kind_congr current]
      | parted _ _ kind' =>
        rw [kind']
        exact TokenKind.closing_semicolon
    rwa [afterOperand_of_closing hk, afterOperand_of_closing hk']

theorem outcome_afterOperand (h : p.At c c') :
    Outcome p p.Abreast Never (afterOperand e l c enclosing) (afterOperand e l c' enclosing) := by
  induction enclosing generalizing e l c c' with
  | nil => exact outcome_afterOperand_of_closing h (.both (.complete _ h))
  | cons b enclosing ih =>
    obtain ⟨bracket, outer⟩ := b
    apply outcome_afterOperand_of_closing h
    have hclose : ∀ make : Token → Expr,
        Outcome p p.Abreast Never
          (c.expect .rparen >>= fun r => afterOperand (make r.1) outer r.2 enclosing)
          (c'.expect .rparen >>= fun r => afterOperand (make r.1) outer r.2 enclosing) := by
      intro make
      apply (outcome_expect h (by simp) (by simp)).andThen
      rintro r r' - ⟨hvalue, hcursor⟩
      rw [hvalue]
      exact ih hcursor
    cases bracket with
    | group => exact hclose fun _ => l.assignment e
    | call callee calleeSpan args =>
      rw [afterAssignment, afterAssignment, h.check_eq (by simp) (by simp)]
      by_cases hc : c.kind = .comma
      · rw [if_pos (Cursor.check_of_kind hc), if_pos (Cursor.check_of_kind hc)]
        exact .both (.operand _ _ (h.advance hc (by simp)))
      · rw [if_neg (Cursor.not_check_of_kind hc), if_neg (Cursor.not_check_of_kind hc)]
        exact hclose fun close => .call callee calleeSpan (l.assignment e :: args).reverse
          (calleeSpan.merge close.span) none

theorem outcome_afterCallee {name : String} {span : Span} (h : p.At c c') :
    Outcome p p.Abreast Never (afterCallee name span l enclosing c)
      (afterCallee name span l enclosing c') := by
  rw [afterCallee, afterCallee, h.check_eq (by simp) (by simp)]
  by_cases hc : c.kind = .rparen
  · obtain ⟨current, advance, -⟩ := h.of_kind hc (by simp)
    rw [if_pos (Cursor.check_of_kind hc), if_pos (Cursor.check_of_kind hc), span_congr current]
    exact outcome_afterOperand advance
  · rw [if_neg (Cursor.not_check_of_kind hc), if_neg (Cursor.not_check_of_kind hc)]
    exact .both (.operand _ _ h)

theorem outcome_operand (h : p.At c c') :
    Outcome p p.Abreast Never (operand l enclosing c) (operand l enclosing c') := by
  by_cases hstart : c.kind.canStartExpr = true
  · rcases canStartExpr_cases hstart with ⟨name, hk⟩ | ⟨value, hk⟩ | hk
    · obtain ⟨current, advance, next⟩ := h.of_kind hk (by simp)
      have hk' : c'.kind = .ident name := (kind_congr current).trans hk
      have hinside : ∀ k, c.nextKind = k → k ≠ .eof → k ≠ .error p.cause →
          p.At c.advance.advance c'.advance.advance := by
        intro k hn heof herror
        exact advance.advance (Cursor.kind_advance hn heof (by simp [hk])).1 herror
      by_cases htarget : l.isEmpty = true ∧ c.nextKind = .equals
      · obtain ⟨hl, hn⟩ := htarget
        have hn' : c'.nextKind = .equals := (next _ (by simp) (by simp)).mpr hn
        rw [operand_name_target hk hl hn, operand_name_target hk' hl hn', span_congr current]
        exact .both (.operand _ _ (hinside _ hn (by simp) (by simp)))
      by_cases hn : c.nextKind = .lparen
      · have hn' : c'.nextKind = .lparen := (next _ (by simp) (by simp)).mpr hn
        rw [operand_name_call hk hn, operand_name_call hk' hn', span_congr current]
        exact outcome_afterCallee (hinside _ hn (by simp) (by simp))
      · have hn' : c'.nextKind ≠ .lparen := fun hn' => hn ((next _ (by simp) (by simp)).mp hn')
        have hequals' : l.isEmpty = true → c'.nextKind ≠ .equals := fun hl hn' =>
          htarget ⟨hl, (next _ (by simp) (by simp)).mp hn'⟩
        rw [operand_name hk (fun hl hn => htarget ⟨hl, hn⟩) hn, operand_name hk' hequals' hn',
          span_congr current]
        exact outcome_afterOperand advance
    · obtain ⟨current, advance, -⟩ := h.of_kind hk (by simp)
      rw [operand, operand, kind_congr current, span_congr current, hk]
      exact outcome_afterOperand advance
    · obtain ⟨current, advance, -⟩ := h.of_kind hk (by simp)
      rw [operand, operand, kind_congr current, hk]
      exact .both (.operand _ _ advance)
  · have hstart' : c'.kind.canStartExpr = false := by
      cases h.sees with
      | shared current => rwa [kind_congr current, ← Bool.not_eq_true]
      | parted _ _ kind' => rw [kind']; rfl
    rw [operand_refused (Bool.not_eq_true _ ▸ hstart), operand_refused hstart']
    exact outcome_unexpected h _ _

theorem outcome_operands (h : p.At c c') :
    Outcome p p.Together Never (operands l enclosing c) (operands l enclosing c') := by
  induction c using Cursor.before_induction generalizing l enclosing c' with
  | step c ih =>
    have hoperand : Outcome p p.Abreast Never (operand l enclosing c) (operand l enclosing c') :=
      outcome_operand h
    rw [operands, operands]
    generalize operand l enclosing c = x, operand l enclosing c' = y at hoperand
    cases hoperand with
    | same failure => exact .same failure
    | stop hhelp failure => exact .stop hhelp failure
    | beyond hnever => exact hnever.elim
    | both hprogress =>
      cases hprogress with
      | complete e cursor => exact .both ⟨rfl, cursor⟩
      | operand l enclosing cursor =>
        dsimp only
        simp only [h.before_iff cursor]
        split
        next hbefore => exact ih _ hbefore cursor
        · exact .same _

theorem outcome_expression (h : p.At c c') :
    Outcome p p.Together Never (expression c) (expression c') :=
  outcome_operands h

theorem outcome_parameter (h : p.At c c') :
    Outcome p p.Together Never (parameter c) (parameter c') := by
  apply (outcome_typeName h).andThen
  rintro ⟨type, d⟩ ⟨_, d'⟩ - ⟨rfl, hd⟩
  apply (outcome_expectIdent hd).andThen
  rintro ⟨⟨name, span⟩, d⟩ ⟨_, d'⟩ - ⟨rfl, hd⟩
  exact .both ⟨rfl, hd⟩

theorem outcome_parameters {done : List Parameter} (h : p.At c c') :
    Outcome p p.Together Never (parameters done c) (parameters done c') := by
  induction c using Cursor.before_induction generalizing done c' with
  | step c ih =>
    rw [parameters_turn, parameters_turn]
    apply (outcome_parameter h).andThen
    rintro ⟨x, d⟩ ⟨_, d'⟩ hx ⟨rfl, hd⟩
    dsimp only at hd ⊢
    rw [hd.check_eq (by simp) (by simp)]
    by_cases hk : d.kind = .comma
    · rw [if_pos (Cursor.check_of_kind hk), if_pos (Cursor.check_of_kind hk)]
      exact ih _ (before_advance_of_before (parameter_before hx)) (hd.advance hk (by simp))
    · rw [if_neg (Cursor.not_check_of_kind hk), if_neg (Cursor.not_check_of_kind hk)]
      exact .both ⟨rfl, hd⟩

theorem outcome_parameterList (h : p.At c c') :
    Outcome p p.Together Never (parameterList c) (parameterList c') := by
  rw [parameterList, parameterList, h.check_eq (by simp) (by simp)]
  split
  · exact .both ⟨rfl, h⟩
  · exact outcome_parameters h

theorem outcome_prototype (h : p.At c c') :
    Outcome p p.Together Never (prototype c) (prototype c') := by
  rw [prototype_eq, prototype_eq]
  apply (outcome_typeName h).andThen
  rintro ⟨type, d⟩ ⟨_, d'⟩ - ⟨rfl, hd⟩
  apply (outcome_expectIdent hd).andThen
  rintro ⟨⟨name, span⟩, d⟩ ⟨_, d'⟩ - ⟨rfl, hd⟩
  apply (outcome_expect hd (by simp) (by simp)).andThen
  rintro ⟨_, d⟩ ⟨_, d'⟩ - ⟨-, hd⟩
  apply (outcome_parameterList hd).andThen
  rintro ⟨params, d⟩ ⟨_, d'⟩ - ⟨rfl, hd⟩
  apply (outcome_expect hd (by simp) (by simp)).andThen
  rintro ⟨close, d⟩ ⟨_, d'⟩ - ⟨rfl, hd⟩
  exact .both ⟨rfl, hd⟩

theorem outcome_variableDeclaration (h : p.At c c') :
    Outcome p p.Together (Alone p.past fun _ => []) (variableDeclaration c)
      (variableDeclaration c') := by
  apply (outcome_typeName h).andThen
  rintro ⟨type, d⟩ ⟨_, d'⟩ - ⟨rfl, hd⟩
  apply (outcome_expectIdent hd).andThen
  rintro ⟨⟨name, span⟩, d⟩ ⟨_, d'⟩ - ⟨rfl, hd⟩
  apply (outcome_semicolon hd).bind
  · rintro ⟨close, d⟩ ⟨_, d'⟩ - ⟨rfl, hd⟩
    exact .both ⟨rfl, hd⟩
  · rintro help ⟨close, d'⟩ ⟨hhelp, hd⟩
    exact .beyond ⟨hhelp, hd⟩

theorem kind_past (p : Parting) :
    p.past.kind = if p.closesBody then .rbrace else .eof := by
  cases h : p.closesBody with
  | false =>
    have ht : p.ended[p.shared.length + 1]? = some .endMark := by simp [ended, tail, h]
    rw [past, Cursor.kind, Cursor.current_ofTokens ht]
    rfl
  | true =>
    have ht : p.ended[p.shared.length + 1]? = some ⟨.rbrace, .dummy⟩ := by simp [ended, tail, h]
    rw [past, Cursor.kind, Cursor.current_ofTokens ht]
    rfl

theorem kind_past_advance (h : p.closesBody = true) : p.past.advance.kind = .eof := by
  have hk : p.past.kind ≠ .eof := by simp [kind_past, h]
  have ht : p.ended[p.shared.length + 1 + 1]? = some .endMark := by
    have hindex : p.shared.length + 1 + 1 - p.shared.length = 2 := by omega
    rw [ended, tail, if_pos h, List.getElem?_append_right (by omega), hindex]
    rfl
  rw [Cursor.advance_eq_moveTo hk, past, Cursor.moveTo_moveTo, Cursor.position_moveTo, Cursor.kind,
    Cursor.current_ofTokens ht]
  rfl

theorem outcome_variableDeclarations {done : List VariableDeclaration} (h : p.At c c') :
    Outcome p p.Together (Alone p.past fun _ => []) (variableDeclarations done c)
      (variableDeclarations done c') := by
  induction c using Cursor.before_induction generalizing done c' with
  | step c ih =>
    rw [variableDeclarations_turn, variableDeclarations_turn, h.check_eq (by simp) (by simp)]
    split
    · apply (outcome_variableDeclaration h).bind
      · rintro ⟨v, d⟩ ⟨_, d'⟩ hv ⟨rfl, hd⟩
        exact ih _ (variableDeclaration_before hv) hd
      · rintro help ⟨v, d'⟩ ⟨hhelp, rfl⟩
        have hk : p.past.kind ≠ .intWord := by
          rw [kind_past]
          split <;> simp
        dsimp only
        rw [variableDeclarations_turn, if_neg (Cursor.not_check_of_kind hk)]
        exact .beyond ⟨hhelp, rfl⟩
    · exact .both ⟨rfl, h⟩

/-- The semicolon behind an expression that is a statement. -/
theorem outcome_terminator (h : p.At c c') (value : Expr) :
    Outcome p p.Together (Alone p.past fun _ => [missingSemicolon value])
      ((c.expect .semicolon).mapError (·.addHelp (missingSemicolon value)))
      ((c'.expect .semicolon).mapError (·.addHelp (missingSemicolon value))) := by
  cases h.sees with
  | shared current advance =>
    by_cases hk : c.kind = .semicolon
    · rw [Cursor.expect_eq, Cursor.expect_eq, if_pos (Cursor.check_of_kind hk),
        if_pos (Cursor.check_of_kind ((kind_congr current).trans hk))]
      exact .both ⟨current, advance⟩
    · have hk' : c'.kind ≠ .semicolon := by rwa [kind_congr current]
      rw [Cursor.expect_eq, Cursor.expect_eq, if_neg (Cursor.not_check_of_kind hk),
        if_neg (Cursor.not_check_of_kind hk'), unexpected_congr current]
      exact .same _
  | parted kind span kind' advance =>
    rw [Cursor.expect_eq, Cursor.expect_eq, if_neg (Cursor.not_check_of_kind (by simp [kind])),
      if_pos (Cursor.check_of_kind kind'), unexpected_eq kind span]
    exact .beyond ⟨rfl, advance⟩

theorem outcome_statement (h : p.At c c') :
    Outcome p p.Together (Alone p.past Stmt.unfinished) (statement c) (statement c') := by
  by_cases hk : c.kind = .returnWord
  · obtain ⟨current, advance, -⟩ := h.of_kind hk (by simp)
    rw [statement_of_return hk, statement_of_return ((kind_congr current).trans hk),
      span_congr current]
    apply (outcome_expression advance).andThen
    rintro ⟨value, d⟩ ⟨_, d'⟩ - ⟨rfl, hd⟩
    apply (outcome_semicolon hd).bind
    · rintro ⟨close, d⟩ ⟨_, d'⟩ - ⟨rfl, hd⟩
      exact .both ⟨rfl, hd⟩
    · rintro help ⟨close, d'⟩ ⟨hhelp, hd⟩
      exact .beyond ⟨hhelp, hd⟩
  · have hk' : c'.kind ≠ .returnWord := by rwa [Ne, h.kind_eq_iff (by simp) (by simp)]
    rw [statement_of_expression hk, statement_of_expression hk']
    apply (outcome_expression h).andThen
    rintro ⟨_, d⟩ ⟨value, d'⟩ - ⟨rfl, hd⟩
    apply (outcome_terminator hd value).bind
    · rintro ⟨close, d⟩ ⟨_, d'⟩ - ⟨-, hd⟩
      exact .both ⟨rfl, hd⟩
    · rintro help ⟨close, d'⟩ ⟨hhelp, hd⟩
      exact .beyond ⟨hhelp, hd⟩

theorem exists_statements_error (done : List Stmt) (h : c.kind = .eof) :
    ∃ failure, statements done c = .error failure := by
  have hoperand : operand .empty [] c
      = .error (.refused (c.unexpected .expectedExpression "expression")) :=
    operand_refused (by rw [h]; rfl)
  have hexpression : expression c
      = .error (.refused (c.unexpected .expectedExpression "expression")) := by
    rw [expression, operands, hoperand]
  refine ⟨.refused (c.unexpected .expectedExpression "expression"), ?_⟩
  rw [statements_turn, if_neg (Cursor.not_check_of_kind (by simp [h])),
    statement_of_expression (by simp [h]), hexpression]
  rfl

theorem outcome_statements {done : List Stmt} (h : p.At c c') :
    Outcome p p.Together
      (fun help r' => p.closesBody = true ∧
        Alone p.past (fun ss : List Stmt => (ss.getLast?.map (·.unfinished)).getD []) help r')
      (statements done c) (statements done c') := by
  induction c using Cursor.before_induction generalizing done c' with
  | step c ih =>
    rw [statements_turn, statements_turn, h.check_eq (by simp) (by simp)]
    split
    · exact .both ⟨rfl, h⟩
    · apply (outcome_statement h).bind
      · rintro ⟨s, d⟩ ⟨_, d'⟩ hs ⟨rfl, hd⟩
        exact ih _ (statement_before hs) hd
      · rintro help ⟨s, d'⟩ ⟨rfl, rfl⟩
        dsimp only
        rw [statements_turn]
        by_cases hclose : p.closesBody = true
        · rw [if_pos (Cursor.check_of_kind (by simp [kind_past, hclose]))]
          exact .beyond ⟨hclose, by simp, rfl⟩
        · obtain ⟨failure, hfailure⟩ := exists_statements_error (s :: done)
            (c := p.past) (by simp [kind_past, hclose])
          rw [← statements_turn, hfailure]
          refine .stop (Or.inr ?_) failure
          rw [Hidden, if_neg hclose]
          exact ⟨s, rfl⟩

theorem outcome_body (h : p.At c c') :
    Outcome p p.Together
      (fun help r' => p.closesBody = true ∧ Alone p.past.advance FunctionBody.unfinished help r')
      (body c) (body c') := by
  apply (outcome_expect h (by simp) (by simp)).andThen
  rintro ⟨opening, d⟩ ⟨_, d'⟩ - ⟨rfl, hd⟩
  apply (outcome_variableDeclarations hd).bind
  · rintro ⟨locals, d⟩ ⟨_, d'⟩ - ⟨rfl, hd⟩
    apply (outcome_statements hd).bind
    · rintro ⟨ss, d⟩ ⟨_, d'⟩ - ⟨rfl, hd⟩
      apply (outcome_expect hd (by simp) (by simp)).andThen
      rintro ⟨close, d⟩ ⟨_, d'⟩ - ⟨rfl, hd⟩
      exact .both ⟨rfl, hd⟩
    · rintro help ⟨ss, d'⟩ ⟨hclose, rfl, rfl⟩
      dsimp only
      rw [Cursor.expect_eq, if_pos (Cursor.check_of_kind (by simp [kind_past, hclose]))]
      exact .beyond ⟨hclose, rfl, rfl⟩
  · rintro help ⟨locals, d'⟩ ⟨rfl, rfl⟩
    dsimp only
    by_cases hclose : p.closesBody = true
    · have hcheck : p.past.check .rbrace = true :=
        Cursor.check_of_kind (by simp [kind_past, hclose])
      rw [statements_turn, if_pos hcheck, ok_bind, Cursor.expect_eq, if_pos hcheck]
      exact .beyond ⟨hclose, rfl, rfl⟩
    · obtain ⟨failure, hfailure⟩ := exists_statements_error [] (c := p.past)
        (by simp [kind_past, hclose])
      rw [hfailure]
      exact .stop (Or.inl rfl) failure

/-- The item that was read last: a declaration up to its semicolon, or a definition up to the brace
that closes its body. -/
inductive LastItem (p : Parting) : List String → Item × Cursor → Prop
  | declaration (d : FunctionDeclaration) :
    LastItem p [Prototype.unfinished] (.declaration d, p.past)
  | definition (d : FunctionDefinition) (closes : p.closesBody = true) :
    LastItem p d.body.unfinished (.definition d, p.past.advance)

theorem outcome_afterPrototype {proto : Prototype} (h : p.At c c') :
    Outcome p p.Together p.LastItem (afterPrototype proto c) (afterPrototype proto c') := by
  cases h.sees with
  | shared current advance =>
    have hkind : c'.kind = c.kind := kind_congr current
    rw [afterPrototype, afterPrototype, hkind, span_congr current, unexpected_congr current]
    cases c.kind with
    | semicolon => exact .both ⟨rfl, advance⟩
    | lbrace =>
      apply (outcome_body h).bind
      · rintro ⟨b, d⟩ ⟨_, d'⟩ - ⟨rfl, hd⟩
        exact .both ⟨rfl, hd⟩
      · rintro help ⟨b, d'⟩ ⟨hclose, rfl, rfl⟩
        exact .beyond (.definition
          { prototype := proto, body := b, span := proto.span.merge b.span } hclose)
    | _ => exact .same _
  | parted kind span kind' advance =>
    rw [afterPrototype, afterPrototype, kind, kind', unexpected_eq kind span, advance]
    exact .beyond (.declaration _)

theorem outcome_item (h : p.At c c') :
    Outcome p p.Together p.LastItem (item c) (item c') := by
  rw [item_eq, item_eq]
  apply (outcome_prototype h).andThen
  rintro ⟨proto, d⟩ ⟨_, d'⟩ - ⟨rfl, hd⟩
  exact outcome_afterPrototype hd

/-- Only at its type does an item begin. -/
theorem exists_item_error (h : c.kind ≠ .intWord) : ∃ failure, item c = .error failure := by
  have htype : typeName c = .error (.refused (c.unexpected .expectedType "type `int`")) :=
    if_neg (Cursor.not_check_of_kind h)
  refine ⟨.refused (c.unexpected .expectedType "type `int`"), ?_⟩
  rw [item_eq, prototype_eq, htype]
  rfl

/-- The unit that the other list makes: it ends with a declaration, or with a definition whose body
is closed. -/
def LastOf (p : Parting) (help : List String) (u : SourceUnit) : Prop :=
  if p.closesBody then ∃ d, u.definitions.getLast? = some d ∧ help = d.body.unfinished
  else help = [Prototype.unfinished]

theorem outcome_items {declarations : List FunctionDeclaration}
    {definitions : List FunctionDefinition} (h : p.At c c') :
    Outcome p Eq p.LastOf (items declarations definitions c)
      (items declarations definitions c') := by
  induction c using Cursor.before_induction generalizing declarations definitions c' with
  | step c ih =>
    rw [items_turn, items_turn, h.atEnd_eq]
    split
    · exact .both rfl
    · apply (outcome_item h).bind
      · rintro ⟨_, d⟩ ⟨i, d'⟩ hi ⟨rfl, hd⟩
        cases i with
        | declaration f => exact ih _ (item_before hi) hd
        | definition f => exact ih _ (item_before hi) hd
      · rintro help ⟨i, d'⟩ hlast
        cases hlast with
        | declaration f =>
          change Outcome p Eq p.LastOf _ (items (f :: declarations) definitions p.past)
          rw [items_turn]
          by_cases hclose : p.closesBody = true
          · have hend : ¬p.past.atEnd = true :=
              Cursor.not_check_of_kind (by simp [kind_past, hclose])
            obtain ⟨failure, hfailure⟩ := exists_item_error (c := p.past)
              (by simp [kind_past, hclose])
            rw [if_neg hend, hfailure]
            refine .stop (Or.inr ?_) failure
            rw [Hidden, if_pos hclose]
          · have hend : p.past.atEnd = true := Cursor.check_of_kind (by simp [kind_past, hclose])
            rw [if_pos hend]
            refine .beyond ?_
            rw [LastOf, if_neg hclose]
        | definition f hclose =>
          change Outcome p Eq p.LastOf _ (items declarations (f :: definitions) p.past.advance)
          have hend : p.past.advance.atEnd = true :=
            Cursor.check_of_kind (kind_past_advance hclose)
          rw [items_turn, if_pos hend]
          refine .beyond ?_
          rw [LastOf, if_pos hclose]
          exact ⟨f, by simp, rfl⟩

end Parting

end MiniC
