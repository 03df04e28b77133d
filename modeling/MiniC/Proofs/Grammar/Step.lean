import MiniC.Grammar.Program
import MiniC.Proofs.Grammar.Cursor
import MiniC.Proofs.Grammar.Derivation

/-! # Steps of the readers

Behind an operand stands an arithmetic operator, or else a token that closes the assignment. The
lemmas here say what is read next in each case. A prototype is cut at its parameter list.
-/

namespace MiniC

open Grammar

/-- No arithmetic operator: what stands before such a kind is a whole assignment. -/
def TokenKind.Closing (k : TokenKind) : Prop :=
  ∀ op : BinaryOp, op.rank ≠ .assignment → k ≠ op.token

namespace TokenKind

theorem closing_cases (k : TokenKind) :
    (∃ op : BinaryOp, op.rank = .multiplicative ∧ k = op.token) ∨
      (∃ op : BinaryOp, op.rank = .additive ∧ k = op.token) ∨ k.Closing := by
  by_cases h : k.Closing
  · exact Or.inr (Or.inr h)
  · simp only [Closing, Classical.not_forall] at h
    obtain ⟨op, hop, hk⟩ := h
    have hk : k = op.token := Decidable.not_not.mp hk
    cases op with
    | assign => exact absurd rfl hop
    | add => exact Or.inr (Or.inl ⟨.add, rfl, hk⟩)
    | sub => exact Or.inr (Or.inl ⟨.sub, rfl, hk⟩)
    | mul => exact Or.inl ⟨.mul, rfl, hk⟩
    | div => exact Or.inl ⟨.div, rfl, hk⟩

theorem closing_rparen : Closing .rparen := by intro op _; cases op <;> simp [BinaryOp.token]

theorem closing_comma : Closing .comma := by intro op _; cases op <;> simp [BinaryOp.token]

theorem closing_semicolon : Closing .semicolon := by
  intro op _; cases op <;> simp [BinaryOp.token]

end TokenKind

theorem BinaryOp.token_ne_eof (op : BinaryOp) : op.token ≠ .eof := by
  cases op <;> simp [BinaryOp.token]

namespace Level

variable {l : Level} {e lhs : Expr} {op : BinaryOp} {name : String} {span : Span}

theorem multiplicative_of_none (h : l.product = none) : l.multiplicative e = e := by
  rw [multiplicative, h, joinOperand]

theorem multiplicative_of_some (h : l.product = some (lhs, op)) :
    l.multiplicative e = .ofOperands op lhs e := by
  rw [multiplicative, h, joinOperand]

theorem additive_of_none (h : l.sum = none) : l.additive e = l.multiplicative e := by
  rw [additive, h, joinOperand]

theorem additive_of_some (h : l.sum = some (lhs, op)) :
    l.additive e = .ofOperands op lhs (l.multiplicative e) := by
  rw [additive, h, joinOperand]

theorem assignment_of_none (h : l.target = none) : l.assignment e = l.additive e := by
  rw [assignment, h]

theorem assignment_of_some (h : l.target = some (name, span)) :
    l.assignment e = .ofOperands .assign (.identifier name span none) (l.additive e) := by
  rw [assignment, h]

end Level

namespace Bracket

def closed (e : Expr) (close : Span) : Bracket → Expr
  | group => e
  | call callee calleeSpan args =>
    .call callee calleeSpan (e :: args).reverse (calleeSpan.merge close) none

/-- A comma goes on with the arguments of a call; any other bracket ends there. -/
theorem ends_or_goesOn (bracket : Bracket) (k : TokenKind) :
    (k = .comma → bracket = group) ∨
      k = .comma ∧ ∃ callee calleeSpan args, bracket = call callee calleeSpan args := by
  cases bracket with
  | group => exact Or.inl fun _ => rfl
  | call callee calleeSpan args =>
    by_cases hk : k = .comma
    · exact Or.inr ⟨hk, callee, calleeSpan, args, rfl⟩
    · exact Or.inl fun h => absurd h hk

end Bracket

namespace Grammar

variable {e : Expr} {l outer : Level} {c : Cursor} {op : BinaryOp} {bracket : Bracket}
  {enclosing : Enclosing}

theorem afterOperand_product (hop : op.rank = .multiplicative) (h : c.kind = op.token) :
    afterOperand e l c enclosing
      = .ok (.operand { l with product := some (l.multiplicative e, op) } enclosing c.advance) := by
  unfold afterOperand
  rw [h]
  cases op <;> first | rfl | cases hop

theorem afterOperand_sum (hop : op.rank = .additive) (h : c.kind = op.token) :
    afterOperand e l c enclosing
      = .ok (.operand { target := l.target, sum := some (l.additive e, op) } enclosing
          c.advance) := by
  unfold afterOperand
  rw [h]
  cases op <;> first | rfl | cases hop

/-- Go on behind the assignment `e`: with a comma or the end of brackets. -/
def afterAssignment (e : Expr) (c : Cursor) : Enclosing → Except Failure Progress
  | [] => .ok (.complete e c)
  | (.group, outer) :: enclosing =>
    c.expect .rparen >>= fun r => afterOperand e outer r.2 enclosing
  | (.call callee calleeSpan args, outer) :: enclosing =>
    if c.check .comma then
      .ok (.operand .empty ((.call callee calleeSpan (e :: args), outer) :: enclosing) c.advance)
    else c.expect .rparen >>= fun r =>
      afterOperand (.call callee calleeSpan (e :: args).reverse (calleeSpan.merge r.1.span) none)
        outer r.2 enclosing

theorem afterAssignment_of_end (h : c.kind = .comma → bracket = .group) :
    afterAssignment e c ((bracket, outer) :: enclosing) = c.expect .rparen >>= fun r =>
      afterOperand (bracket.closed e r.1.span) outer r.2 enclosing := by
  cases bracket with
  | group => rfl
  | call callee calleeSpan args =>
    refine if_neg ?_
    rw [Cursor.check, decide_eq_true_eq]
    intro hc
    cases h hc

theorem afterAssignment_comma {callee : String} {calleeSpan : Span} {args : List Expr}
    (h : c.kind = .comma) :
    afterAssignment e c ((.call callee calleeSpan args, outer) :: enclosing)
      = .ok (.operand .empty ((.call callee calleeSpan (e :: args), outer) :: enclosing)
          c.advance) :=
  if_pos (decide_eq_true h)

theorem afterOperand_of_closing (h : c.kind.Closing) :
    afterOperand e l c enclosing = afterAssignment (l.assignment e) c enclosing := by
  unfold afterOperand
  split
  next hk => exact absurd hk (h .mul (by simp [BinaryOp.rank]))
  next hk => exact absurd hk (h .div (by simp [BinaryOp.rank]))
  next hk => exact absurd hk (h .add (by simp [BinaryOp.rank]))
  next hk => exact absurd hk (h .sub (by simp [BinaryOp.rank]))
  · rcases enclosing with _ | ⟨⟨bracket, outer⟩, enclosing⟩
    · rfl
    · cases bracket <;> rfl

/-- What reading an operand leads to, by the tokens it starts with. -/
inductive OperandStep (l : Level) (enclosing : Enclosing) (c : Cursor) : Progress → Prop
  | target (name : String) (hname : c.kind = .ident name) (hl : l.isEmpty)
      (hnext : c.nextKind = .equals) :
      OperandStep l enclosing c
        (.operand { target := some (name, c.span) } enclosing c.advance.advance)
  | call {p : Progress} (name : String) (hname : c.kind = .ident name)
      (hnext : c.nextKind = .lparen) (hclose : c.advance.advance.check .rparen)
      (h : afterOperand (.call name c.span [] (c.span.merge c.advance.advance.span) none) l
        c.advance.advance.advance enclosing = .ok p) : OperandStep l enclosing c p
  | arguments (name : String) (hname : c.kind = .ident name) (hnext : c.nextKind = .lparen) :
      OperandStep l enclosing c
        (.operand .empty ((.call name c.span [], l) :: enclosing) c.advance.advance)
  | identifier {p : Progress} (name : String) (hname : c.kind = .ident name)
      (h : afterOperand (.identifier name c.span none) l c.advance enclosing = .ok p) :
      OperandStep l enclosing c p
  | number {p : Progress} (value : Int32) (hvalue : c.kind = .number value)
      (h : afterOperand (.number value c.span) l c.advance enclosing = .ok p) :
      OperandStep l enclosing c p
  | group (hparen : c.kind = .lparen) :
      OperandStep l enclosing c (.operand .empty ((.group, l) :: enclosing) c.advance)

theorem operand_step {p : Progress} (h : operand l enclosing c = .ok p) :
    OperandStep l enclosing c p := by
  unfold operand at h
  cases hk : c.kind with
  | ident name =>
    simp only [hk] at h
    split at h
    next hassign =>
      simp only [Bool.and_eq_true, decide_eq_true_eq] at hassign
      cases h
      exact .target name hk hassign.1 hassign.2
    · split at h
      next hnext =>
        split at h
        next hclose => exact .call name hk hnext hclose h
        · cases h
          exact .arguments name hk hnext
      · exact .identifier name hk h
  | number value =>
    simp only [hk] at h
    exact .number value hk h
  | lparen =>
    simp only [hk] at h
    cases h
    exact .group hk
  | _ =>
    simp only [hk] at h
    cases h

def parameterList (c : Cursor) : Except Failure (List Parameter × Cursor) :=
  if c.check .rparen then .ok ([], c) else parameters [] c

theorem prototype_eq (c : Cursor) : prototype c =
    (typeName c >>= fun (returnType, c) => c.expectIdent >>= fun ((name, nameSpan), c) =>
      c.expect .lparen >>= fun (_, c) => parameterList c >>= fun (params, c) =>
        c.expect .rparen >>= fun (close, c) =>
          .ok ({ returnType, name, nameSpan, params, span := returnType.span.merge close.span },
            c)) := by
  unfold prototype parameterList
  refine bind_congr fun ⟨type, c⟩ => ?_
  refine bind_congr fun ⟨⟨name, span⟩, c⟩ => ?_
  refine bind_congr fun ⟨t, c⟩ => ?_
  dsimp only
  split <;> rfl

end Grammar

end MiniC
