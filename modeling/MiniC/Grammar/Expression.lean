import MiniC.Grammar.Cursor
import MiniC.Tree.Basic

/-! # Reading expressions

    assignment     = IDENT "=" additive | additive
    additive       = multiplicative { ("+" | "-") multiplicative }
    multiplicative = operand { ("*" | "/") operand }
    operand        = IDENT "(" [ assignment { "," assignment } ] ")" | IDENT | NUMBER
                   | "(" assignment ")"

Both kinds of operators bind to the left, and the right side of an assignment is no assignment.
An expression is read operand by operand. A `Level` holds what stands before the operand in the
same assignment; below it lies one more level for every bracket that is still open. Brackets can
be nested very deeply, so the levels are a list and not calls within calls.
-/

namespace MiniC

/-- The part of one assignment that stands before the operand to come. -/
structure Level where
  /-- The name before `=`. -/
  target : Option (String × Span) := none
  /-- A left operand and its `+` or `-`. -/
  sum : Option (Expr × BinaryOp) := none
  /-- A left operand and its `*` or `/`. -/
  product : Option (Expr × BinaryOp) := none
  deriving DecidableEq, Repr

namespace Level

def empty : Level := {}

def isEmpty (l : Level) : Bool := l.target.isNone && l.sum.isNone && l.product.isNone

def joinOperand (left : Option (Expr × BinaryOp)) (e : Expr) : Expr :=
  match left with
  | some (lhs, op) => .ofOperands op lhs e
  | none => e

def multiplicative (l : Level) (e : Expr) : Expr := joinOperand l.product e

def additive (l : Level) (e : Expr) : Expr := joinOperand l.sum (l.multiplicative e)

def assignment (l : Level) (e : Expr) : Expr :=
  match l.target with
  | some (name, span) => .ofOperands .assign (.identifier name span none) (l.additive e)
  | none => l.additive e

end Level

/-- A bracket that is still open. -/
inductive Bracket
  | group
  /-- The brackets of a call, with the arguments read so far, held last first. -/
  | call (callee : String) (calleeSpan : Span) (args : List Expr)
  deriving DecidableEq, Repr

/-- The open brackets, the innermost first, each with the level around it. -/
abbrev Enclosing := List (Bracket × Level)

/-- What reading an operand leads to. -/
inductive Progress
  /-- One more operand is due. -/
  | operand (level : Level) (enclosing : Enclosing) (c : Cursor)
  /-- The expression is complete. -/
  | complete (e : Expr) (c : Cursor)

namespace Grammar

/-- Go on behind the operand `e`: with an operator, a comma or the end of brackets. -/
def afterOperand (e : Expr) (level : Level) (c : Cursor) : Enclosing → Except Failure Progress :=
  fun enclosing =>
    match c.kind with
    | .star =>
      .ok (.operand { level with product := some (level.multiplicative e, .mul) }
        enclosing c.advance)
    | .slash =>
      .ok (.operand { level with product := some (level.multiplicative e, .div) }
        enclosing c.advance)
    | .plus =>
      .ok (.operand { target := level.target, sum := some (level.additive e, .add) } enclosing
        c.advance)
    | .minus =>
      .ok (.operand { target := level.target, sum := some (level.additive e, .sub) } enclosing
        c.advance)
    | _ =>
      match enclosing with
      | [] => .ok (.complete (level.assignment e) c)
      | (.group, outer) :: enclosing => do
        let (_, c) ← c.expect .rparen
        afterOperand (level.assignment e) outer c enclosing
      | (.call callee calleeSpan args, outer) :: enclosing =>
        let args := level.assignment e :: args
        if c.check .comma then
          .ok (.operand .empty ((.call callee calleeSpan args, outer) :: enclosing) c.advance)
        else do
          let (close, c) ← c.expect .rparen
          afterOperand
            (.call callee calleeSpan args.reverse (calleeSpan.merge close.span) none)
            outer c enclosing

/-- Read one operand, or as much as stands before the next one. -/
def operand (level : Level) (enclosing : Enclosing) (c : Cursor) : Except Failure Progress :=
  match c.kind with
  | .ident name =>
    if level.isEmpty && c.nextKind = .equals then
      .ok (.operand { target := some (name, c.span) } enclosing c.advance.advance)
    else if c.nextKind = .lparen then
      let inside := c.advance.advance
      if inside.check .rparen then
        afterOperand (.call name c.span [] (c.span.merge inside.span) none) level inside.advance
          enclosing
      else .ok (.operand .empty ((.call name c.span [], level) :: enclosing) inside)
    else afterOperand (.identifier name c.span none) level c.advance enclosing
  | .number value => afterOperand (.number value c.span) level c.advance enclosing
  | .lparen => .ok (.operand .empty ((.group, level) :: enclosing) c.advance)
  | _ => .error (.refused (c.unexpected .expectedExpression "expression"))

/-- Read operands until the expression is complete. -/
def operands (level : Level) (enclosing : Enclosing) (c : Cursor) :
    Except Failure (Expr × Cursor) :=
  match operand level enclosing c with
  | .error failure => .error failure
  | .ok (.complete e c') => .ok (e, c')
  | .ok (.operand level' enclosing' c') =>
    if c.Before c' then operands level' enclosing' c' else .error .endless
termination_by c.remaining

def expression (c : Cursor) : Except Failure (Expr × Cursor) := operands .empty [] c

end Grammar

end MiniC
