import MiniC.Tree.Basic

/-! # The walk over a program

A visitor carries a state through a program. At a node with children it is told to enter the node,
to visit it, and, after all children, to exit it; at a leaf it is told to visit it. Behind the
visit it may bind the node: it then answers with the node that takes its place, and the walk goes on
below that one. All declarations come before all definitions, a prototype before the body, local
variables before statements, left operands before right ones, and arguments in their order.

Expressions can be very deep, so `Visitor.runExpr` walks them with a stack of its own;
`Visitor.runExpr_eq` says that it does what the recursive `Visitor.walkExpr` does.
-/

namespace MiniC

mutual

def Expr.size : Expr → Nat
  | .identifier _ _ _ | .number _ _ | .parameter _ => 1
  | .binary _ lhs rhs _ => lhs.size + rhs.size + 1
  | .call _ _ args _ _ => Expr.sizeAll args + 1

def Expr.sizeAll : List Expr → Nat
  | [] => 0
  | e :: es => e.size + Expr.sizeAll es

end

theorem Expr.size_pos (e : Expr) : 0 < e.size := by cases e <;> simp [size]

/-- A node, as a visitor meets it. -/
inductive Node
  | program (p : Program)
  | unit (u : SourceUnit)
  | declaration (d : FunctionDeclaration)
  | definition (d : FunctionDefinition)
  | prototype (p : Prototype)
  | body (b : FunctionBody)
  | ret (value : Expr) (span : Span)
  | decl (d : VariableDeclaration)
  | parameter (p : Parameter)
  | expr (e : Expr)
  deriving DecidableEq, Repr

structure Identifier where
  name : String
  span : Span
  symbol : Option VarId

def Identifier.toExpr (x : Identifier) : Expr := .identifier x.name x.span x.symbol

structure FunctionCall where
  callee : String
  calleeSpan : Span
  args : List Expr
  span : Span
  symbol : Option FuncId

namespace FunctionCall

def toExpr (c : FunctionCall) : Expr := .call c.callee c.calleeSpan c.args c.span c.symbol

def arity (c : FunctionCall) : Nat := c.args.length

end FunctionCall

structure Visitor (σ : Type) where
  enter : Node → σ → σ := fun _ s => s
  visit : Node → σ → σ := fun _ s => s
  exit : Node → σ → σ := fun _ s => s
  bindUnit : SourceUnit → σ → SourceUnit × σ := Prod.mk
  bindDeclaration : FunctionDeclaration → σ → FunctionDeclaration × σ := Prod.mk
  bindDefinition : FunctionDefinition → σ → FunctionDefinition × σ := Prod.mk
  bindVariable : VariableDeclaration → σ → VariableDeclaration × σ := Prod.mk
  bindIdentifier : Identifier → σ → Identifier × σ := Prod.mk
  bindCall : FunctionCall → σ → FunctionCall × σ := Prod.mk
  /-- The walk goes on with the arguments of the answer; it ends because these do not grow. -/
  bindCall_size : ∀ c s, Expr.sizeAll (bindCall c s).1.args ≤ Expr.sizeAll c.args := by
    exact fun _ _ => Nat.le_refl _

namespace Visitor

variable {σ α : Type}

/-- Walk a list behind the elements already `done`, held last first. -/
def walkListFrom (f : α → σ → α × σ) (done : List α) : List α → σ → List α × σ
  | [], s => (done.reverse, s)
  | a :: as, s => let r := f a s; walkListFrom f (r.1 :: done) as r.2

def walkList (f : α → σ → α × σ) (as : List α) (s : σ) : List α × σ := walkListFrom f [] as s

theorem walkListFrom_eq (f : α → σ → α × σ) (done as : List α) (s : σ) :
    walkListFrom f done as s = (done.reverse ++ (walkList f as s).1, (walkList f as s).2) := by
  unfold walkList
  suffices h : ∀ (mid : List α), walkListFrom f (mid ++ done) as s
      = (done.reverse ++ (walkListFrom f mid as s).1, (walkListFrom f mid as s).2) from h []
  induction as generalizing s with
  | nil => simp [walkListFrom]
  | cons a as ih =>
    intro mid
    exact ih (f a s).2 ((f a s).1 :: mid)

@[simp] theorem walkList_nil (f : α → σ → α × σ) (s : σ) : walkList f [] s = ([], s) := rfl

@[simp] theorem walkList_cons (f : α → σ → α × σ) (a : α) (as : List α) (s : σ) :
    walkList f (a :: as) s
      = ((f a s).1 :: (walkList f as (f a s).2).1, (walkList f as (f a s).2).2) := by
  change walkListFrom f [(f a s).1] as (f a s).2 = _
  simp [walkListFrom_eq]

def walkIdentifier (v : Visitor σ) (x : Identifier) (s : σ) : Expr × σ :=
  let r := v.bindIdentifier x (v.visit (.expr x.toExpr) s)
  (r.1.toExpr, r.2)

/-- Enter and visit an expression with operands. -/
def openExpr (v : Visitor σ) (e : Expr) (s : σ) : σ := v.visit (.expr e) (v.enter (.expr e) s)

def closeExpr (v : Visitor σ) (e : Expr) (s : σ) : Expr × σ := (e, v.exit (.expr e) s)

def openCall (v : Visitor σ) (c : FunctionCall) (s : σ) : FunctionCall × σ :=
  v.bindCall c (v.openExpr c.toExpr s)

theorem openCall_size (v : Visitor σ) (c : FunctionCall) (s : σ) :
    Expr.sizeAll (v.openCall c s).1.args ≤ Expr.sizeAll c.args :=
  v.bindCall_size c _

mutual

def walkExpr (v : Visitor σ) : Expr → σ → Expr × σ
  | .identifier name span symbol, s => v.walkIdentifier ⟨name, span, symbol⟩ s
  | .number value span, s => (.number value span, v.visit (.expr (.number value span)) s)
  | .parameter p, s => (.parameter p, v.visit (.parameter p) s)
  | .binary op lhs rhs span, s =>
    let l := v.walkExpr lhs (v.openExpr (.binary op lhs rhs span) s)
    let r := v.walkExpr rhs l.2
    v.closeExpr (.binary op l.1 r.1 span) r.2
  | .call callee calleeSpan args span symbol, s =>
    let c := v.openCall ⟨callee, calleeSpan, args, span, symbol⟩ s
    let r := v.walkArgs c.1.args c.2
    v.closeExpr { c.1 with args := r.1 }.toExpr r.2
termination_by e => 2 * e.size
decreasing_by
  · simp only [Expr.size]
    omega
  · simp only [Expr.size]
    omega
  · have hsize := v.openCall_size ⟨callee, calleeSpan, args, span, symbol⟩ s
    dsimp only at hsize
    simp only [Expr.size]
    omega

def walkArgs (v : Visitor σ) : List Expr → σ → List Expr × σ
  | [], s => ([], s)
  | e :: es, s =>
    let r := v.walkExpr e s
    let rs := v.walkArgs es r.2
    (r.1 :: rs.1, rs.2)
termination_by es => 2 * Expr.sizeAll es + 1
decreasing_by
  · simp only [Expr.sizeAll]
    omega
  · have := e.size_pos
    simp only [Expr.sizeAll]
    omega

end

/-- Where a walk stands: before an expression, or behind one that is finished. -/
inductive Focus
  | before (e : Expr)
  | behind (e : Expr)

/-- An expression around the focus, of which one operand is being walked. -/
inductive Frame
  | lhs (op : BinaryOp) (rhs : Expr) (span : Span)
  | rhs (op : BinaryOp) (lhs : Expr) (span : Span)
  | arg (call : FunctionCall) (done todo : List Expr)

def Focus.weight : Focus → Nat
  | before e => 2 * e.size
  | behind _ => 1

def Frame.weight : Frame → Nat
  | .lhs _ next _ => 2 * next.size + 1
  | .rhs _ _ _ => 1
  | .arg _ _ todo => 2 * Expr.sizeAll todo + 1

def Frame.weights : List Frame → Nat
  | [] => 0
  | frame :: stack => frame.weight + weights stack

def run (v : Visitor σ) : Focus → List Frame → σ → Expr × σ
  | .before (.identifier name span symbol), stack, s =>
    let r := v.walkIdentifier ⟨name, span, symbol⟩ s
    v.run (.behind r.1) stack r.2
  | .before (.number value span), stack, s =>
    v.run (.behind (.number value span)) stack (v.visit (.expr (.number value span)) s)
  | .before (.parameter p), stack, s =>
    v.run (.behind (.parameter p)) stack (v.visit (.parameter p) s)
  | .before (.binary op lhs rhs span), stack, s =>
    v.run (.before lhs) (.lhs op rhs span :: stack) (v.openExpr (.binary op lhs rhs span) s)
  | .before (.call callee calleeSpan args span symbol), stack, s =>
    let c := v.openCall ⟨callee, calleeSpan, args, span, symbol⟩ s
    match _ : c.1.args with
    | [] =>
      let r := v.closeExpr { c.1 with args := [] }.toExpr c.2
      v.run (.behind r.1) stack r.2
    | arg :: todo => v.run (.before arg) (.arg c.1 [] todo :: stack) c.2
  | .behind e, [], s => (e, s)
  | .behind e, .lhs op rhs span :: stack, s => v.run (.before rhs) (.rhs op e span :: stack) s
  | .behind e, .rhs op lhs span :: stack, s =>
    let r := v.closeExpr (.binary op lhs e span) s
    v.run (.behind r.1) stack r.2
  | .behind e, .arg call done [] :: stack, s =>
    let r := v.closeExpr { call with args := (e :: done).reverse }.toExpr s
    v.run (.behind r.1) stack r.2
  | .behind e, .arg call done (arg :: todo) :: stack, s =>
    v.run (.before arg) (.arg call (e :: done) todo :: stack) s
termination_by focus stack _ => focus.weight + Frame.weights stack
decreasing_by
  all_goals simp only [Focus.weight, Frame.weight, Frame.weights, Expr.size, Expr.sizeAll]
  all_goals try omega
  have hsize := v.openCall_size ⟨callee, calleeSpan, args, span, symbol⟩ s
  have hargs : (v.openCall ⟨callee, calleeSpan, args, span, symbol⟩ s).1.args = arg :: todo := ‹_›
  rw [hargs, Expr.sizeAll] at hsize
  dsimp only at hsize
  omega

def runExpr (v : Visitor σ) (e : Expr) (s : σ) : Expr × σ := v.run (.before e) [] s

mutual

theorem run_before (v : Visitor σ) (e : Expr) (stack : List Frame) (s : σ) :
    v.run (.before e) stack s = v.run (.behind (v.walkExpr e s).1) stack (v.walkExpr e s).2 := by
  match e with
  | .identifier name span symbol => rw [run]; simp only [walkExpr]
  | .number value span => rw [run]; simp only [walkExpr]
  | .parameter p => rw [run]; simp only [walkExpr]
  | .binary op lhs rhs span =>
    rw [run, run_before v lhs, run, run_before v rhs, run]
    simp only [walkExpr]
  | .call callee calleeSpan args span symbol =>
    have hsize := v.openCall_size ⟨callee, calleeSpan, args, span, symbol⟩ s
    rw [run, walkExpr]
    dsimp only
    split
    next hargs => rw [hargs, walkArgs]
    next arg todo hargs =>
      have hle : arg.size + Expr.sizeAll todo ≤ Expr.sizeAll args := by
        rwa [hargs, Expr.sizeAll] at hsize
      rw [run_before v arg, run_behind_arg v todo, hargs, walkArgs]
      rfl
termination_by 2 * e.size
decreasing_by
  all_goals
    simp only [Expr.size] at *
    omega

theorem run_behind_arg (v : Visitor σ) (todo : List Expr) (call : FunctionCall)
    (done : List Expr) (e : Expr) (stack : List Frame) (s : σ) :
    v.run (.behind e) (.arg call done todo :: stack) s =
      let r := v.walkArgs todo s
      let c := v.closeExpr { call with args := (e :: done).reverse ++ r.1 }.toExpr r.2
      v.run (.behind c.1) stack c.2 := by
  match todo with
  | [] => rw [run]; simp only [walkArgs, List.append_nil]
  | arg :: todo =>
    rw [run, run_before v arg, run_behind_arg v todo]
    simp only [walkArgs, List.reverse_cons, List.append_assoc, List.cons_append, List.nil_append]
termination_by 2 * Expr.sizeAll todo + 1
decreasing_by
  · simp only [Expr.sizeAll]
    omega
  · have := arg.size_pos
    simp only [Expr.sizeAll]
    omega

end

theorem runExpr_eq (v : Visitor σ) (e : Expr) (s : σ) : v.runExpr e s = v.walkExpr e s := by
  rw [runExpr, run_before, run]

def walkVariable (v : Visitor σ) (d : VariableDeclaration) (s : σ) : VariableDeclaration × σ :=
  v.bindVariable d (v.visit (.decl d) s)

def walkStmt (v : Visitor σ) (stmt : Stmt) (s : σ) : Stmt × σ :=
  match stmt with
  | .decl d => let r := v.walkVariable d s; (.decl r.1, r.2)
  | .ret value span =>
    let r := v.runExpr value (v.visit (.ret value span) (v.enter (.ret value span) s))
    (.ret r.1 span, v.exit (.ret r.1 span) r.2)
  | .expr value => let r := v.runExpr value s; (.expr r.1, r.2)

def walkParameter (v : Visitor σ) (p : Parameter) (s : σ) : Parameter × σ :=
  (p, v.visit (.parameter p) s)

def walkPrototype (v : Visitor σ) (p : Prototype) (s : σ) : Prototype × σ :=
  let r := walkList v.walkParameter p.params (v.visit (.prototype p) (v.enter (.prototype p) s))
  let p := { p with params := r.1 }
  (p, v.exit (.prototype p) r.2)

def walkBody (v : Visitor σ) (b : FunctionBody) (s : σ) : FunctionBody × σ :=
  let ls := walkList v.walkVariable b.locals (v.visit (.body b) (v.enter (.body b) s))
  let ss := walkList v.walkStmt b.statements ls.2
  let b := { b with locals := ls.1, statements := ss.1 }
  (b, v.exit (.body b) ss.2)

def walkDeclaration (v : Visitor σ) (d : FunctionDeclaration) (s : σ) : FunctionDeclaration × σ :=
  let r := v.bindDeclaration d (v.visit (.declaration d) (v.enter (.declaration d) s))
  let p := v.walkPrototype r.1.prototype r.2
  let d := { r.1 with prototype := p.1 }
  (d, v.exit (.declaration d) p.2)

def walkDefinition (v : Visitor σ) (d : FunctionDefinition) (s : σ) : FunctionDefinition × σ :=
  let r := v.bindDefinition d (v.visit (.definition d) (v.enter (.definition d) s))
  let p := v.walkPrototype r.1.prototype r.2
  let b := v.walkBody r.1.body p.2
  let d := { r.1 with prototype := p.1, body := b.1 }
  (d, v.exit (.definition d) b.2)

def walkUnit (v : Visitor σ) (u : SourceUnit) (s : σ) : SourceUnit × σ :=
  let r := v.bindUnit u (v.visit (.unit u) (v.enter (.unit u) s))
  let ds := walkList v.walkDeclaration r.1.declarations r.2
  let fs := walkList v.walkDefinition r.1.definitions ds.2
  let u := { r.1 with declarations := ds.1, definitions := fs.1 }
  (u, v.exit (.unit u) fs.2)

def walk (v : Visitor σ) (p : Program) (s : σ) : Program × σ :=
  let r := v.walkUnit p.unit (v.visit (.program p) (v.enter (.program p) s))
  let p := { p with unit := r.1 }
  (p, v.exit (.program p) r.2)

end Visitor

end MiniC
