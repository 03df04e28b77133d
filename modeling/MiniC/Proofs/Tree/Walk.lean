import MiniC.Tree.Walk

/-! # Parts of trees, and walks over lists

The expressions within an expression, a statement or a body come in the order of the walk, an
expression before its operands; so do the variables that a body declares. What the steps of a walk
have in common, the walk of a list has.
-/

namespace MiniC

mutual

/-- An expression and all expressions inside it. -/
def Expr.parts : Expr → List Expr
  | .identifier name span symbol => [.identifier name span symbol]
  | .number value span => [.number value span]
  | .parameter p => [.parameter p]
  | .binary op lhs rhs span => .binary op lhs rhs span :: (lhs.parts ++ rhs.parts)
  | .call callee calleeSpan args span symbol =>
    .call callee calleeSpan args span symbol :: Expr.partsAll args

def Expr.partsAll : List Expr → List Expr
  | [] => []
  | e :: es => e.parts ++ Expr.partsAll es

end

def Stmt.parts : Stmt → List Expr
  | .decl _ => []
  | .ret value _ => value.parts
  | .expr value => value.parts

def Stmt.variables : Stmt → List VariableDeclaration
  | .decl d => [d]
  | .ret _ _ | .expr _ => []

def FunctionBody.parts (b : FunctionBody) : List Expr := b.statements.flatMap (·.parts)

/-- All variables that a body declares, in the order in which the walk meets them. -/
def FunctionBody.variables (b : FunctionBody) : List VariableDeclaration :=
  b.locals ++ b.statements.flatMap (·.variables)

theorem Expr.partsAll_eq_flatMap (es : List Expr) : Expr.partsAll es = es.flatMap (·.parts) := by
  induction es with
  | nil => rfl
  | cons e es ih => simp [Expr.partsAll, ih]

namespace Visitor

variable {σ α : Type}

theorem walkList_eq_self_of_state {f : α → σ → α × σ} {s : σ} (h : ∀ a, f a s = (a, s))
    (as : List α) : walkList f as s = (as, s) := by
  induction as with
  | nil => rfl
  | cons a as ih => rw [walkList_cons, h, ih]

theorem walkList_eq_self {f : α → σ → α × σ} (h : ∀ a s, f a s = (a, s)) (as : List α) (s : σ) :
    walkList f as s = (as, s) :=
  walkList_eq_self_of_state (fun a => h a s) as

theorem map_walkList {β : Type} {f : α → σ → α × σ} (g : α → β) (h : ∀ a s, g (f a s).1 = g a)
    (as : List α) (s : σ) : (walkList f as s).1.map g = as.map g := by
  induction as generalizing s with
  | nil => rfl
  | cons a as ih => rw [walkList_cons, List.map_cons, List.map_cons, h, ih]

/-- A walk whose steps commute with a map of the elements and of the state does so as well. -/
theorem walkList_map {τ β : Type} {f : α → σ → α × σ} {f' : β → τ → β × τ} (g : α → β) (h : σ → τ)
    (step : ∀ a s, f' (g a) (h s) = (g (f a s).1, h (f a s).2)) (as : List α) (s : σ) :
    walkList f' (as.map g) (h s) = ((walkList f as s).1.map g, h (walkList f as s).2) := by
  induction as generalizing s with
  | nil => rfl
  | cons a as ih => rw [List.map_cons, walkList_cons, step, ih, walkList_cons, List.map_cons]

/-- What each step leads back from its end to its start, the walk of a list does. -/
theorem walkList_backward {f : α → σ → α × σ} {P : σ → Prop} (h : ∀ a s, P (f a s).2 → P s)
    (as : List α) (s : σ) (hs : P (walkList f as s).2) : P s := by
  induction as generalizing s with
  | nil => exact hs
  | cons a as ih =>
    rw [walkList_cons] at hs
    exact h a s (ih _ hs)

theorem walkList_preserves {f : α → σ → α × σ} {P : σ → Prop} (step : ∀ a s, P s → P (f a s).2)
    (as : List α) {s : σ} (h : P s) : P (walkList f as s).2 := by
  induction as generalizing s with
  | nil => exact h
  | cons a as ih =>
    rw [walkList_cons]
    exact ih (step a s h)

/-- What each step preserves of the elements done so far and of the state, the walk of a list
preserves. -/
theorem walkList_invariant {f : α → σ → α × σ} {P : List α → σ → Prop}
    (step : ∀ done a s, P done s → P (done ++ [(f a s).1]) (f a s).2) (as : List α)
    {done : List α} {s : σ} (h : P done s) :
    P (done ++ (walkList f as s).1) (walkList f as s).2 := by
  induction as generalizing done s with
  | nil => simpa using h
  | cons a as ih => simpa using ih (step done a s h)

end Visitor

end MiniC
