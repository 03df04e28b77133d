import MiniC.Tree.Walk

/-! # Simulation of visitors

Two visitors may carry different states. If they answer alike whenever their states are related,
and leave related states behind, then they change a program alike, and their walks end in related
states.
-/

namespace MiniC

namespace Visitor

variable {σ τ α : Type} {R : σ → τ → Prop} {s : σ} {s' : τ}

/-- The answers are the same, and the states are related. -/
structure Agree (R : σ → τ → Prop) (r : α × σ) (r' : α × τ) : Prop where
  answer : r.1 = r'.1
  state : R r.2 r'.2

def Alike (R : σ → τ → Prop) (f : α → σ → α × σ) (g : α → τ → α × τ) : Prop :=
  ∀ a s s', R s s' → Agree R (f a s) (g a s')

/-- One visitor does on all its states what the other one does on related states. -/
structure Simulates (v : Visitor σ) (w : Visitor τ) (R : σ → τ → Prop) : Prop where
  enter : ∀ n {s s'}, R s s' → R (v.enter n s) (w.enter n s')
  visit : ∀ n {s s'}, R s s' → R (v.visit n s) (w.visit n s')
  exit : ∀ n {s s'}, R s s' → R (v.exit n s) (w.exit n s')
  bindUnit : Alike R v.bindUnit w.bindUnit
  bindDeclaration : Alike R v.bindDeclaration w.bindDeclaration
  bindDefinition : Alike R v.bindDefinition w.bindDefinition
  bindVariable : Alike R v.bindVariable w.bindVariable
  bindIdentifier : Alike R v.bindIdentifier w.bindIdentifier
  bindCall : Alike R v.bindCall w.bindCall

theorem Alike.walkList {f : α → σ → α × σ} {g : α → τ → α × τ} (h : Alike R f g) :
    Alike R (walkList f) (walkList g) := by
  intro as s s' hs
  induction as generalizing s s' with
  | nil => exact ⟨rfl, hs⟩
  | cons a as ih =>
    obtain ⟨ha, hs⟩ := h a s s' hs
    obtain ⟨has, hs⟩ := ih _ _ hs
    rw [walkList_cons, walkList_cons, ha, has]
    exact ⟨rfl, hs⟩

namespace Simulates

variable {v : Visitor σ} {w : Visitor τ}

theorem opened (h : Simulates v w R) (n : Node) (hs : R s s') :
    R (v.visit n (v.enter n s)) (w.visit n (w.enter n s')) :=
  h.visit n (h.enter n hs)

theorem walkIdentifier (h : Simulates v w R) (x : Identifier) (hs : R s s') :
    Agree R (v.walkIdentifier x s) (w.walkIdentifier x s') := by
  obtain ⟨hx, hs⟩ := h.bindIdentifier x _ _ (h.visit _ hs)
  exact ⟨congrArg Identifier.toExpr hx, hs⟩

theorem openCall (h : Simulates v w R) : Alike R v.openCall w.openCall :=
  fun c _ _ hs => h.bindCall c _ _ (h.opened (.expr c.toExpr) hs)

theorem closeExpr (h : Simulates v w R) (e : Expr) (hs : R s s') :
    Agree R (v.closeExpr e s) (w.closeExpr e s') :=
  ⟨rfl, h.exit (.expr e) hs⟩

mutual

theorem walkExpr (h : Simulates v w R) (e : Expr) {s : σ} {s' : τ} (hs : R s s') :
    Agree R (v.walkExpr e s) (w.walkExpr e s') := by
  match e with
  | .identifier name span symbol =>
    rw [Visitor.walkExpr, Visitor.walkExpr]
    exact h.walkIdentifier ⟨name, span, symbol⟩ hs
  | .number value span =>
    rw [Visitor.walkExpr, Visitor.walkExpr]
    exact ⟨rfl, h.visit _ hs⟩
  | .parameter p =>
    rw [Visitor.walkExpr, Visitor.walkExpr]
    exact ⟨rfl, h.visit _ hs⟩
  | .binary op lhs rhs span =>
    obtain ⟨hl, hs⟩ := walkExpr h lhs (h.opened (.expr (.binary op lhs rhs span)) hs)
    obtain ⟨hr, hs⟩ := walkExpr h rhs hs
    rw [Visitor.walkExpr, Visitor.walkExpr]
    simp only [openExpr]
    rw [hl, hr]
    exact h.closeExpr _ hs
  | .call callee calleeSpan args span symbol =>
    have hsize := v.openCall_size ⟨callee, calleeSpan, args, span, symbol⟩ s
    obtain ⟨hc, hs⟩ := h.openCall ⟨callee, calleeSpan, args, span, symbol⟩ _ _ hs
    obtain ⟨hr, hs⟩ := walkArgs h (v.openCall ⟨callee, calleeSpan, args, span, symbol⟩ s).1.args hs
    rw [Visitor.walkExpr, Visitor.walkExpr]
    dsimp only
    rw [← hc, hr]
    exact h.closeExpr _ hs
termination_by 2 * e.size
decreasing_by
  all_goals
    simp only [Expr.size] at *
    omega

theorem walkArgs (h : Simulates v w R) (es : List Expr) {s : σ} {s' : τ} (hs : R s s') :
    Agree R (v.walkArgs es s) (w.walkArgs es s') := by
  match es with
  | [] =>
    rw [Visitor.walkArgs, Visitor.walkArgs]
    exact ⟨rfl, hs⟩
  | e :: es =>
    obtain ⟨he, hs⟩ := walkExpr h e hs
    obtain ⟨hes, hs⟩ := walkArgs h es hs
    rw [Visitor.walkArgs, Visitor.walkArgs]
    exact ⟨by rw [he, hes], hs⟩
termination_by 2 * Expr.sizeAll es + 1
decreasing_by
  · simp only [Expr.sizeAll]
    omega
  · have := e.size_pos
    simp only [Expr.sizeAll]
    omega

end

theorem runExpr (h : Simulates v w R) : Alike R v.runExpr w.runExpr := by
  intro e s s' hs
  rw [runExpr_eq, runExpr_eq]
  exact h.walkExpr e hs

theorem walkVariable (h : Simulates v w R) : Alike R v.walkVariable w.walkVariable :=
  fun d _ _ hs => h.bindVariable d _ _ (h.visit _ hs)

theorem walkStmt (h : Simulates v w R) : Alike R v.walkStmt w.walkStmt := by
  intro stmt s s' hs
  cases stmt with
  | decl d =>
    obtain ⟨hd, hs⟩ := h.walkVariable d _ _ hs
    exact ⟨congrArg Stmt.decl hd, hs⟩
  | ret value span =>
    obtain ⟨hvalue, hs⟩ := h.runExpr value _ _ (h.opened (.ret value span) hs)
    simp only [Visitor.walkStmt]
    rw [hvalue]
    exact ⟨rfl, h.exit _ hs⟩
  | expr value =>
    obtain ⟨hvalue, hs⟩ := h.runExpr value _ _ hs
    exact ⟨congrArg Stmt.expr hvalue, hs⟩

theorem walkParameter (h : Simulates v w R) : Alike R v.walkParameter w.walkParameter :=
  fun _ _ _ hs => ⟨rfl, h.visit _ hs⟩

theorem walkPrototype (h : Simulates v w R) : Alike R v.walkPrototype w.walkPrototype := by
  intro p s s' hs
  obtain ⟨hp, hs⟩ := h.walkParameter.walkList p.params _ _ (h.opened (.prototype p) hs)
  simp only [Visitor.walkPrototype]
  rw [hp]
  exact ⟨rfl, h.exit _ hs⟩

theorem walkBody (h : Simulates v w R) : Alike R v.walkBody w.walkBody := by
  intro b s s' hs
  obtain ⟨hl, hs⟩ := h.walkVariable.walkList b.locals _ _ (h.opened (.body b) hs)
  obtain ⟨hb, hs⟩ := h.walkStmt.walkList b.statements _ _ hs
  simp only [Visitor.walkBody]
  rw [hl, hb]
  exact ⟨rfl, h.exit _ hs⟩

theorem walkDeclaration (h : Simulates v w R) : Alike R v.walkDeclaration w.walkDeclaration := by
  intro d s s' hs
  obtain ⟨hd, hs⟩ := h.bindDeclaration d _ _ (h.opened (.declaration d) hs)
  simp only [Visitor.walkDeclaration]
  rw [hd]
  obtain ⟨hp, hs⟩ := h.walkPrototype _ _ _ hs
  rw [hp]
  exact ⟨rfl, h.exit _ hs⟩

theorem walkDefinition (h : Simulates v w R) : Alike R v.walkDefinition w.walkDefinition := by
  intro d s s' hs
  obtain ⟨hd, hs⟩ := h.bindDefinition d _ _ (h.opened (.definition d) hs)
  simp only [Visitor.walkDefinition]
  rw [hd]
  obtain ⟨hp, hs⟩ := h.walkPrototype _ _ _ hs
  obtain ⟨hb, hs⟩ := h.walkBody _ _ _ hs
  rw [hp, hb]
  exact ⟨rfl, h.exit _ hs⟩

theorem walkUnit (h : Simulates v w R) : Alike R v.walkUnit w.walkUnit := by
  intro u s s' hs
  obtain ⟨hu, hs⟩ := h.bindUnit u _ _ (h.opened (.unit u) hs)
  simp only [Visitor.walkUnit]
  rw [hu]
  obtain ⟨hds, hs⟩ := h.walkDeclaration.walkList _ _ _ hs
  obtain ⟨hfs, hs⟩ := h.walkDefinition.walkList _ _ _ hs
  rw [hds, hfs]
  exact ⟨rfl, h.exit _ hs⟩

/-- The walks of visitors that simulate each other agree. -/
theorem walk (h : Simulates v w R) : Alike R v.walk w.walk := by
  intro p s s' hs
  obtain ⟨hu, hs⟩ := h.walkUnit p.unit _ _ (h.opened (.program p) hs)
  simp only [Visitor.walk]
  rw [hu]
  exact ⟨rfl, h.exit _ hs⟩

end Simulates

end Visitor

end MiniC
