import MiniC.Tree.Basic

/-! # Trees up to spans and up to handles

A relabelling changes the spans and the handles of a tree and leaves its shape, names, operators
and literals alone. Two trees that agree once all spans are dropped are the same up to spans, and
a tree that dropping its handles does not change is bound to nothing.
-/

namespace MiniC

/-- What a tree is given in the place of its spans and handles. -/
structure Relabelling where
  span : Span → Span := id
  var : Option VarId → Option VarId := id
  func : Option FuncId → Option FuncId := id
  scope : Option ScopeId → Option ScopeId := id

namespace Relabelling

def spanless : Relabelling := { span := fun _ => .dummy }

def respan (f : Span → Span) : Relabelling := { span := f }

/-- Drop all handles. -/
def unbound : Relabelling where
  var := fun _ => none
  func := fun _ => none
  scope := fun _ => none

@[simp] theorem spanless_span (s : Span) : spanless.span s = .dummy := rfl

@[simp] theorem spanless_var (v : Option VarId) : spanless.var v = v := rfl

@[simp] theorem spanless_func (f : Option FuncId) : spanless.func f = f := rfl

@[simp] theorem spanless_scope (s : Option ScopeId) : spanless.scope s = s := rfl

@[simp] theorem respan_span (f : Span → Span) (s : Span) : (respan f).span s = f s := rfl

@[simp] theorem respan_var (f : Span → Span) (v : Option VarId) : (respan f).var v = v := rfl

@[simp] theorem respan_func (f : Span → Span) (g : Option FuncId) : (respan f).func g = g := rfl

@[simp] theorem respan_scope (f : Span → Span) (s : Option ScopeId) :
    (respan f).scope s = s := rfl

@[simp] theorem unbound_span (s : Span) : unbound.span s = s := rfl

@[simp] theorem unbound_var (v : Option VarId) : unbound.var v = none := rfl

@[simp] theorem unbound_func (f : Option FuncId) : unbound.func f = none := rfl

@[simp] theorem unbound_scope (s : Option ScopeId) : unbound.scope s = none := rfl

end Relabelling

def TypeName.relabel (r : Relabelling) (t : TypeName) : TypeName := { t with span := r.span t.span }

def Parameter.relabel (r : Relabelling) (p : Parameter) : Parameter where
  type := p.type.relabel r
  name := p.name
  nameSpan := r.span p.nameSpan
  span := r.span p.span
  symbol := r.var p.symbol

mutual

def Expr.relabel (r : Relabelling) : Expr → Expr
  | .identifier name span symbol => .identifier name (r.span span) (r.var symbol)
  | .number value span => .number value (r.span span)
  | .parameter p => .parameter (p.relabel r)
  | .binary op lhs rhs span => .binary op (lhs.relabel r) (rhs.relabel r) (r.span span)
  | .call callee calleeSpan args span symbol =>
    .call callee (r.span calleeSpan) (Expr.relabelAll r args) (r.span span) (r.func symbol)

def Expr.relabelAll (r : Relabelling) : List Expr → List Expr
  | [] => []
  | e :: es => e.relabel r :: Expr.relabelAll r es

end

def VariableDeclaration.relabel (r : Relabelling) (d : VariableDeclaration) :
    VariableDeclaration where
  type := d.type.relabel r
  name := d.name
  nameSpan := r.span d.nameSpan
  span := r.span d.span
  symbol := r.var d.symbol

def Stmt.relabel (r : Relabelling) : Stmt → Stmt
  | .decl d => .decl (d.relabel r)
  | .ret value span => .ret (value.relabel r) (r.span span)
  | .expr value => .expr (value.relabel r)

def FunctionBody.relabel (r : Relabelling) (b : FunctionBody) : FunctionBody where
  locals := b.locals.map (·.relabel r)
  statements := b.statements.map (·.relabel r)
  span := r.span b.span

def Prototype.relabel (r : Relabelling) (p : Prototype) : Prototype where
  returnType := p.returnType.relabel r
  name := p.name
  nameSpan := r.span p.nameSpan
  params := p.params.map (·.relabel r)
  span := r.span p.span

def FunctionDeclaration.relabel (r : Relabelling) (d : FunctionDeclaration) :
    FunctionDeclaration where
  prototype := d.prototype.relabel r
  span := r.span d.span
  symbol := r.func d.symbol

def FunctionDefinition.relabel (r : Relabelling) (d : FunctionDefinition) :
    FunctionDefinition where
  prototype := d.prototype.relabel r
  body := d.body.relabel r
  span := r.span d.span
  symbol := r.func d.symbol

def SourceUnit.relabel (r : Relabelling) (u : SourceUnit) : SourceUnit where
  declarations := u.declarations.map (·.relabel r)
  definitions := u.definitions.map (·.relabel r)
  globalScope := r.scope u.globalScope

def Program.relabel (r : Relabelling) (p : Program) : Program where
  name := p.name
  unit := p.unit.relabel r

theorem SourceUnit.relabel_eq_self_iff {r : Relabelling} {u : SourceUnit} :
    u.relabel r = u ↔ u.declarations.map (·.relabel r) = u.declarations ∧
      u.definitions.map (·.relabel r) = u.definitions ∧ r.scope u.globalScope = u.globalScope := by
  cases u
  simp [relabel]

theorem Expr.relabelAll_eq_map (r : Relabelling) (es : List Expr) :
    Expr.relabelAll r es = es.map (·.relabel r) := by
  induction es with
  | nil => rfl
  | cons e es ih => simp [Expr.relabelAll, ih]

@[simp] theorem Expr.relabel_identifier (r : Relabelling) (name : String) (span : Span)
    (symbol : Option VarId) :
    (Expr.identifier name span symbol).relabel r
      = .identifier name (r.span span) (r.var symbol) := by
  simp [Expr.relabel]

@[simp] theorem Expr.relabel_number (r : Relabelling) (value : Int32) (span : Span) :
    (Expr.number value span).relabel r = .number value (r.span span) := by
  simp [Expr.relabel]

@[simp] theorem Expr.relabel_binary (r : Relabelling) (op : BinaryOp) (lhs rhs : Expr)
    (span : Span) :
    (Expr.binary op lhs rhs span).relabel r
      = .binary op (lhs.relabel r) (rhs.relabel r) (r.span span) := by
  simp [Expr.relabel]

@[simp] theorem Expr.relabel_call (r : Relabelling) (callee : String) (calleeSpan : Span)
    (args : List Expr) (span : Span) (symbol : Option FuncId) :
    (Expr.call callee calleeSpan args span symbol).relabel r
      = .call callee (r.span calleeSpan) (args.map (·.relabel r)) (r.span span)
          (r.func symbol) := by
  simp [Expr.relabel, Expr.relabelAll_eq_map]

@[simp] theorem Expr.relabel_ofOperands (r : Relabelling) (op : BinaryOp) (lhs rhs : Expr) :
    (Expr.ofOperands op lhs rhs).relabel r
      = .binary op (lhs.relabel r) (rhs.relabel r) (r.span (lhs.span.merge rhs.span)) := by
  simp [Expr.ofOperands]

end MiniC
