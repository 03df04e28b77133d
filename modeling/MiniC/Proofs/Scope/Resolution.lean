import MiniC.Proofs.Tree.Walk
import MiniC.Scope.Resolve

/-! # What resolution does

The second walk of analysis changes the references of a program one by one, as the table and the
scope of the definition around them decide, and lists those that it does not find in the order of
the walk. Both are said here without a state.
-/

namespace MiniC

/-- The error for an expression that is a reference which is not found from the scope. -/
def Expr.missing? (t : SymbolTable) (scope : ScopeId) : Expr → Option SemanticError
  | .identifier name span _ =>
    if t.resolveVariable? scope name = none then some ⟨.undeclaredVariable, name, span⟩ else none
  | .call callee calleeSpan args _ _ =>
    if t.resolveFunction? scope callee args.length = none then
      some ⟨.undeclaredFunction args.length, callee, calleeSpan⟩
    else none
  | .number .. | .parameter _ | .binary .. => none

@[simp] theorem Expr.missing?_number (t : SymbolTable) (scope : ScopeId) (value : Int32)
    (span : Span) : (Expr.number value span).missing? t scope = none := rfl

@[simp] theorem Expr.missing?_parameter (t : SymbolTable) (scope : ScopeId) (p : Parameter) :
    (Expr.parameter p).missing? t scope = none := rfl

@[simp] theorem Expr.missing?_binary (t : SymbolTable) (scope : ScopeId) (op : BinaryOp)
    (lhs rhs : Expr) (span : Span) : (Expr.binary op lhs rhs span).missing? t scope = none := rfl

mutual

/-- An expression with its references bound to what is found from the scope. -/
def Expr.resolved (t : SymbolTable) (scope : ScopeId) : Expr → Expr
  | .identifier name span symbol =>
    .identifier name span (t.resolveVariable? scope name <|> symbol)
  | .number value span => .number value span
  | .parameter p => .parameter p
  | .binary op lhs rhs span => .binary op (lhs.resolved t scope) (rhs.resolved t scope) span
  | .call callee calleeSpan args span symbol =>
    .call callee calleeSpan (Expr.resolvedAll t scope args) span
      (t.resolveFunction? scope callee args.length <|> symbol)

def Expr.resolvedAll (t : SymbolTable) (scope : ScopeId) : List Expr → List Expr
  | [] => []
  | e :: es => e.resolved t scope :: Expr.resolvedAll t scope es

end

def Stmt.resolved (t : SymbolTable) (scope : ScopeId) : Stmt → Stmt
  | .decl d => .decl d
  | .ret value span => .ret (value.resolved t scope) span
  | .expr value => .expr (value.resolved t scope)

def FunctionBody.resolved (t : SymbolTable) (scope : ScopeId) (b : FunctionBody) : FunctionBody :=
  { b with statements := b.statements.map (·.resolved t scope) }

def FunctionDefinition.scope (d : FunctionDefinition) : ScopeId :=
  match d.symbol with
  | some id => .function id
  | none => .global

/-- The error for a definition that has no scope. -/
def FunctionDefinition.scopeless? (d : FunctionDefinition) : Option SemanticError :=
  if d.symbol = none then
    some ⟨.internal ("definition of `" ++ d.name ++ "` has no scope"), d.name, d.prototype.nameSpan⟩
  else none

def FunctionDefinition.resolved (t : SymbolTable) (d : FunctionDefinition) : FunctionDefinition :=
  { d with body := d.body.resolved t d.scope }

def FunctionDefinition.missing (t : SymbolTable) (d : FunctionDefinition) : List SemanticError :=
  d.scopeless?.toList ++ d.body.parts.filterMap (·.missing? t d.scope)

namespace Resolving

open Visitor

def fail (s : Resolving) (errors : List SemanticError) : Resolving :=
  { s with errors := s.errors ++ errors.toArray }

@[simp] theorem fail_scope (s : Resolving) (errors : List SemanticError) :
    (s.fail errors).scope = s.scope := rfl

@[simp] theorem fail_nil (s : Resolving) : s.fail [] = s := by simp [fail]

@[simp] theorem fail_fail (s : Resolving) (errors errors' : List SemanticError) :
    (s.fail errors).fail errors' = s.fail (errors ++ errors') := by
  simp [fail, Array.append_assoc]

theorem report_eq_fail (s : Resolving) (kind : SemanticErrorKind) (name : String) (span : Span) :
    s.report kind name span = s.fail [⟨kind, name, span⟩] := by
  simp [report, fail]

variable {t : SymbolTable}

theorem bindIdentifier_eq (x : Identifier) (s : Resolving) :
    bindIdentifier t x s =
      ({ x with symbol := t.resolveVariable? s.scope x.name <|> x.symbol },
        s.fail (x.toExpr.missing? t s.scope).toList) := by
  unfold bindIdentifier Identifier.toExpr Expr.missing?
  split
  next id h => simp [h]
  next h => simp [h, report_eq_fail]

theorem bindCall_eq (c : FunctionCall) (s : Resolving) :
    bindCall t c s =
      ({ c with symbol := t.resolveFunction? s.scope c.callee c.arity <|> c.symbol },
        s.fail (c.toExpr.missing? t s.scope).toList) := by
  unfold bindCall FunctionCall.toExpr Expr.missing? FunctionCall.arity
  split
  next id h => simp [h]
  next h => simp [h, report_eq_fail]

theorem filterMap_cons_eq {α β : Type} (f : α → Option β) (a : α) (as : List α) :
    (a :: as).filterMap f = (f a).toList ++ as.filterMap f := by
  cases h : f a <;> simp [h]

mutual

theorem walkExpr_eq (e : Expr) (s : Resolving) :
    (visitor t).walkExpr e s =
      (e.resolved t s.scope, s.fail (e.parts.filterMap (·.missing? t s.scope))) := by
  match e with
  | .identifier name span symbol =>
    rw [walkExpr]
    change ((bindIdentifier t ⟨name, span, symbol⟩ s).1.toExpr,
      (bindIdentifier t ⟨name, span, symbol⟩ s).2) = _
    rw [bindIdentifier_eq, Expr.parts, filterMap_cons_eq, List.filterMap_nil, List.append_nil,
      Expr.resolved]
    rfl
  | .number value span =>
    rw [walkExpr, Expr.parts, filterMap_cons_eq, Expr.resolved]
    simp [visitor]
  | .parameter p =>
    rw [walkExpr, Expr.parts, filterMap_cons_eq, Expr.resolved]
    simp [visitor]
  | .binary op lhs rhs span =>
    have hopen : (visitor t).openExpr (.binary op lhs rhs span) s = s := rfl
    rw [walkExpr, hopen, walkExpr_eq lhs s, walkExpr_eq rhs]
    simp [closeExpr, visitor, Expr.resolved, Expr.parts, filterMap_cons_eq]
  | .call callee calleeSpan args span symbol =>
    have hopen : (visitor t).openCall ⟨callee, calleeSpan, args, span, symbol⟩ s
        = bindCall t ⟨callee, calleeSpan, args, span, symbol⟩ s := rfl
    rw [walkExpr, hopen, bindCall_eq]
    dsimp only
    rw [walkArgs_eq args]
    simp [closeExpr, visitor, FunctionCall.toExpr, FunctionCall.arity, Expr.resolved, Expr.parts,
      filterMap_cons_eq]

theorem walkArgs_eq (es : List Expr) (s : Resolving) :
    (visitor t).walkArgs es s =
      (Expr.resolvedAll t s.scope es,
        s.fail ((Expr.partsAll es).filterMap (·.missing? t s.scope))) := by
  match es with
  | [] => rw [walkArgs]; simp [Expr.resolvedAll, Expr.partsAll]
  | e :: es =>
    rw [walkArgs, walkExpr_eq e, walkArgs_eq es]
    simp [Expr.resolvedAll, Expr.partsAll]

end

theorem runExpr_eq (e : Expr) (s : Resolving) :
    (visitor t).runExpr e s =
      (e.resolved t s.scope, s.fail (e.parts.filterMap (·.missing? t s.scope))) :=
  ((visitor t).runExpr_eq e s).trans (walkExpr_eq e s)

theorem walkStmt_eq (stmt : Stmt) (s : Resolving) :
    (visitor t).walkStmt stmt s =
      (stmt.resolved t s.scope, s.fail (stmt.parts.filterMap (·.missing? t s.scope))) := by
  cases stmt with
  | decl d => simp [walkStmt, walkVariable, visitor, Stmt.resolved, Stmt.parts]
  | ret value span =>
    have hopen : (visitor t).visit (.ret value span) ((visitor t).enter (.ret value span) s) = s :=
      rfl
    rw [walkStmt, hopen, runExpr_eq]
    rfl
  | expr value =>
    rw [walkStmt, runExpr_eq]
    rfl

theorem walkList_walkStmt_eq (stmts : List Stmt) (s : Resolving) :
    walkList (visitor t).walkStmt stmts s =
      (stmts.map (·.resolved t s.scope),
        s.fail ((stmts.flatMap (·.parts)).filterMap (·.missing? t s.scope))) := by
  induction stmts generalizing s with
  | nil => simp
  | cons stmt stmts ih => simp [walkStmt_eq, ih]

theorem walkBody_eq (b : FunctionBody) (s : Resolving) :
    (visitor t).walkBody b s =
      (b.resolved t s.scope, s.fail (b.parts.filterMap (·.missing? t s.scope))) := by
  have hopen : (visitor t).visit (.body b) ((visitor t).enter (.body b) s) = s := rfl
  have hlocals : walkList (visitor t).walkVariable b.locals s = (b.locals, s) :=
    walkList_eq_self (fun _ _ => rfl) _ _
  rw [walkBody, hopen, hlocals, walkList_walkStmt_eq]
  rfl

theorem walkPrototype_eq (p : Prototype) (s : Resolving) :
    (visitor t).walkPrototype p s = (p, s) := by
  have hparameter : (visitor t).walkParameter = Prod.mk := rfl
  rw [walkPrototype, hparameter, walkList_eq_self fun _ _ => rfl]
  rfl

theorem walkDeclaration_eq (d : FunctionDeclaration) (s : Resolving) :
    (visitor t).walkDeclaration d s = (d, s) := by
  have hopen : (visitor t).bindDeclaration d
      ((visitor t).visit (.declaration d) ((visitor t).enter (.declaration d) s)) = (d, s) := rfl
  rw [walkDeclaration, hopen, walkPrototype_eq]
  rfl

theorem enterDefinition_eq (d : FunctionDefinition) (s : Resolving) :
    enterDefinition d s = { s.fail d.scopeless?.toList with scope := d.scope } := by
  unfold enterDefinition FunctionDefinition.scopeless? FunctionDefinition.scope
  split
  next id h => simp [h]
  next h => simp [h, report_eq_fail]

/-- A definition ends in the global scope, whatever its own scope is. -/
theorem walkDefinition_eq (d : FunctionDefinition) (s : Resolving) (hs : s.scope = .global) :
    (visitor t).walkDefinition d s = (d.resolved t, s.fail (d.missing t)) := by
  have hopen : (visitor t).bindDefinition d
      ((visitor t).visit (.definition d) ((visitor t).enter (.definition d) s))
        = (d, enterDefinition d s) := rfl
  rw [walkDefinition, hopen, walkPrototype_eq, walkBody_eq, enterDefinition_eq]
  refine Prod.ext rfl ?_
  rw [FunctionDefinition.missing, ← fail_fail]
  simp only [visitor, ← hs]
  rfl

theorem walkList_walkDefinition_eq (ds : List FunctionDefinition) (s : Resolving)
    (hs : s.scope = .global) :
    walkList (visitor t).walkDefinition ds s =
      (ds.map (·.resolved t), s.fail (ds.flatMap (·.missing t))) := by
  induction ds generalizing s with
  | nil => simp
  | cons d ds ih =>
    rw [walkList_cons, walkDefinition_eq d s hs]
    dsimp only
    rw [ih (s.fail (d.missing t)) hs, fail_fail]
    rfl

end Resolving

open Visitor

/-- Resolution binds all references that are found, and lists the errors of all definitions. -/
theorem Program.resolve_eq (p : Program) (t : SymbolTable) :
    p.resolve t =
      (p.withDefinitions (p.unit.definitions.map (·.resolved t)),
        p.unit.definitions.flatMap (·.missing t)) := by
  have hdeclarations : walkList (Resolving.visitor t).walkDeclaration p.unit.declarations {}
      = (p.unit.declarations, {}) := walkList_eq_self Resolving.walkDeclaration_eq _ _
  have hdefinitions := Resolving.walkList_walkDefinition_eq (t := t) p.unit.definitions {} rfl
  have hwalk : (Resolving.visitor t).walk p {} =
      (p.withDefinitions (p.unit.definitions.map (·.resolved t)),
        Resolving.fail {} (p.unit.definitions.flatMap (·.missing t))) := by
    have hopen : (Resolving.visitor t).bindUnit p.unit ((Resolving.visitor t).visit (.unit p.unit)
        ((Resolving.visitor t).enter (.unit p.unit) {})) = (p.unit, {}) := rfl
    have hprogram : (Resolving.visitor t).visit (.program p)
        ((Resolving.visitor t).enter (.program p) {}) = {} := rfl
    rw [walk, hprogram, walkUnit, hopen, hdeclarations]
    dsimp only
    rw [hdefinitions]
    rfl
  rw [Program.resolve, hwalk]
  simp [Resolving.fail]

end MiniC
