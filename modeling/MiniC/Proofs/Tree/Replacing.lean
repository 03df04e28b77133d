import MiniC.Proofs.Tree.Walk
import MiniC.Proofs.Tree.Relabel

/-! # Replacing expressions

The expressions of a definition can be changed, each as a whole, and nothing else with them. A
definition bound to nothing comes from any other in two steps: what it declares loses its handles,
and then its expressions do.
-/

namespace MiniC

open Relabelling (unbound)

def Stmt.mapExprs (f : Expr → Expr) : Stmt → Stmt
  | .decl d => .decl d
  | .ret value span => .ret (f value) span
  | .expr value => .expr (f value)

def FunctionBody.mapExprs (f : Expr → Expr) (b : FunctionBody) : FunctionBody :=
  { b with statements := b.statements.map (·.mapExprs f) }

def FunctionDefinition.mapExprs (f : Expr → Expr) (d : FunctionDefinition) : FunctionDefinition :=
  { d with body := d.body.mapExprs f }

def Program.mapExprs (f : Expr → Expr) (p : Program) : Program :=
  p.withDefinitions (p.unit.definitions.map (·.mapExprs f))

mutual

/-- Drop the handles of the parameters that stand as expressions. -/
def Expr.unbindParameters : Expr → Expr
  | .parameter p => .parameter (p.relabel unbound)
  | .identifier name span symbol => .identifier name span symbol
  | .number value span => .number value span
  | .binary op lhs rhs span => .binary op lhs.unbindParameters rhs.unbindParameters span
  | .call callee calleeSpan args span symbol =>
    .call callee calleeSpan (Expr.unbindAllParameters args) span symbol

def Expr.unbindAllParameters : List Expr → List Expr
  | [] => []
  | e :: es => e.unbindParameters :: Expr.unbindAllParameters es

end

def Program.unbindParameters (p : Program) : Program := p.mapExprs (·.unbindParameters)

/-- A declaration loses its handle, an expression keeps those it has. -/
def Stmt.emptied : Stmt → Stmt
  | .decl d => .decl (d.relabel unbound)
  | .ret value span => .ret value span
  | .expr value => .expr value

def FunctionBody.emptied (b : FunctionBody) : FunctionBody :=
  { b with locals := b.locals.map (·.relabel unbound), statements := b.statements.map (·.emptied) }

/-- A definition loses its own handle and those of its parameters; the body stays as it is. -/
def FunctionDefinition.bare (d : FunctionDefinition) : FunctionDefinition :=
  { d with prototype := d.prototype.relabel unbound, symbol := none }

/-- A definition loses all handles but those of its expressions. -/
def FunctionDefinition.emptied (d : FunctionDefinition) : FunctionDefinition :=
  { d.bare with body := d.body.emptied }

theorem Stmt.relabel_unbound (stmt : Stmt) :
    stmt.relabel unbound = stmt.emptied.mapExprs (·.relabel unbound) := by
  cases stmt <;> rfl

theorem FunctionBody.relabel_unbound (b : FunctionBody) :
    b.relabel unbound = b.emptied.mapExprs (·.relabel unbound) := by
  simp [relabel, emptied, mapExprs, Stmt.relabel_unbound]

theorem FunctionDefinition.relabel_unbound (d : FunctionDefinition) :
    d.relabel unbound = d.emptied.mapExprs (·.relabel unbound) := by
  rw [relabel, d.body.relabel_unbound]
  rfl

theorem FunctionDefinition.emptied_mapExprs (f : Expr → Expr) (d : FunctionDefinition) :
    (d.mapExprs f).emptied = d.emptied.mapExprs f := by
  have hstmt : ∀ stmt : Stmt, (stmt.mapExprs f).emptied = stmt.emptied.mapExprs f := by
    intro stmt
    cases stmt <;> rfl
  simp [mapExprs, FunctionBody.mapExprs, emptied, bare, FunctionBody.emptied, hstmt]

mutual

theorem Expr.parts_relabel (r : Relabelling) (e : Expr) :
    (e.relabel r).parts = e.parts.map (·.relabel r) := by
  match e with
  | .identifier .. => simp [Expr.relabel, Expr.parts]
  | .number .. => simp [Expr.relabel, Expr.parts]
  | .parameter _ => simp [Expr.relabel, Expr.parts]
  | .binary op lhs rhs span =>
    simp [Expr.relabel, Expr.parts, parts_relabel r lhs, parts_relabel r rhs]
  | .call callee calleeSpan args span symbol =>
    simp [Expr.relabel, Expr.parts, partsAll_relabel r args]

theorem Expr.partsAll_relabel (r : Relabelling) (es : List Expr) :
    Expr.partsAll (Expr.relabelAll r es) = (Expr.partsAll es).map (·.relabel r) := by
  match es with
  | [] => simp [Expr.relabelAll, Expr.partsAll]
  | e :: es =>
    simp [Expr.relabelAll, Expr.partsAll, parts_relabel r e, partsAll_relabel r es]

end

theorem FunctionBody.parts_relabel (r : Relabelling) (b : FunctionBody) :
    (b.relabel r).parts = b.parts.map (·.relabel r) := by
  have hstmt : ∀ stmt : Stmt, (stmt.relabel r).parts = stmt.parts.map (·.relabel r) := by
    intro stmt
    cases stmt with
    | decl d => rfl
    | ret value span => exact value.parts_relabel r
    | expr value => exact value.parts_relabel r
  simp [parts, relabel, List.flatMap_map, List.map_flatMap, hstmt]

theorem Stmt.parts_mapExprs {f g : Expr → Expr} (h : ∀ e, (f e).parts = e.parts.map g)
    (stmt : Stmt) : (stmt.mapExprs f).parts = stmt.parts.map g := by
  cases stmt with
  | decl d => rfl
  | ret value span => exact h value
  | expr value => exact h value

theorem FunctionBody.parts_mapExprs {f g : Expr → Expr} (h : ∀ e, (f e).parts = e.parts.map g)
    (b : FunctionBody) : (b.mapExprs f).parts = b.parts.map g := by
  simp [parts, mapExprs, List.flatMap_map, List.map_flatMap, Stmt.parts_mapExprs h]

/-- Where two changes agree on all expressions with some property, they agree on a definition
whose expressions have it. -/
theorem FunctionDefinition.mapExprs_congr {f g : Expr → Expr} {P : Expr → Prop}
    (h : ∀ e, (∀ x ∈ e.parts, P x) → f e = g e) {d : FunctionDefinition}
    (hd : ∀ x ∈ d.body.parts, P x) : d.mapExprs f = d.mapExprs g := by
  have hstmt : ∀ stmt ∈ d.body.statements, stmt.mapExprs f = stmt.mapExprs g := by
    intro stmt hmem
    have hparts : ∀ x ∈ stmt.parts, P x := fun x hx =>
      hd x (List.mem_flatMap.mpr ⟨stmt, hmem, hx⟩)
    cases stmt with
    | decl d => rfl
    | ret value span => exact congrArg (Stmt.ret · span) (h value hparts)
    | expr value => exact congrArg Stmt.expr (h value hparts)
  rw [mapExprs, mapExprs, FunctionBody.mapExprs, FunctionBody.mapExprs, List.map_congr_left hstmt]

theorem FunctionDefinition.mapExprs_mapExprs (f g : Expr → Expr) (d : FunctionDefinition) :
    (d.mapExprs f).mapExprs g = d.mapExprs fun e => g (f e) := by
  have hstmt : ∀ stmt : Stmt, (stmt.mapExprs f).mapExprs g = stmt.mapExprs fun e => g (f e) := by
    intro stmt
    cases stmt <;> rfl
  simp [mapExprs, FunctionBody.mapExprs, hstmt]

end MiniC
