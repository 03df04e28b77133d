import MiniC.Proofs.Except
import MiniC.Proofs.Scope.Declared
import MiniC.Proofs.Scope.Resolution
import MiniC.Scope.Analysis

/-! # Accepted programs

A program that analysis accepts went through both walks without errors: every slot is filled,
every item is known to the table, and every reference of a definition is bound to what is found
from its scope.
-/

namespace MiniC

theorem Stmt.variables_resolved (t : SymbolTable) (scope : ScopeId) (stmt : Stmt) :
    (stmt.resolved t scope).variables = stmt.variables := by
  cases stmt <;> rfl

theorem FunctionBody.variables_resolved (t : SymbolTable) (scope : ScopeId) (b : FunctionBody) :
    (b.resolved t scope).variables = b.variables := by
  simp [FunctionBody.variables, resolved, List.flatMap_map, Stmt.variables_resolved]

theorem FunctionDefinition.slots_resolved (t : SymbolTable) (d : FunctionDefinition) :
    (d.resolved t).slots = d.slots := by
  simp [slots, resolved, FunctionBody.variables_resolved]

theorem SymbolTable.Knows.resolved {t : SymbolTable} {d : FunctionDefinition} {id : FuncId}
    {f : FunctionSymbol} (h : t.Knows d id f) : t.Knows (d.resolved t) id f :=
  { h with locals := h.locals.trans (by rw [FunctionDefinition.resolved,
      FunctionBody.variables_resolved]) }

theorem SymbolTable.Registers.resolved {t : SymbolTable} {d : FunctionDefinition}
    (h : t.Registers d) : t.Registers (d.resolved t) := by
  refine ⟨h.function, fun hfit => ?_⟩
  obtain ⟨id, f, hk⟩ := h.defined hfit
  exact ⟨id, f, hk.resolved⟩

mutual

theorem Expr.parts_resolved (t : SymbolTable) (scope : ScopeId) (e : Expr) :
    (e.resolved t scope).parts = e.parts.map (·.resolved t scope) := by
  match e with
  | .identifier .. => simp [Expr.resolved, Expr.parts]
  | .number .. => simp [Expr.resolved, Expr.parts]
  | .parameter _ => simp [Expr.resolved, Expr.parts]
  | .binary op lhs rhs span =>
    simp [Expr.resolved, Expr.parts, parts_resolved t scope lhs, parts_resolved t scope rhs]
  | .call callee calleeSpan args span symbol =>
    simp [Expr.resolved, Expr.parts, partsAll_resolved t scope args]

theorem Expr.partsAll_resolved (t : SymbolTable) (scope : ScopeId) (es : List Expr) :
    Expr.partsAll (Expr.resolvedAll t scope es)
      = (Expr.partsAll es).map (·.resolved t scope) := by
  match es with
  | [] => simp [Expr.resolvedAll, Expr.partsAll]
  | e :: es =>
    simp [Expr.resolvedAll, Expr.partsAll, parts_resolved t scope e,
      partsAll_resolved t scope es]

end

theorem Expr.length_resolvedAll (t : SymbolTable) (scope : ScopeId) (es : List Expr) :
    (Expr.resolvedAll t scope es).length = es.length := by
  induction es with
  | nil => simp [Expr.resolvedAll]
  | cons e es ih => simp [Expr.resolvedAll, ih]

theorem FunctionBody.parts_resolved (t : SymbolTable) (scope : ScopeId) (b : FunctionBody) :
    (b.resolved t scope).parts = b.parts.map (·.resolved t scope) := by
  have hstmt : ∀ stmt : Stmt,
      (stmt.resolved t scope).parts = stmt.parts.map (·.resolved t scope) := by
    intro stmt
    cases stmt with
    | decl d => rfl
    | ret value span => exact Expr.parts_resolved t scope value
    | expr value => exact Expr.parts_resolved t scope value
  simp [parts, resolved, List.flatMap_map, List.map_flatMap, hstmt]

/-- A definition after both walks: known to the table, and with all its references bound. -/
structure SymbolTable.Settled (t : SymbolTable) (d : FunctionDefinition) : Prop where
  registers : t.Registers d
  identifier : ∀ name span symbol, .identifier name span symbol ∈ d.body.parts →
    symbol = t.resolveVariable? d.scope name ∧ symbol ≠ none
  call : ∀ callee calleeSpan args span symbol,
    .call callee calleeSpan args span symbol ∈ d.body.parts →
      symbol = t.resolveFunction? d.scope callee args.length ∧ symbol ≠ none

theorem Expr.resolveVariable?_ne_none {t : SymbolTable} {scope : ScopeId} {name : String}
    {span : Span} {symbol : Option VarId}
    (h : (Expr.identifier name span symbol).missing? t scope = none) :
    t.resolveVariable? scope name ≠ none := by
  intro hnone
  simp [missing?, hnone] at h

theorem Expr.resolveFunction?_ne_none {t : SymbolTable} {scope : ScopeId} {callee : String}
    {calleeSpan span : Span} {args : List Expr} {symbol : Option FuncId}
    (h : (Expr.call callee calleeSpan args span symbol).missing? t scope = none) :
    t.resolveFunction? scope callee args.length ≠ none := by
  intro hnone
  simp [missing?, hnone] at h

theorem orElse_of_ne_none {α : Type} {x y : Option α} (h : x ≠ none) : (x <|> y) = x := by
  cases x with
  | none => exact absurd rfl h
  | some a => rfl

theorem SymbolTable.Registers.settled {t : SymbolTable} {d : FunctionDefinition} (h : t.Registers d)
    (hmissing : d.missing t = []) : t.Settled (d.resolved t) := by
  have hfound : ∀ e ∈ d.body.parts, e.missing? t d.scope = none :=
    List.filterMap_eq_nil_iff.mp (List.append_eq_nil_iff.mp hmissing).2
  have hparts : (d.resolved t).body.parts = d.body.parts.map (·.resolved t d.scope) :=
    d.body.parts_resolved t d.scope
  refine ⟨h.resolved, ?_, ?_⟩
  · intro name span symbol hx
    rw [hparts, List.mem_map] at hx
    obtain ⟨e, he, hr⟩ := hx
    cases e with
    | identifier name' span' symbol' =>
      have hv := Expr.resolveVariable?_ne_none (hfound _ he)
      rw [Expr.resolved, orElse_of_ne_none hv] at hr
      obtain ⟨rfl, rfl, rfl⟩ := Expr.identifier.inj hr
      exact ⟨rfl, hv⟩
    | _ => simp [Expr.resolved] at hr
  · intro callee calleeSpan args span symbol hx
    rw [hparts, List.mem_map] at hx
    obtain ⟨e, he, hr⟩ := hx
    cases e with
    | call callee' calleeSpan' args' span' symbol' =>
      have hf := Expr.resolveFunction?_ne_none (hfound _ he)
      rw [Expr.resolved, orElse_of_ne_none hf] at hr
      obtain ⟨rfl, rfl, rfl, rfl, rfl⟩ := Expr.call.inj hr
      rw [Expr.length_resolvedAll]
      exact ⟨rfl, hf⟩
    | _ => simp [Expr.resolved] at hr

namespace Program

variable {p q : Program} {types : TypeRegistry} {t : SymbolTable}

theorem analyzeWith_eq_of_toOption (hq : (p.analyzeWith types).1 = q)
    (ht : (p.analyzeWith types).2.toOption = some t) : p.analyzeWith types = (q, .ok t) :=
  eq_ok_of_toOption hq ht

theorem analyzeWith_of_declare_error {errors : List SemanticError}
    (h : p.declare types = (q, .error errors)) :
    p.analyzeWith types = (q, .error (.declaring errors)) := by
  rw [analyzeWith, h]

theorem analyzeWith_of_declare_ok (h : p.declare types = (q, .ok t)) :
    p.analyzeWith types =
      ((q.resolve t).1,
        if (q.resolve t).2 = [] then .ok t else .error (.resolving (q.resolve t).2)) := by
  rcases hr : q.resolve t with ⟨r, _ | ⟨e, errors⟩⟩ <;> simp [analyzeWith, h, hr]

theorem analyzeWith_eq_ok (h : p.analyzeWith types = (q, .ok t)) :
    ∃ r, p.declare types = (r, .ok t) ∧
      q = r.withDefinitions (r.unit.definitions.map (·.resolved t)) ∧
        ∀ d ∈ r.unit.definitions, d.missing t = [] := by
  unfold analyzeWith at h
  split at h
  · cases h
  next r t' hr =>
    rw [resolve_eq] at h
    split at h
    next r' hm =>
      cases h
      obtain ⟨hq, hm⟩ := Prod.mk.inj hm
      exact ⟨r, hr, hq.symm, List.flatMap_eq_nil_iff.mp hm⟩
    · cases h

/-- What holds of a program and its table after analysis. -/
theorem analyzeWith_ok (h : p.analyzeWith types = (q, .ok t)) :
    ({ types } : SymbolTable).Fills t q.unit.slots ∧
      (∀ d ∈ q.unit.declarations, t.HasFunction d.symbol) ∧
        ∀ d ∈ q.unit.definitions, t.Settled d := by
  obtain ⟨r, hr, rfl, hm⟩ := analyzeWith_eq_ok h
  obtain ⟨hfills, hdeclared, hdefined⟩ := declare_ok hr
  refine ⟨?_, hdeclared, List.forall_mem_map.mpr fun d hd => (hdefined d hd).settled (hm d hd)⟩
  simpa [withDefinitions, SourceUnit.slots, List.flatMap_map, FunctionDefinition.slots_resolved]
    using hfills

end Program

end MiniC
