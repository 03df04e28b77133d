import MiniC.Proofs.Scope.Checked
import MiniC.Proofs.Scope.Handles

/-! # What resolution reports

Resolution against any table whose handles are in range and whose functions all stand in the
global scope, whether analysis made the table or not. Every reference that is not found is
reported once, in the order of the walk, and every other one is bound to what was found, whatever
else failed. In such a table a lookup takes at most one step outwards.
-/

namespace MiniC

open Relabelling (unbound)

namespace SymbolTable

variable {t : SymbolTable}

/-- All functions stand in the global scope. -/
def Shallow (t : SymbolTable) : Prop :=
  ∀ id f, t.getFunction? id = some f → f.enclosing = .global

/-- The variable of a name in one scope: the local one, or else the first parameter. -/
def variableIn? (t : SymbolTable) (name : String) : ScopeId → Option VarId
  | .global => none
  | .function id => (t.getFunction? id).bind fun f =>
    f.locals.get? name <|> f.params.find? (t.isNamed name)

/-- The function that a call in a scope means; there is none in the scope of no function. -/
def functionIn? (t : SymbolTable) (name : String) (arity : Nat) : ScopeId → Option FuncId
  | .global => t.findOverload? name arity
  | .function id => (t.getFunction? id).bind fun _ => t.findOverload? name arity

theorem Shallow.resolveVariable?_eq (h : t.Shallow) (scope : ScopeId) (name : String) :
    t.resolveVariable? scope name = t.variableIn? name scope := by
  cases scope with
  | global => rfl
  | function id =>
    rw [resolveVariable?, depth, resolveVariableWithin, variableIn?]
    cases hf : t.getFunction? id with
    | none => rfl
    | some f =>
      rw [Option.bind_some]
      dsimp only
      rw [h id f hf, resolveVariableWithin]
      cases f.locals.get? name <;> cases f.params.find? (t.isNamed name) <;> rfl

theorem Shallow.resolveFunction?_eq (h : t.Shallow) (scope : ScopeId) (name : String)
    (arity : Nat) : t.resolveFunction? scope name arity = t.functionIn? name arity scope := by
  cases scope with
  | global => rfl
  | function id =>
    rw [resolveFunction?, depth, resolveFunctionWithin, functionIn?]
    cases hf : t.getFunction? id with
    | none => rfl
    | some f =>
      rw [Option.bind_some]
      dsimp only
      rw [h id f hf, resolveFunctionWithin]

theorem InRange.exists_variable (h : t.InRange) {scope : ScopeId} {name : String} {v : VarId}
    (hv : t.variableIn? name scope = some v) : ∃ x, t.getVariable? v = some x := by
  cases scope with
  | global => cases hv
  | function id =>
    obtain ⟨f, hf, hv⟩ := Option.bind_eq_some_iff.mp hv
    cases hlocal : f.locals.get? name with
    | some w =>
      rw [hlocal] at hv
      obtain rfl := Option.some.inj hv
      exact exists_variable_of_lt ((h.encloses hf).locals name w hlocal)
    | none =>
      rw [hlocal] at hv
      exact exists_variable_of_lt ((h.encloses hf).params v (List.mem_of_find?_eq_some hv))

end SymbolTable

/-- The identifiers and calls of a definition, after resolution from its scope. -/
structure FunctionDefinition.Rebound (t : SymbolTable) (d e : FunctionDefinition) : Prop where
  symbol : e.symbol = d.symbol
  identifier : ∀ (k : Nat) (name : String) (span : Span) (symbol : Option VarId),
    d.body.parts[k]? = some (.identifier name span symbol) →
      e.body.parts[k]?
        = some (.identifier name span (t.resolveVariable? d.scope name <|> symbol))
  call : ∀ (k : Nat) (callee : String) (calleeSpan : Span) (args : List Expr) (span : Span)
    (symbol : Option FuncId), d.body.parts[k]? = some (.call callee calleeSpan args span symbol) →
      ∃ args', e.body.parts[k]? = some (.call callee calleeSpan args' span
        (t.resolveFunction? d.scope callee args.length <|> symbol))

/-- All that resolution of a program against a table does. -/
structure Program.Resolution (t : SymbolTable) (p q : Program) (errors : List SemanticError) :
    Prop where
  /-- No lookup of the walk goes through a dangling handle. -/
  checked : p.resolveChecked t = .ok (q, errors)
  reported : errors = p.unit.definitions.flatMap (·.missing t)
  accepted : errors = [] ↔ ∀ d ∈ p.unit.definitions, d.symbol ≠ none ∧
    ∀ e ∈ d.body.parts, e.missing? t d.scope = none
  rebound : ∀ (j : Nat) (d : FunctionDefinition), p.unit.definitions[j]? = some d →
    ∃ e, q.unit.definitions[j]? = some e ∧ d.Rebound t e
  /-- Nothing else changes. -/
  relabel : q.relabel unbound = p.relabel unbound
  /-- The outcome of an analysis that comes to this table. -/
  analyzed : ∀ (r : Program) (types : TypeRegistry), r.declare types = (p, .ok t) →
    r.analyzeWith types = (q, if errors = [] then .ok t else .error (.resolving errors))

/-- What the lookups of resolution find. -/
structure SymbolTable.Lookups (t : SymbolTable) : Prop where
  checked : ∀ (scope : ScopeId) (name : String),
    t.lookUpVariable scope name = .ok (t.resolveVariable? scope name)
  inScope : ∀ (scope : ScopeId) (name : String),
    t.resolveVariable? scope name = t.variableIn? name scope
  functions : ∀ (scope : ScopeId) (name : String) (arity : Nat),
    t.resolveFunction? scope name arity = t.functionIn? name arity scope
  found : ∀ (scope : ScopeId) (name : String) (v : VarId),
    t.resolveVariable? scope name = some v → ∃ x, t.getVariable? v = some x

theorem FunctionDefinition.rebound_resolved (t : SymbolTable) (d : FunctionDefinition) :
    d.Rebound t (d.resolved t) := by
  have hparts : ∀ k : Nat, (d.resolved t).body.parts[k]?
      = (d.body.parts[k]?).map (·.resolved t d.scope) := by
    intro k
    rw [resolved, FunctionBody.parts_resolved, List.getElem?_map]
  constructor
  · rfl
  · intro k name span symbol hx
    rw [hparts, hx, Option.map_some, Expr.resolved]
  · intro k callee calleeSpan args span symbol hx
    rw [hparts, hx, Option.map_some, Expr.resolved]
    exact ⟨_, rfl⟩

namespace SymbolTable

variable {t : SymbolTable}

theorem InRange.lookups (h : t.InRange) (hshallow : t.Shallow) : t.Lookups where
  checked := h.lookUpVariable_eq
  inScope := hshallow.resolveVariable?_eq
  functions := hshallow.resolveFunction?_eq
  found scope name v hv := by
    rw [hshallow.resolveVariable?_eq] at hv
    exact h.exists_variable hv

end SymbolTable

namespace Program

variable {t : SymbolTable}

/-- Resolution reports every reference that is not found, in the order of the walk, and binds all
others. -/
theorem exists_resolution (hrange : t.InRange) (hshallow : t.Shallow) (p : Program) :
    t.Lookups ∧ ∃ q errors, p.resolve t = (q, errors) ∧ Resolution t p q errors := by
  refine ⟨hrange.lookups hshallow, _, _, p.resolve_eq t, ?_⟩
  constructor
  · rw [resolveChecked_eq hrange, resolve_eq]
  · rfl
  · simp [FunctionDefinition.missing, FunctionDefinition.scopeless?]
  · intro j d hd
    refine ⟨d.resolved t, ?_, d.rebound_resolved t⟩
    simp [withDefinitions, hd]
  · exact p.relabel_resolved t
  · intro r types hr
    rw [analyzeWith, hr]
    dsimp only
    rw [resolve_eq]
    cases p.unit.definitions.flatMap (·.missing t) <;> rfl

/-- The program of `merging` with a function `f` that has no scope. -/
def scopeless (call : Option FuncId) : Program :=
  merging none (some ⟨1⟩) (some ⟨2⟩) call none none none none none

/-- The variable `z` of the function without a scope is missing; the call before it is bound. -/
theorem exists_resolution_scopeless :
    SymbolTable.merging.InRange ∧ SymbolTable.merging.Shallow ∧
      ∃ q errors, (scopeless none).resolveChecked .merging = .ok (q, errors) ∧
        q = scopeless (some ⟨0⟩) ∧
        errors = [⟨.internal "definition of `f` has no scope", "f", .dummy⟩,
          ⟨.undeclaredVariable, "z", .dummy⟩] := by
  have hrange : SymbolTable.merging.InRange := inRange_of_declare declare_merging
  obtain ⟨-, hlists⟩ := declare_lists declare_merging (by decide)
  have hshallow : SymbolTable.merging.Shallow := fun id f hf => (hlists.flat id f hf).1
  obtain ⟨-, q, errors, hq, hresolution⟩ := exists_resolution hrange hshallow (scopeless none)
  have hresolve : (scopeless none).resolve .merging = (scopeless (some ⟨0⟩),
      [⟨.internal "definition of `f` has no scope", "f", .dummy⟩,
        ⟨.undeclaredVariable, "z", .dummy⟩]) := by
    rw [resolve_eq]
    decide +kernel
  obtain ⟨hq, herrors⟩ := Prod.mk.inj (hq.symm.trans hresolve)
  exact ⟨hrange, hshallow, q, errors, hresolution.checked, hq, herrors⟩

end Program

end MiniC
