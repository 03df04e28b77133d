import MiniC.Proofs.Grammar.Sentence
import MiniC.Proofs.Scope.Analysis
import MiniC.Proofs.Scope.Binding
import MiniC.Proofs.Scope.Checked
import MiniC.Proofs.Scope.Overwriting
import MiniC.Proofs.Tree.Visited

/-! # What code generation can rely on

After analysis, the nodes that the walk reaches carry handles of the table: items, parameters of
prototypes, variables, identifiers and calls. A parameter that stands in the place of an
expression keeps the handle it came with, since no walk binds it there. The parser makes no such
tree, so for its programs nothing is left unbound.
-/

namespace MiniC

namespace SymbolTable

variable {t : SymbolTable} {name : String} {arity : Nat}

/-- What a search for a variable finds is in the table, also if it is not what was declared. -/
theorem InRange.hasVariable_resolveVariableWithin (h : t.InRange) (fuel : Nat) (scope : ScopeId)
    (hfound : t.resolveVariableWithin name fuel scope ≠ none) :
    t.HasVariable (t.resolveVariableWithin name fuel scope) := by
  have hvariable : ∀ {v : VarId}, v.index < t.vars.size → t.HasVariable (some v) := by
    intro v hv
    obtain ⟨x, hx⟩ := exists_variable_of_lt hv
    exact ⟨v, x, rfl, hx⟩
  induction fuel generalizing scope with
  | zero => cases scope <;> exact absurd rfl hfound
  | succ fuel ih =>
    cases scope with
    | global => exact absurd rfl hfound
    | function id =>
      rw [resolveVariableWithin] at hfound ⊢
      cases hf : t.getFunction? id with
      | none => simp [hf] at hfound
      | some f =>
        rw [hf] at hfound
        dsimp only at hfound ⊢
        have hencloses := h.encloses hf
        cases hlocal : f.locals.get? name with
        | some v => exact hvariable (hencloses.locals name v hlocal)
        | none =>
          cases hparam : f.params.find? (t.isNamed name) with
          | some v => exact hvariable (hencloses.params v (List.mem_of_find?_eq_some hparam))
          | none =>
            rw [hlocal, hparam] at hfound
            exact ih f.enclosing hfound

theorem hasFunction_findOverload? (h : t.findOverload? name arity ≠ none) :
    t.HasFunction (t.findOverload? name arity) := by
  obtain ⟨id, hid⟩ := Option.ne_none_iff_exists'.mp h
  obtain ⟨f, hf⟩ := exists_function_of_findIdx? hid
  exact ⟨id, f, hid, hf⟩

theorem hasFunction_resolveFunctionWithin (fuel : Nat) (scope : ScopeId)
    (hfound : t.resolveFunctionWithin name arity fuel scope ≠ none) :
    t.HasFunction (t.resolveFunctionWithin name arity fuel scope) := by
  induction fuel generalizing scope with
  | zero =>
    cases scope with
    | global => exact hasFunction_findOverload? hfound
    | function => exact absurd rfl hfound
  | succ fuel ih =>
    cases scope with
    | global => exact hasFunction_findOverload? hfound
    | function id =>
      rw [resolveFunctionWithin] at hfound ⊢
      cases hf : t.getFunction? id with
      | none => simp [hf] at hfound
      | some f =>
        rw [hf] at hfound
        exact ih f.enclosing hfound

end SymbolTable

/-- A node that is to be bound carries a handle of the table. -/
def Node.Bound (t : SymbolTable) : Node → Prop
  | .declaration d => t.HasFunction d.symbol
  | .definition d => t.HasFunction d.symbol
  | .decl d => t.HasVariable d.symbol
  | .parameter p => t.HasVariable p.symbol
  | .expr (.identifier _ _ symbol) => t.HasVariable symbol
  | .expr (.call _ _ _ _ symbol) => t.HasFunction symbol
  | _ => True

def Expr.parameter? : Expr → Option Parameter
  | .parameter p => some p
  | _ => none

def SourceUnit.parameterExprs (u : SourceUnit) : List Parameter :=
  u.definitions.flatMap fun d => d.body.parts.filterMap (·.parameter?)

theorem SourceUnit.mem_parameterExprs_iff {u : SourceUnit} {x : Parameter} :
    x ∈ u.parameterExprs ↔ ∃ d ∈ u.definitions, .parameter x ∈ d.body.parts := by
  have hparameter : ∀ e : Expr, e.parameter? = some x ↔ e = .parameter x := by
    intro e
    cases e <;> simp [Expr.parameter?]
  simp [parameterExprs, hparameter]

theorem Program.parameter_mem_visited {p : Program} {x : Parameter}
    (h : x ∈ p.unit.parameterExprs) : .parameter x ∈ p.visited := by
  obtain ⟨d, hd, hx⟩ := SourceUnit.mem_parameterExprs_iff.mp h
  have hnode : .parameter x ∈ d.body.nodes := d.body.node_mem_nodes hx
  have hdefinition : .parameter x ∈ d.nodes :=
    List.mem_cons_of_mem _ (List.mem_append_right _ hnode)
  rw [visited_eq_nodes]
  exact List.mem_cons_of_mem _ (List.mem_cons_of_mem _
    (List.mem_append_right _ (List.mem_flatMap.mpr ⟨d, hd, hdefinition⟩)))

theorem Expr.parameter?_resolved (t : SymbolTable) (scope : ScopeId) (e : Expr) :
    (e.resolved t scope).parameter? = e.parameter? := by
  cases e <;> simp [resolved, parameter?]

namespace Declaring

open Visitor

theorem bindStmt_parts (stmt : Stmt) (s : Declaring) : (bindStmt stmt s).1.parts = stmt.parts := by
  cases stmt <;> rfl

theorem bindBody_parts (b : FunctionBody) (s : Declaring) : (bindBody b s).1.parts = b.parts := by
  have hparts := map_walkList (·.parts) bindStmt_parts b.statements
    (walkList bindVariable b.locals s).2
  exact congrArg List.flatten hparts

theorem declareDefinition_parts (d : FunctionDefinition) (s : Declaring) :
    (declareDefinition d s).1.body.parts = d.body.parts := by
  rw [declareDefinition]
  dsimp only
  rw [bindBody_parts, bindDefinition_body]

end Declaring

theorem SourceUnit.parameterExprs_eq (u : SourceUnit) :
    u.parameterExprs = (u.definitions.map (·.body.parts)).flatMap fun es =>
      es.filterMap (·.parameter?) := by
  rw [parameterExprs, List.flatMap_map]

namespace Grammar

variable {r : Rank} {ks : List TokenKind} {e : Expr}

theorem Derives.parameter_not_mem (h : Derives r ks e) (x : Parameter) :
    .parameter x ∉ e.parts := by
  induction h with
  | assign _ _ _ _ ih => simpa [Expr.parts] using ih
  | ofAdditive _ ih => exact ih
  | sum _ _ _ _ ih ih' => simpa [Expr.parts] using ⟨ih, ih'⟩
  | ofMultiplicative _ ih => exact ih
  | product _ _ _ _ ih ih' => simpa [Expr.parts] using ⟨ih, ih'⟩
  | ofCall _ ih => exact ih
  | call _ _ _ args _ ih =>
    simp only [Expr.parts, Expr.partsAll_eq_flatMap, List.mem_cons, List.mem_flatMap,
      List.mem_map, reduceCtorEq, false_or]
    rintro ⟨-, ⟨a, ha, rfl⟩, hx⟩
    exact ih a ha hx
  | ofPrimary _ ih => exact ih
  | identifier => simp [Expr.parts]
  | number => simp [Expr.parts]
  | group _ ih => exact ih

theorem DerivesStmt.parameter_not_mem {stmt : Stmt} (h : DerivesStmt ks stmt) (x : Parameter) :
    .parameter x ∉ stmt.parts := by
  cases h with
  | ret span he => exact he.parameter_not_mem x
  | expr he => exact he.parameter_not_mem x

theorem DerivesBody.parameter_not_mem {b : FunctionBody} (h : DerivesBody ks b) (x : Parameter) :
    .parameter x ∉ b.parts := by
  obtain ⟨span, locals, ss, -, hss⟩ := h
  simp only [FunctionBody.parts, List.mem_flatMap, List.mem_map]
  rintro ⟨-, ⟨a, ha, rfl⟩, hx⟩
  exact (hss a ha).parameter_not_mem x hx

theorem DerivesUnit.parameterExprs_eq_nil {u : SourceUnit} (h : DerivesUnit ks u) :
    u.parameterExprs = [] := by
  refine List.eq_nil_iff_forall_not_mem.mpr fun x hx => ?_
  rw [SourceUnit.mem_parameterExprs_iff] at hx
  induction h with
  | nil => simp at hx
  | declaration _ _ ih => exact ih hx
  | definition hd _ ih =>
    obtain ⟨span, -, hb⟩ := hd
    obtain ⟨d, hd, hx⟩ := hx
    rcases List.mem_cons.mp hd with rfl | hd
    · exact hb.parameter_not_mem x hx
    · exact ih ⟨d, hd, hx⟩

end Grammar

namespace Program

variable {p q : Program} {types : TypeRegistry} {t : SymbolTable}

theorem node_bound_of_mem_parts (h : p.analyzeWith types = (q, .ok t)) {d : FunctionDefinition}
    (hd : d ∈ q.unit.definitions) {e : Expr} (he : e ∈ d.body.parts) :
    e.node.Bound t ∨ ∃ x, e = .parameter x := by
  obtain ⟨-, -, hsettled⟩ := analyzeWith_ok h
  obtain ⟨r, hr, -, -⟩ := analyzeWith_eq_ok h
  have hs := hsettled d hd
  cases e with
  | identifier name span symbol =>
    obtain ⟨rfl, hne⟩ := hs.identifier name span symbol he
    exact Or.inl ((inRange_of_declare hr).hasVariable_resolveVariableWithin _ _ hne)
  | number => exact Or.inl trivial
  | parameter x => exact Or.inr ⟨x, rfl⟩
  | binary => exact Or.inl trivial
  | call callee calleeSpan args span symbol =>
    obtain ⟨rfl, hne⟩ := hs.call callee calleeSpan args span symbol he
    exact Or.inl (SymbolTable.hasFunction_resolveFunctionWithin _ _ hne)

theorem node_bound_of_mem_nodes (h : p.analyzeWith types = (q, .ok t)) {n : Node}
    (hn : n ∈ q.nodes) : n.Bound t ∨ ∃ x ∈ q.unit.parameterExprs, n = .parameter x := by
  obtain ⟨hfills, hdeclared, hsettled⟩ := analyzeWith_ok h
  have hvar : ∀ slot ∈ q.unit.slots, t.HasVariable slot.symbol := fun _ => hfills.hasVariable
  simp only [nodes, SourceUnit.nodes, List.mem_cons, List.mem_append, List.mem_flatMap] at hn
  rcases hn with rfl | rfl | ⟨d, hd, hn⟩ | ⟨d, hd, hn⟩
  · exact Or.inl trivial
  · exact Or.inl trivial
  · have hslots : ∀ slot ∈ d.slots, slot ∈ q.unit.slots := fun _ hslot =>
      List.mem_append_left _ (List.mem_flatMap.mpr ⟨d, hd, hslot⟩)
    simp only [FunctionDeclaration.nodes, Prototype.nodes, List.mem_cons, List.mem_map] at hn
    rcases hn with rfl | rfl | ⟨x, hx, rfl⟩
    · exact Or.inl (hdeclared d hd)
    · exact Or.inl trivial
    · exact Or.inl (hvar _ (hslots _ (List.mem_map_of_mem hx)))
  · have hslots : ∀ slot ∈ d.slots, slot ∈ q.unit.slots := fun _ hslot =>
      List.mem_append_right _ (List.mem_flatMap.mpr ⟨d, hd, hslot⟩)
    simp only [FunctionDefinition.nodes, Prototype.nodes, List.mem_cons, List.mem_append,
      List.mem_map] at hn
    rcases hn with rfl | (rfl | ⟨x, hx, rfl⟩) | hn
    · exact Or.inl (hsettled d hd).registers.function
    · exact Or.inl trivial
    · exact Or.inl (hvar _ (hslots _ (d.slot_mem_of_param hx)))
    · rcases FunctionBody.mem_nodes hn with rfl | ⟨v, hv, rfl⟩ | ⟨value, span, rfl⟩ | ⟨e, he, rfl⟩
      · exact Or.inl trivial
      · exact Or.inl (hvar _ (hslots _ (d.slot_mem_of_variable hv)))
      · exact Or.inl trivial
      · rcases node_bound_of_mem_parts h hd he with hb | ⟨x, rfl⟩
        · exact Or.inl hb
        · exact Or.inr ⟨x, SourceUnit.mem_parameterExprs_iff.mpr ⟨d, hd, he⟩, rfl⟩

/-- Analysis neither adds nor changes such parameters. -/
theorem parameterExprs_of_analyzeWith (h : p.analyzeWith types = (q, .ok t)) :
    q.unit.parameterExprs = p.unit.parameterExprs := by
  obtain ⟨r, hr, rfl, -⟩ := analyzeWith_eq_ok h
  obtain ⟨s, hw, -⟩ := declare_eq_ok hr
  have hresolved : ∀ d : FunctionDefinition,
      (d.resolved t).body.parts.filterMap (·.parameter?)
        = d.body.parts.filterMap (·.parameter?) := by
    intro d
    rw [FunctionDefinition.resolved, FunctionBody.parts_resolved, List.filterMap_map]
    exact congrArg (List.filterMap · _) (funext fun e => e.parameter?_resolved t d.scope)
  have hresolve : (r.withDefinitions (r.unit.definitions.map (·.resolved t))).unit.parameterExprs
      = r.unit.parameterExprs := by
    simp [SourceUnit.parameterExprs, withDefinitions, List.flatMap_map, hresolved]
  rw [Declaring.walk_eq] at hw
  obtain ⟨rfl, -⟩ := Prod.mk.inj hw
  rw [hresolve, SourceUnit.parameterExprs_eq, SourceUnit.parameterExprs_eq]
  exact congrArg (List.flatMap _) (Visitor.map_walkList _ Declaring.declareDefinition_parts _ _)

theorem parameterExprs_of_ofSource {source name : String} (h : ofSource source name = .ok p) :
    p.unit.parameterExprs = [] := by
  obtain ⟨ks, hks⟩ := Token.lex_closes source
  exact (derivesUnit_of_parse hks h).parameterExprs_eq_nil

/-- All nodes that the walk reaches are bound to symbols of the table, just if all parameters in
the place of expressions were so before; all other nodes are bound in any case. So nothing is left
unbound in a program that was read from a source. -/
theorem visited_bound_iff (h : p.analyzeWith types = (q, .ok t)) :
    ((∀ n ∈ q.visited, n.Bound t) ↔ ∀ x ∈ p.unit.parameterExprs, t.HasVariable x.symbol) ∧
      (∀ n ∈ q.visited, n.Bound t ∨ ∃ x ∈ p.unit.parameterExprs, n = .parameter x) ∧
      ∀ source name, ofSource source name = .ok p → ∀ n ∈ q.visited, n.Bound t := by
  have hnodes : ∀ n ∈ q.visited, n.Bound t ∨ ∃ x ∈ p.unit.parameterExprs, n = .parameter x := by
    intro n hn
    rw [visited_eq_nodes] at hn
    rw [← parameterExprs_of_analyzeWith h]
    exact node_bound_of_mem_nodes h hn
  refine ⟨⟨fun hb x hx => ?_, fun hx n hn => ?_⟩, hnodes, fun source name hs n hn => ?_⟩
  · rw [← parameterExprs_of_analyzeWith h] at hx
    exact hb (.parameter x) (q.parameter_mem_visited hx)
  · rcases hnodes n hn with hb | ⟨x, hmem, rfl⟩
    · exact hb
    · exact hx x hmem
  · rcases hnodes n hn with hb | ⟨x, hmem, rfl⟩
    · exact hb
    · rw [parameterExprs_of_ofSource hs] at hmem
      cases hmem

/-- A function that returns the node of its parameter, which carries a handle of its own. -/
def returning (symbol : Option FuncId) (param returned : Option VarId) : Program where
  name := "m"
  unit :=
    { definitions := [{
        prototype := ⟨⟨"int", .dummy⟩, "f", .dummy, [⟨⟨"int", .dummy⟩, "a", .dummy, .dummy, param⟩],
          .dummy⟩
        body := ⟨[], [.ret (.parameter ⟨⟨"int", .dummy⟩, "a", .dummy, .dummy, returned⟩) .dummy],
          .dummy⟩
        span := .dummy
        symbol := symbol }]
      globalScope := symbol.map fun _ => .global }

/-- Analysis accepts this function, and the handle of the returned node stays as it was. -/
theorem analyze_returning (returned : Option VarId) :
    ∃ t, analyze (returning none none returned)
        = (returning (some ⟨0⟩) (some ⟨0⟩) returned, .ok t) ∧ t.HasVariable (some ⟨0⟩) := by
  refine ⟨{
    functions := #[⟨"f", .int, [⟨0⟩], .empty, false, .global, .definition 0, .dummy,
      "int f(int a)"⟩]
    vars := #[⟨"a", .int, .dummy, ⟨0⟩⟩]
    types := .builtin }, ?_, ⟨0⟩, _, rfl, rfl⟩
  apply analyzeWith_eq_of_toOption
  · simp only [analyzeWith, declare, Declaring.walk_eq, resolve_eq]
    with_unfolding_all rfl
  · simp only [analyzeWith, declare, Declaring.walk_eq, resolve_eq]
    with_unfolding_all rfl

theorem visited_bound_returning :
    ∃ q t, analyze (returning none none (some ⟨0⟩)) = (q, .ok t) ∧ ∀ n ∈ q.visited, n.Bound t := by
  obtain ⟨t, h, ht⟩ := analyze_returning (some ⟨0⟩)
  refine ⟨_, t, h, (visited_bound_iff h).1.mpr fun x hx => ?_⟩
  obtain rfl := List.mem_singleton.mp hx
  exact ht

/-- Without such a handle, the returned node is not bound to a symbol of the table. -/
theorem returned_parameter_not_bound :
    ∃ q t, analyze (returning none none none) = (q, .ok t) ∧ ∃ n ∈ q.visited, ¬n.Bound t := by
  obtain ⟨t, h, -⟩ := analyze_returning none
  refine ⟨_, t, h, _, parameter_mem_visited (List.mem_singleton.mpr rfl), ?_⟩
  rintro ⟨id, -, hid, -⟩
  cases hid

end Program

end MiniC
