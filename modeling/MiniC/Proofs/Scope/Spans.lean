import MiniC.Proofs.Scope.Analysis
import MiniC.Proofs.Scope.Overwriting

/-! # Spans do not matter

Analysis puts the spans of a program into its symbol table and its errors, and never looks at one.
A change of all spans before analysis is therefore the same change after it: handles are attached
alike, the same errors are found, and the tables differ in spans alone.
-/

namespace MiniC

open Relabelling (respan)

def VariableSymbol.mapSpan (f : Span → Span) (v : VariableSymbol) : VariableSymbol :=
  { v with span := f v.span }

def FunctionSymbol.mapSpan (f : Span → Span) (g : FunctionSymbol) : FunctionSymbol :=
  { g with span := f g.span }

namespace SymbolTable

def mapSpans (f : Span → Span) (t : SymbolTable) : SymbolTable :=
  { t with functions := t.functions.map (·.mapSpan f), vars := t.vars.map (·.mapSpan f) }

variable (f : Span → Span) (t : SymbolTable)

@[simp] theorem types_mapSpans : (t.mapSpans f).types = t.types := rfl

@[simp] theorem depth_mapSpans : (t.mapSpans f).depth = t.depth := by
  simp [depth, mapSpans]

@[simp] theorem getFunction?_mapSpans (id : FuncId) :
    (t.mapSpans f).getFunction? id = (t.getFunction? id).map (·.mapSpan f) := by
  simp [getFunction?, mapSpans]

@[simp] theorem isNamed_mapSpans (name : String) (id : VarId) :
    (t.mapSpans f).isNamed name id = t.isNamed name id := by
  simp [isNamed, getVariable?, mapSpans, VariableSymbol.mapSpan, Option.any_map]

@[simp] theorem findFunction?_mapSpans (name : String) :
    (t.mapSpans f).findFunction? name = t.findFunction? name := by
  rw [findFunction?, findFunction?, mapSpans, Array.findIdx?_map]
  rfl

@[simp] theorem findOverload?_mapSpans (name : String) (arity : Nat) :
    (t.mapSpans f).findOverload? name arity = t.findOverload? name arity := by
  rw [findOverload?, findOverload?, mapSpans, Array.findIdx?_map]
  rfl

theorem resolveVariableWithin_mapSpans (name : String) (fuel : Nat) (scope : ScopeId) :
    (t.mapSpans f).resolveVariableWithin name fuel scope
      = t.resolveVariableWithin name fuel scope := by
  induction fuel generalizing scope with
  | zero => cases scope <;> rfl
  | succ fuel ih =>
    cases scope with
    | global => rfl
    | function id =>
      rw [resolveVariableWithin, resolveVariableWithin, getFunction?_mapSpans]
      cases t.getFunction? id with
      | none => rfl
      | some g =>
        have hnamed : (t.mapSpans f).isNamed name = t.isNamed name :=
          funext (isNamed_mapSpans f t name)
        simp only [Option.map_some, FunctionSymbol.mapSpan, hnamed, ih]

@[simp] theorem resolveVariable?_mapSpans (scope : ScopeId) (name : String) :
    (t.mapSpans f).resolveVariable? scope name = t.resolveVariable? scope name := by
  rw [resolveVariable?, resolveVariable?, resolveVariableWithin_mapSpans, depth_mapSpans]

theorem resolveFunctionWithin_mapSpans (name : String) (arity fuel : Nat) (scope : ScopeId) :
    (t.mapSpans f).resolveFunctionWithin name arity fuel scope
      = t.resolveFunctionWithin name arity fuel scope := by
  induction fuel generalizing scope with
  | zero =>
    cases scope with
    | global => exact findOverload?_mapSpans f t name arity
    | function id => rfl
  | succ fuel ih =>
    cases scope with
    | global => exact findOverload?_mapSpans f t name arity
    | function id =>
      rw [resolveFunctionWithin, resolveFunctionWithin, getFunction?_mapSpans]
      cases t.getFunction? id with
      | none => rfl
      | some g => simp [FunctionSymbol.mapSpan, ih]

@[simp] theorem resolveFunction?_mapSpans (scope : ScopeId) (name : String) (arity : Nat) :
    (t.mapSpans f).resolveFunction? scope name arity = t.resolveFunction? scope name arity := by
  rw [resolveFunction?, resolveFunction?, resolveFunctionWithin_mapSpans, depth_mapSpans]

theorem addFunction_mapSpans (g : FunctionSymbol) :
    (t.mapSpans f).addFunction (g.mapSpan f) = (t.addFunction g).map id (·.mapSpans f) := by
  simp [addFunction, mapSpans, Prod.map]

theorem addVariable_mapSpans (v : VariableSymbol) :
    (t.mapSpans f).addVariable (v.mapSpan f) = (t.addVariable v).map id (·.mapSpans f) := by
  simp [addVariable, mapSpans, Prod.map]

theorem modifyFunction_mapSpans {g g' : FunctionSymbol → FunctionSymbol}
    (h : ∀ a, g' (a.mapSpan f) = (g a).mapSpan f) (id : FuncId) :
    (t.mapSpans f).modifyFunction id g' = (t.modifyFunction id g).mapSpans f := by
  have hfunctions : (t.functions.map (·.mapSpan f)).modify id.index g'
      = (t.functions.modify id.index g).map (·.mapSpan f) := by
    apply Array.ext_getElem?
    intro i
    rw [Array.getElem?_modify, Array.getElem?_map, Array.getElem?_map, Array.getElem?_modify]
    cases t.functions[i]? <;> split <;> simp [h]
  simp only [modifyFunction, mapSpans, hfunctions]

end SymbolTable

def SemanticErrorKind.mapSpan (f : Span → Span) : SemanticErrorKind → SemanticErrorKind
  | .duplicateDefinition previousSpan previousSignature =>
    .duplicateDefinition (f previousSpan) previousSignature
  | .undeclaredVariable => .undeclaredVariable
  | .undeclaredFunction arity => .undeclaredFunction arity
  | .unknownType => .unknownType
  | .internal message => .internal message

namespace SemanticError

def mapSpan (f : Span → Span) (e : SemanticError) : SemanticError where
  kind := e.kind.mapSpan f
  name := e.name
  span := f e.span

variable (f : Span → Span) (e : SemanticError)

theorem code_toDiagnostic_mapSpan : (e.mapSpan f).toDiagnostic.code = e.toDiagnostic.code := by
  obtain ⟨kind, name, span⟩ := e
  cases kind <;> rfl

theorem message_toDiagnostic_mapSpan :
    (e.mapSpan f).toDiagnostic.message = e.toDiagnostic.message := by
  obtain ⟨kind, name, span⟩ := e
  cases kind <;> rfl

end SemanticError

def AnalysisError.mapSpans (f : Span → Span) : AnalysisError → AnalysisError
  | declaring errors => declaring (errors.map (·.mapSpan f))
  | resolving errors => resolving (errors.map (·.mapSpan f))

namespace Declaring

open Visitor

def mapSpans (f : Span → Span) (s : Declaring) : Declaring :=
  { s with table := s.table.mapSpans f, errors := s.errors.map (·.mapSpan f) }

variable (f : Span → Span) (s : Declaring)

theorem report_mapSpans (kind : SemanticErrorKind) (name : String) (span : Span) :
    (s.mapSpans f).report (kind.mapSpan f) name (f span)
      = (s.report kind name span).mapSpans f := by
  simp [report, mapSpans, SemanticError.mapSpan]

theorem typeOf_mapSpans (type : TypeName) :
    (s.mapSpans f).typeOf (type.relabel (respan f)) = (s.typeOf type).map id (·.mapSpans f) := by
  simp only [typeOf, mapSpans, SymbolTable.types_mapSpans, TypeName.relabel]
  cases s.table.types.get? type.name with
  | some t => rfl
  | none => exact congrArg _ (s.report_mapSpans f .unknownType type.name type.span)

theorem addFunction_mapSpans (g : FunctionSymbol) :
    (s.mapSpans f).addFunction (g.mapSpan f) = (s.addFunction g).map id (·.mapSpans f) := by
  simp only [addFunction, mapSpans, SymbolTable.addFunction_mapSpans]
  rfl

theorem addVariable_mapSpans (v : VariableSymbol) :
    (s.mapSpans f).addVariable (v.mapSpan f) = (s.addVariable v).map id (·.mapSpans f) := by
  simp only [addVariable, mapSpans, SymbolTable.addVariable_mapSpans]
  rfl

theorem modifyFunction_mapSpans {g g' : FunctionSymbol → FunctionSymbol}
    (h : ∀ a, g' (a.mapSpan f) = (g a).mapSpan f) (id : FuncId) :
    (s.mapSpans f).modifyFunction id g' = (s.modifyFunction id g).mapSpans f := by
  simp only [modifyFunction, mapSpans, s.table.modifyFunction_mapSpans f h]

theorem bindParameter_mapSpans (owner : FuncId) (p : Parameter) (s : List VarId × Declaring) :
    bindParameter owner (p.relabel (respan f)) (s.map id (·.mapSpans f))
      = (bindParameter owner p s).map (·.relabel (respan f)) (·.map id (·.mapSpans f)) := by
  have htype := s.2.typeOf_mapSpans f p.type
  rcases hs : s.2.typeOf p.type with ⟨_ | type, s'⟩
  · simp only [bindParameter, Parameter.relabel, Prod.map, htype, hs]
    rfl
  · have hadd := s'.addVariable_mapSpans f { name := p.name, type, span := p.nameSpan, owner }
    simp only [VariableSymbol.mapSpan] at hadd
    simp only [bindParameter, Parameter.relabel, Prod.map, htype, hs, hadd, id_eq,
      Relabelling.respan_span]
    rfl

theorem bindParameters_mapSpans (owner : FuncId) (p : Prototype) :
    (s.mapSpans f).bindParameters owner (p.relabel (respan f))
      = (s.bindParameters owner p).map (·.relabel (respan f)) (·.map id (·.mapSpans f)) := by
  have hwalk := walkList_map (·.relabel (respan f)) (Prod.map id (·.mapSpans f))
    (bindParameter_mapSpans f owner) p.params ([], s)
  simp only [Prod.map, id_eq] at hwalk
  simp only [bindParameters, Prototype.relabel, Prod.map, hwalk]
  rfl

theorem functionSymbol_respan (p : Prototype) (item : ItemRef) (isDeclaration : Bool)
    (returnType : BuiltinType) (ids : List VarId) :
    (p.relabel (respan f)).functionSymbol item isDeclaration returnType ids
      = (p.functionSymbol item isDeclaration returnType ids).mapSpan f := by
  rw [Prototype.functionSymbol, p.signature_relabel]
  rfl

theorem addItem_mapSpans (p : Prototype) (item : ItemRef) (isDeclaration : Bool) :
    (s.mapSpans f).addItem (p.relabel (respan f)) item isDeclaration
      = (s.addItem p item isDeclaration).map (·.map id (·.relabel (respan f))) (·.mapSpans f) := by
  have htype := s.typeOf_mapSpans f p.returnType
  rcases s.typeOf_cases p.returnType with ⟨returnType, -, hs⟩ | ⟨-, hs⟩
  · rw [hs] at htype
    have hsize : (s.mapSpans f).table.functions.size = s.table.functions.size :=
      Array.size_map
    rw [addItem_of_known htype, addItem_of_known hs, functionSymbol_respan, addFunction_mapSpans,
      hsize]
    simp only [Prod.map, bindParameters_mapSpans, id_eq]
    rw [modifyFunction_mapSpans]
    exact fun _ => rfl
  · rw [hs] at htype
    simp only [addItem, hs]
    rw [Prototype.relabel, htype]
    rfl

theorem bindDeclaration_mapSpans (d : FunctionDeclaration) :
    bindDeclaration (d.relabel (respan f)) (s.mapSpans f)
      = (bindDeclaration d s).map (·.relabel (respan f)) (·.mapSpans f) := by
  have hadd := addItem_mapSpans f { s with declarations := s.declarations + 1 } d.prototype
    (.declaration s.declarations) true
  simp only [mapSpans] at hadd
  simp only [bindDeclaration, mapSpans, FunctionDeclaration.relabel, hadd]
  rfl

theorem addDefinition_mapSpans (d : FunctionDefinition) (item : ItemRef) :
    (s.mapSpans f).addDefinition (d.relabel (respan f)) item
      = (s.addDefinition d item).map (·.relabel (respan f)) (·.mapSpans f) := by
  have hadd := s.addItem_mapSpans f d.prototype item false
  simp only [addDefinition, FunctionDefinition.relabel, hadd, Prod.map, id_eq]
  rfl

theorem mergeDefinition_mapSpans (owner : FuncId) (d : FunctionDefinition) (item : ItemRef) :
    (s.mapSpans f).mergeDefinition owner (d.relabel (respan f)) item
      = (s.mergeDefinition owner d item).map (·.relabel (respan f)) (·.mapSpans f) := by
  have htype : (s.mapSpans f).typeOf (d.relabel (respan f)).prototype.returnType
      = (s.typeOf d.prototype.returnType).map id (·.mapSpans f) :=
    s.typeOf_mapSpans f d.prototype.returnType
  rcases s.typeOf_cases d.prototype.returnType with ⟨returnType, -, hs⟩ | ⟨-, hs⟩
  · rw [hs] at htype
    have hbind := s.bindParameters_mapSpans f owner d.prototype
    have hdefined : ∀ a b : FunctionSymbol,
        (a.mapSpan f).defined (b.mapSpan f) = (a.defined b).mapSpan f := fun _ _ => rfl
    rw [mergeDefinition_of_known htype, mergeDefinition_of_known hs]
    simp only [FunctionDefinition.relabel, hbind, functionSymbol_respan, Prod.map, id_eq]
    rw [modifyFunction_mapSpans f _ fun a => hdefined a _]
    rfl
  · rw [hs] at htype
    simp only [mergeDefinition, hs, htype, Prod.map, id_eq]

theorem bindDefinition_mapSpans (d : FunctionDefinition) :
    bindDefinition (d.relabel (respan f)) (s.mapSpans f)
      = (bindDefinition d s).map (·.relabel (respan f)) (·.mapSpans f) := by
  have hname : (d.relabel (respan f)).name = d.name := rfl
  have hfind : (s.mapSpans f).table.findFunction? d.name = s.table.findFunction? d.name :=
    s.table.findFunction?_mapSpans f d.name
  cases h : s.table.findFunction? d.name with
  | none =>
    simp only [bindDefinition, hname, hfind, h]
    exact addDefinition_mapSpans f { s with definitions := s.definitions + 1 } d _
  | some id =>
    obtain ⟨g, hg⟩ := SymbolTable.exists_function_of_findIdx? h
    have hg' : (s.mapSpans f).table.getFunction? id = some (g.mapSpan f) := by
      rw [mapSpans, SymbolTable.getFunction?_mapSpans, hg, Option.map_some]
    have hdeclared : (g.mapSpan f).isDeclaration = g.isDeclaration := rfl
    simp only [bindDefinition, hname, hfind, h, hg, hg', hdeclared]
    split
    · exact mergeDefinition_mapSpans f { s with definitions := s.definitions + 1 } id d _
    · exact congrArg (d.relabel (respan f), ·)
        (report_mapSpans f { s with definitions := s.definitions + 1 }
          (.duplicateDefinition g.span g.signature) d.name d.prototype.nameSpan)

theorem bindVariable_mapSpans (d : VariableDeclaration) :
    bindVariable (d.relabel (respan f)) (s.mapSpans f)
      = (bindVariable d s).map (·.relabel (respan f)) (·.mapSpans f) := by
  have htype := s.typeOf_mapSpans f d.type
  have hscope : (s.mapSpans f).scope = s.scope := rfl
  cases hs : s.scope with
  | global =>
    simp only [bindVariable, hscope, hs]
    rfl
  | function owner =>
    rcases ht : s.typeOf d.type with ⟨_ | type, s'⟩
    · simp only [bindVariable, VariableDeclaration.relabel, hscope, hs, htype, ht, Prod.map]
      rfl
    · have hadd := s'.addVariable_mapSpans f { name := d.name, type, span := d.nameSpan, owner }
      simp only [VariableSymbol.mapSpan] at hadd
      simp only [bindVariable, VariableDeclaration.relabel, hscope, hs, htype, ht, Prod.map, hadd,
        id_eq, Relabelling.respan_span]
      rw [modifyFunction_mapSpans]
      · rfl
      · exact fun _ => rfl

theorem bindStmt_mapSpans (stmt : Stmt) :
    bindStmt (stmt.relabel (respan f)) (s.mapSpans f)
      = (bindStmt stmt s).map (·.relabel (respan f)) (·.mapSpans f) := by
  cases stmt with
  | decl d =>
    simp only [bindStmt, Stmt.relabel, bindVariable_mapSpans]
    rfl
  | ret value span => rfl
  | expr value => rfl

theorem bindBody_mapSpans (b : FunctionBody) :
    bindBody (b.relabel (respan f)) (s.mapSpans f)
      = (bindBody b s).map (·.relabel (respan f)) (·.mapSpans f) := by
  have hlocals := walkList_map (f := bindVariable) (·.relabel (respan f)) (·.mapSpans f)
    (fun d s => bindVariable_mapSpans f s d) b.locals s
  have hstatements := walkList_map (f := bindStmt) (·.relabel (respan f)) (·.mapSpans f)
    (fun stmt s => bindStmt_mapSpans f s stmt) b.statements (walkList bindVariable b.locals s).2
  simp only [bindBody, FunctionBody.relabel, hlocals, hstatements]
  rfl

theorem declareDefinition_mapSpans (d : FunctionDefinition) :
    declareDefinition (d.relabel (respan f)) (s.mapSpans f)
      = (declareDefinition d s).map (·.relabel (respan f)) (·.mapSpans f) := by
  have hbody := bindBody_mapSpans f (bindDefinition d s).2 (bindDefinition d s).1.body
  simp only [declareDefinition, bindDefinition_mapSpans, Prod.map]
  simp only [FunctionDefinition.relabel, hbody]
  rfl

theorem walk_mapSpans (p : Program) :
    visitor.walk (p.relabel (respan f)) (s.mapSpans f)
      = (visitor.walk p s).map (·.relabel (respan f)) (·.mapSpans f) := by
  have hdeclarations := walkList_map (f := bindDeclaration) (·.relabel (respan f)) (·.mapSpans f)
    (fun d s => bindDeclaration_mapSpans f s d) p.unit.declarations s
  have hdefinitions := walkList_map (f := declareDefinition) (·.relabel (respan f)) (·.mapSpans f)
    (fun d s => declareDefinition_mapSpans f s d) p.unit.definitions
    (walkList bindDeclaration p.unit.declarations s).2
  simp only [walk_eq, Program.relabel, SourceUnit.relabel, hdeclarations, hdefinitions]
  rfl

end Declaring

theorem Expr.missing?_respan (f : Span → Span) (t : SymbolTable) (scope : ScopeId) (e : Expr) :
    (e.relabel (respan f)).missing? (t.mapSpans f) scope
      = (e.missing? t scope).map (·.mapSpan f) := by
  cases e with
  | identifier name span symbol =>
    rw [relabel_identifier, missing?, missing?, SymbolTable.resolveVariable?_mapSpans]
    split <;> rfl
  | call callee calleeSpan args span symbol =>
    rw [relabel_call, missing?, missing?, SymbolTable.resolveFunction?_mapSpans, List.length_map]
    split <;> rfl
  | _ => simp [relabel]

mutual

theorem Expr.resolved_respan (f : Span → Span) (t : SymbolTable) (scope : ScopeId) (e : Expr) :
    (e.relabel (respan f)).resolved (t.mapSpans f) scope
      = (e.resolved t scope).relabel (respan f) := by
  match e with
  | .identifier name span symbol => simp [relabel, resolved]
  | .number value span => simp [relabel, resolved]
  | .parameter p => simp [relabel, resolved]
  | .binary op lhs rhs span =>
    simp [relabel, resolved, resolved_respan f t scope lhs, resolved_respan f t scope rhs]
  | .call callee calleeSpan args span symbol =>
    have hlength : (Expr.relabelAll (respan f) args).length = args.length := by
      simp [relabelAll_eq_map]
    rw [resolved, relabel, relabel, resolved, resolvedAll_respan f t scope args, hlength,
      SymbolTable.resolveFunction?_mapSpans]
    rfl

theorem Expr.resolvedAll_respan (f : Span → Span) (t : SymbolTable) (scope : ScopeId)
    (es : List Expr) :
    Expr.resolvedAll (t.mapSpans f) scope (Expr.relabelAll (respan f) es)
      = Expr.relabelAll (respan f) (Expr.resolvedAll t scope es) := by
  match es with
  | [] => simp [relabelAll, resolvedAll]
  | e :: es =>
    simp [relabelAll, resolvedAll, resolved_respan f t scope e, resolvedAll_respan f t scope es]

end

theorem FunctionBody.resolved_respan (f : Span → Span) (t : SymbolTable) (scope : ScopeId)
    (b : FunctionBody) :
    (b.relabel (respan f)).resolved (t.mapSpans f) scope
      = (b.resolved t scope).relabel (respan f) := by
  have hstmt : ∀ stmt : Stmt, (stmt.relabel (respan f)).resolved (t.mapSpans f) scope
      = (stmt.resolved t scope).relabel (respan f) := by
    intro stmt
    cases stmt <;> simp [Stmt.relabel, Stmt.resolved, Expr.resolved_respan]
  simp [resolved, relabel, hstmt]

namespace FunctionDefinition

variable (f : Span → Span) (t : SymbolTable) (d : FunctionDefinition)

theorem resolved_respan :
    (d.relabel (respan f)).resolved (t.mapSpans f) = (d.resolved t).relabel (respan f) := by
  have hbody := d.body.resolved_respan f t d.scope
  have hscope : (d.relabel (respan f)).scope = d.scope := rfl
  rw [resolved, hscope, relabel, hbody]
  rfl

theorem missing_respan :
    (d.relabel (respan f)).missing (t.mapSpans f) = (d.missing t).map (·.mapSpan f) := by
  have hscope : (d.relabel (respan f)).scope = d.scope := rfl
  have hscopeless : (d.relabel (respan f)).scopeless? = d.scopeless?.map (·.mapSpan f) := by
    rw [scopeless?, scopeless?]
    change (if d.symbol = none then _ else _) = _
    split <;> rfl
  have hparts : (d.relabel (respan f)).body.parts = d.body.parts.map (·.relabel (respan f)) :=
    d.body.parts_relabel (respan f)
  rw [missing, missing, hscope, hscopeless, hparts, List.map_append, List.filterMap_map,
    List.map_filterMap, Option.toList_map]
  exact congrArg (_ ++ List.filterMap · d.body.parts) (funext (Expr.missing?_respan f t d.scope))

end FunctionDefinition

namespace Program

variable (f : Span → Span) (p : Program) (types : TypeRegistry)

theorem declare_respan :
    (p.relabel (respan f)).declare types
      = (p.declare types).map (·.relabel (respan f))
          fun r => (r.map (·.mapSpans f)).mapError (·.map (·.mapSpan f)) := by
  have hwalk := Declaring.walk_mapSpans f { table := { types } } p
  have hstart : Declaring.mapSpans f { table := { types } } = { table := { types } } := by
    simp [Declaring.mapSpans, SymbolTable.mapSpans]
  rw [hstart] at hwalk
  rw [declare, declare, hwalk]
  rcases Declaring.visitor.walk p { table := { types } } with ⟨q, s⟩
  have hempty : (s.errors.map (·.mapSpan f)).isEmpty = s.errors.isEmpty := by
    simp [Array.isEmpty]
  simp only [Prod.map, Declaring.mapSpans, hempty]
  split
  · rfl
  · rw [Array.toList_map]
    rfl

theorem resolve_respan (t : SymbolTable) :
    (p.relabel (respan f)).resolve (t.mapSpans f)
      = (p.resolve t).map (·.relabel (respan f)) (·.map (·.mapSpan f)) := by
  rw [resolve_eq, resolve_eq]
  simp [relabel, SourceUnit.relabel, withDefinitions, List.flatMap_map, List.map_flatMap,
    FunctionDefinition.missing_respan, FunctionDefinition.resolved_respan]

/-- Analysis after a change of spans is analysis before it. -/
theorem analyzeWith_respan :
    (p.relabel (respan f)).analyzeWith types
      = (p.analyzeWith types).map (·.relabel (respan f))
          fun r => (r.map (·.mapSpans f)).mapError (·.mapSpans f) := by
  have hdeclare := p.declare_respan f types
  rcases hr : p.declare types with ⟨q, errors | t⟩
  · rw [hr] at hdeclare
    rw [analyzeWith_of_declare_error hdeclare, analyzeWith_of_declare_error hr]
    rfl
  · rw [hr] at hdeclare
    have hresolve : (q.relabel (respan f)).resolve (t.mapSpans f)
        = (q.resolve t).map (·.relabel (respan f)) (·.map (·.mapSpan f)) := q.resolve_respan f t
    rw [analyzeWith_of_declare_ok hdeclare, analyzeWith_of_declare_ok hr]
    simp only [Prod.map, hresolve, List.map_eq_nil_iff]
    split <;> rfl

end Program

end MiniC
