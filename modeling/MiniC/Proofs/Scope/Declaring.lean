import MiniC.Proofs.Scope.Lookup
import MiniC.Proofs.Scope.Slot
import MiniC.Proofs.Tree.Walk
import MiniC.Scope.Declare

/-! # The declaring walk

The first walk of analysis binds items and variables and passes over everything else. Its errors
are never taken back, so a state without errors was reached through states without errors.
-/

namespace MiniC

/-- The function of an item, as its prototype says. -/
def Prototype.functionSymbol (p : Prototype) (item : ItemRef) (isDeclaration : Bool)
    (returnType : BuiltinType) (params : List VarId) : FunctionSymbol where
  name := p.name
  returnType := returnType
  params := params
  locals := .empty
  isDeclaration := isDeclaration
  enclosing := .global
  item := item
  span := p.nameSpan
  signature := p.signature

namespace Declaring

open Visitor

mutual

theorem walkExpr_eq (e : Expr) (s : Declaring) : visitor.walkExpr e s = (e, s) := by
  match e with
  | .identifier .. => rw [walkExpr]; rfl
  | .number .. => rw [walkExpr]; rfl
  | .parameter _ => rw [walkExpr]; rfl
  | .binary op lhs rhs span =>
    rw [walkExpr]
    rw [walkExpr_eq lhs, walkExpr_eq rhs]
    rfl
  | .call callee calleeSpan args span symbol =>
    have hopen : visitor.openCall ⟨callee, calleeSpan, args, span, symbol⟩ s
        = (⟨callee, calleeSpan, args, span, symbol⟩, s) := rfl
    rw [walkExpr, hopen]
    dsimp only
    rw [walkArgs_eq args]
    rfl

theorem walkArgs_eq (es : List Expr) (s : Declaring) : visitor.walkArgs es s = (es, s) := by
  match es with
  | [] => rw [walkArgs]
  | e :: es =>
    rw [walkArgs]
    rw [walkExpr_eq e, walkArgs_eq es]

end

theorem runExpr_eq (e : Expr) (s : Declaring) : visitor.runExpr e s = (e, s) :=
  (visitor.runExpr_eq e s).trans (walkExpr_eq e s)

def bindStmt (stmt : Stmt) (s : Declaring) : Stmt × Declaring :=
  match stmt with
  | .decl d => (.decl (bindVariable d s).1, (bindVariable d s).2)
  | .ret .. | .expr _ => (stmt, s)

def bindBody (b : FunctionBody) (s : Declaring) : FunctionBody × Declaring :=
  let ls := walkList bindVariable b.locals s
  let ss := walkList bindStmt b.statements ls.2
  ({ b with locals := ls.1, statements := ss.1 }, ss.2)

theorem walkStmt_eq (stmt : Stmt) (s : Declaring) : visitor.walkStmt stmt s = bindStmt stmt s := by
  cases stmt with
  | decl d => rfl
  | ret value span =>
    rw [walkStmt]
    rw [runExpr_eq]
    rfl
  | expr value =>
    rw [walkStmt]
    rw [runExpr_eq]
    rfl

theorem walkBody_eq (b : FunctionBody) (s : Declaring) : visitor.walkBody b s = bindBody b s := by
  have hstmt : visitor.walkStmt = bindStmt := funext fun stmt => funext (walkStmt_eq stmt)
  rw [walkBody, hstmt]
  rfl

theorem walkPrototype_eq (p : Prototype) (s : Declaring) : visitor.walkPrototype p s = (p, s) := by
  have hparameter : visitor.walkParameter = Prod.mk := rfl
  rw [walkPrototype, hparameter, walkList_eq_self fun _ _ => rfl]
  rfl

theorem walkDeclaration_eq (d : FunctionDeclaration) (s : Declaring) :
    visitor.walkDeclaration d s = bindDeclaration d s := by
  rw [walkDeclaration]
  rw [walkPrototype_eq]
  rfl

/-- A definition is bound, then its body, and the scope is left behind. -/
def declareDefinition (d : FunctionDefinition) (s : Declaring) : FunctionDefinition × Declaring :=
  let r := bindDefinition d s
  let b := bindBody r.1.body r.2
  ({ r.1 with body := b.1 }, { b.2 with scope := .global })

theorem walkDefinition_eq (d : FunctionDefinition) (s : Declaring) :
    visitor.walkDefinition d s = declareDefinition d s := by
  rw [walkDefinition, walkPrototype_eq, walkBody_eq]
  rfl

theorem walk_eq (p : Program) (s : Declaring) :
    visitor.walk p s =
      let ds := walkList bindDeclaration p.unit.declarations s
      let fs := walkList declareDefinition p.unit.definitions ds.2
      ({ p with
          unit := { declarations := ds.1, definitions := fs.1, globalScope := some .global } },
        fs.2) := by
  have hdeclaration : visitor.walkDeclaration = bindDeclaration :=
    funext fun d => funext (walkDeclaration_eq d)
  have hdefinition : visitor.walkDefinition = declareDefinition :=
    funext fun d => funext (walkDefinition_eq d)
  rw [walk, walkUnit, hdeclaration, hdefinition]
  rfl

def withTable (s : Declaring) (t : SymbolTable) : Declaring := { s with table := t }

@[simp] theorem withTable_scope (s : Declaring) (t : SymbolTable) :
    (s.withTable t).scope = s.scope := rfl

@[simp] theorem withTable_withTable (s : Declaring) (t t' : SymbolTable) :
    (s.withTable t).withTable t' = s.withTable t' := rfl

def Clean (s : Declaring) : Prop := s.errors = #[]

theorem not_clean_report (s : Declaring) (kind : SemanticErrorKind) (name : String) (span : Span) :
    ¬ (s.report kind name span).Clean := by
  simp [Clean, report]

theorem typeOf_cases (s : Declaring) (type : TypeName) :
    (∃ t, s.table.types.get? type.name = some t ∧ s.typeOf type = (some t, s)) ∨
      (s.table.types.get? type.name = none ∧
        s.typeOf type = (none, s.report .unknownType type.name type.span)) := by
  unfold typeOf
  split
  next t ht => exact Or.inl ⟨t, ht, rfl⟩
  next ht => exact Or.inr ⟨ht, rfl⟩

variable {s : Declaring} {owner : FuncId}

theorem bindParameter_clean {p : Parameter} {done : List VarId}
    (h : (bindParameter owner p (done, s)).2.2.Clean) :
    ∃ v, bindParameter owner p (done, s)
        = ({ p with symbol := some (s.table.addVariable v).1 },
            (s.table.addVariable v).1 :: done, s.withTable (s.table.addVariable v).2) ∧
      s.Clean ∧ (p.slot (some owner)).varSymbol? s.table.types = some v := by
  rcases s.typeOf_cases p.type with ⟨type, ht, hs⟩ | ⟨-, hs⟩
  · refine ⟨{ name := p.name, type, span := p.nameSpan, owner }, ?_⟩
    simp only [bindParameter, hs] at h ⊢
    exact ⟨rfl, h, by simp [Slot.varSymbol?, Parameter.slot, ht]⟩
  · simp only [bindParameter, hs] at h
    exact absurd h (not_clean_report _ _ _ _)

theorem fills_bound {t : SymbolTable} {p : Parameter} {v : VariableSymbol}
    (h : (p.slot (some owner)).varSymbol? t.types = some v) :
    t.Fills (t.addVariable v).2
      [({ p with symbol := some (t.addVariable v).1 } : Parameter).slot (some owner)] :=
  SymbolTable.fills_addVariable h rfl

/-- Parameters of the function `owner` got the next variables, with the handles `ids`. -/
structure BindsParameters (s : Declaring) (owner : FuncId) (params : List Parameter)
    (ids : List VarId) (t' : SymbolTable) : Prop where
  clean : s.Clean
  fills : s.table.Fills t' (params.map (·.slot (some owner)))
  handles : ids.map some = params.map (·.symbol)

theorem walkList_bindParameter_clean {params : List Parameter} {done : List VarId}
    (h : (walkList (bindParameter owner) params (done, s)).2.2.Clean) :
    ∃ (params' : List Parameter) (ids : List VarId) (t' : SymbolTable),
      walkList (bindParameter owner) params (done, s)
        = (params', ids.reverse ++ done, s.withTable t') ∧
      BindsParameters s owner params' ids t' ∧ t'.functions = s.table.functions := by
  induction params generalizing done s with
  | nil => exact ⟨[], [], s.table, rfl, ⟨h, .nil _, rfl⟩, rfl⟩
  | cons p params ih =>
    rw [walkList_cons] at h ⊢
    obtain ⟨_, _, _, _, hrest, _⟩ := ih h
    obtain ⟨v, hv, hs, hslot⟩ := bindParameter_clean hrest.clean
    rw [hv] at h ⊢
    obtain ⟨params', ids, t', hr, hb, hfunctions⟩ := ih h
    refine ⟨{ p with symbol := some (s.table.addVariable v).1 } :: params',
      (s.table.addVariable v).1 :: ids, t', ?_, ⟨hs, ?_, ?_⟩, hfunctions⟩
    · simp [hr]
    · exact (fills_bound hslot).append hb.fills
    · rw [List.map_cons, hb.handles]
      rfl

theorem bindParameters_clean {p : Prototype} (h : (s.bindParameters owner p).2.2.Clean) :
    ∃ (params : List Parameter) (ids : List VarId) (t' : SymbolTable),
      s.bindParameters owner p = ({ p with params }, ids, s.withTable t') ∧
      BindsParameters s owner params ids t' ∧ t'.functions = s.table.functions := by
  obtain ⟨params, ids, t', hr, hspec⟩ := walkList_bindParameter_clean h
  refine ⟨params, ids, t', ?_, hspec⟩
  rw [bindParameters]
  simp [hr]

/-- An item adds the function that its prototype says, and binds its parameters. -/
theorem addItem_clean {p : Prototype} {item : ItemRef} {isDeclaration : Bool}
    (h : (s.addItem p item isDeclaration).2.Clean) :
    ∃ (returnType : BuiltinType) (params : List Parameter) (ids : List VarId) (t' : SymbolTable),
      s.addItem p item isDeclaration
        = ((some (.ofIndex s.table.functions.size), { p with params }), s.withTable t') ∧
      s.table.types.get? p.returnType.name = some returnType ∧
      BindsParameters s (.ofIndex s.table.functions.size) params ids t' ∧
      s.table.Appends t' (p.functionSymbol item isDeclaration returnType ids) := by
  rcases s.typeOf_cases p.returnType with ⟨returnType, ht, hs⟩ | ⟨-, hs⟩
  · simp only [addItem, hs] at h ⊢
    obtain ⟨params, ids, t', hr, hb, hfunctions⟩ := bindParameters_clean h
    refine ⟨returnType, params, ids, t'.modifyFunction (.ofIndex s.table.functions.size)
      ({ · with params := ids }), ?_, ht, ⟨hb.clean, hb.fills.withFunctions _ _, hb.handles⟩, ?_⟩
    · rw [hr]
      rfl
    · apply SymbolTable.appends_of_modify
        (f := p.functionSymbol item isDeclaration returnType []) (g := ({ · with params := ids }))
      rw [SymbolTable.modifyFunction, hfunctions]
      rfl
  · simp only [addItem, hs] at h
    exact absurd h (not_clean_report _ _ _ _)

theorem mergeDefinition_clean {id : FuncId} {d : FunctionDefinition} {item : ItemRef}
    (h : (s.mergeDefinition id d item).2.Clean) :
    ∃ (returnType : BuiltinType) (params : List Parameter) (ids : List VarId) (t' : SymbolTable),
      s.mergeDefinition id d item
        = ({ d with prototype := { d.prototype with params }, symbol := some id },
            { s with table := t', scope := .function id }) ∧
      s.table.types.get? d.prototype.returnType.name = some returnType ∧
      BindsParameters s id params ids t' ∧
      t'.functions = s.table.functions.modify id.index (fun f =>
        { d.prototype.functionSymbol item false returnType ids with
          name := f.name, locals := f.locals, enclosing := f.enclosing }) := by
  rcases s.typeOf_cases d.prototype.returnType with ⟨returnType, ht, hs⟩ | ⟨-, hs⟩
  · simp only [mergeDefinition, hs] at h ⊢
    obtain ⟨params, ids, t', hr, hb, hfunctions⟩ := bindParameters_clean h
    rw [hr]
    exact ⟨returnType, params, ids, _, rfl, ht,
      ⟨hb.clean, hb.fills.withFunctions _ _, hb.handles⟩, by rw [← hfunctions]; rfl⟩
  · simp only [mergeDefinition, hs] at h
    exact absurd h (not_clean_report _ _ _ _)

theorem bindDeclaration_clean {d : FunctionDeclaration} (h : (bindDeclaration d s).2.Clean) :
    ∃ (returnType : BuiltinType) (params : List Parameter) (ids : List VarId) (t' : SymbolTable),
      bindDeclaration d s
        = ({ d with
              prototype := { d.prototype with params }
              symbol := some (.ofIndex s.table.functions.size) },
            { s with table := t', declarations := s.declarations + 1 }) ∧
      s.table.types.get? d.prototype.returnType.name = some returnType ∧
      BindsParameters s (.ofIndex s.table.functions.size) params ids t' ∧
      s.table.Appends t'
        (d.prototype.functionSymbol (.declaration s.declarations) true returnType ids) := by
  obtain ⟨returnType, params, ids, t', hr, ht, hb, happends⟩ := addItem_clean h
  refine ⟨returnType, params, ids, t', ?_, ht, ⟨hb.clean, hb.fills, hb.handles⟩, happends⟩
  rw [bindDeclaration]
  dsimp only
  rw [hr]
  rfl

structure Binds (d : FunctionDefinition) (s : Declaring) (r : FunctionDefinition × Declaring)
    (id : FuncId) (params : List Parameter) : Prop where
  clean : s.Clean
  eq : r = ({ d with prototype := { d.prototype with params }, symbol := some id },
    { s with table := r.2.table, scope := .function id })
  fills : s.table.Fills r.2.table (params.map (·.slot (some id)))
  function : ∃ f, r.2.table.getFunction? id = some f
  le : s.table.functions.size ≤ r.2.table.functions.size

theorem addDefinition_binds {d : FunctionDefinition} {item : ItemRef}
    (h : (s.addDefinition d item).2.Clean) :
    ∃ id params, Binds d s (s.addDefinition d item) id params := by
  obtain ⟨returnType, params, ids, t', hr, -, hb, happends⟩ := addItem_clean h
  rw [addDefinition, hr]
  exact ⟨_, params, hb.clean, rfl, hb.fills, happends.exists_function,
    happends.size ▸ Nat.le_succ _⟩

theorem mergeDefinition_binds {id : FuncId} {d : FunctionDefinition} {item : ItemRef}
    {g : FunctionSymbol} (hg : s.table.getFunction? id = some g)
    (h : (s.mergeDefinition id d item).2.Clean) :
    ∃ params, Binds d s (s.mergeDefinition id d item) id params := by
  obtain ⟨returnType, params, ids, t', hr, -, hb, hfunctions⟩ := mergeDefinition_clean h
  have hsize : t'.functions.size = s.table.functions.size := by rw [hfunctions, Array.size_modify]
  rw [hr]
  exact ⟨params, hb.clean, rfl, hb.fills,
    ⟨_, (SymbolTable.sets_of_functions_modify hfunctions hg).1⟩, Nat.le_of_eq hsize.symm⟩

/-- What can become of a definition. -/
inductive DefinitionStep (d : FunctionDefinition) (s : Declaring)
    (r : FunctionDefinition × Declaring) : Prop
  | refused {id : FuncId} {f : FunctionSymbol} (found : s.table.findFunction? d.name = some id)
      (function : s.table.getFunction? id = some f) (defined : f.isDeclaration = false)
      (eq : r = (d, { s with definitions := s.definitions + 1 }.report
        (.duplicateDefinition f.span f.signature) d.name d.prototype.nameSpan))
  | added (found : s.table.findFunction? d.name = none)
      (eq : r = { s with definitions := s.definitions + 1 }.addDefinition d
        (.definition s.definitions))
  | merged {id : FuncId} {f : FunctionSymbol} (found : s.table.findFunction? d.name = some id)
      (function : s.table.getFunction? id = some f) (declared : f.isDeclaration = true)
      (eq : r = { s with definitions := s.definitions + 1 }.mergeDefinition id d
        (.definition s.definitions))

theorem bindDefinition_step (d : FunctionDefinition) (s : Declaring) :
    DefinitionStep d s (bindDefinition d s) := by
  cases hfind : s.table.findFunction? d.name with
  | none => exact .added hfind (by simp only [bindDefinition, hfind])
  | some id =>
    obtain ⟨f, hf⟩ := SymbolTable.exists_function_of_findIdx? hfind
    cases hd : f.isDeclaration with
    | true => exact .merged hfind hf hd (by simp [bindDefinition, hfind, hf, hd])
    | false => exact .refused hfind hf hd (by simp [bindDefinition, hfind, hf, hd])

theorem bindDefinition_binds {d : FunctionDefinition} (h : (bindDefinition d s).2.Clean) :
    ∃ id params,
      Binds d { s with definitions := s.definitions + 1 } (bindDefinition d s) id params := by
  cases bindDefinition_step d s with
  | refused _ _ _ heq =>
    rw [heq] at h
    exact absurd h (not_clean_report _ _ _ _)
  | added _ heq =>
    rw [heq] at h ⊢
    exact addDefinition_binds h
  | merged _ function _ heq =>
    rw [heq] at h ⊢
    exact ⟨_, mergeDefinition_binds function h⟩

/-- In a table that fits its handles, a definition is bound to the function `id`, which has no
definition before and is `f` after. -/
structure Defines (d : FunctionDefinition) (s : Declaring) (r : FunctionDefinition × Declaring)
    (id : FuncId) (f : FunctionSymbol) (params : List Parameter) : Prop
    extends Binds d s r id params where
  fits : s.table.FunctionsFit
  sets : s.table.Sets r.2.table id f
  undefined : ∀ g, s.table.getFunction? id = some g → g.isDeclaration = true
  isDeclaration : f.isDeclaration = false
  handles : f.params.map some = params.map (·.symbol)
  flat : s.table.Flat → f.enclosing = .global ∧ f.locals = .empty

theorem addDefinition_defines {d : FunctionDefinition} {item : ItemRef}
    (h : (s.addDefinition d item).2.Clean)
    (hfit : (s.addDefinition d item).2.table.FunctionsFit) :
    ∃ id f params, Defines d s (s.addDefinition d item) id f params := by
  obtain ⟨returnType, params, ids, t', hr, -, hb, happends⟩ := addItem_clean h
  rw [addDefinition, hr] at hfit ⊢
  have hsets := happends.sets hfit
  have hlt := happends.lt_capacity hfit
  refine ⟨_, _, params, ⟨hb.clean, rfl, hb.fills, ⟨_, hsets.1⟩, happends.size ▸ Nat.le_succ _⟩,
    Nat.le_of_lt hlt, hsets, ?_, rfl, hb.handles, fun _ => ⟨rfl, rfl⟩⟩
  intro g hg
  simp [SymbolTable.getFunction?_ofIndex hlt] at hg

theorem mergeDefinition_defines {id : FuncId} {d : FunctionDefinition} {item : ItemRef}
    {g : FunctionSymbol} (hg : s.table.getFunction? id = some g) (hd : g.isDeclaration = true)
    (h : (s.mergeDefinition id d item).2.Clean)
    (hfit : (s.mergeDefinition id d item).2.table.FunctionsFit) :
    ∃ f params, Defines d s (s.mergeDefinition id d item) id f params := by
  obtain ⟨returnType, params, ids, t', hr, -, hb, hfunctions⟩ := mergeDefinition_clean h
  have hsets := SymbolTable.sets_of_functions_modify hfunctions hg
  rw [hr] at hfit ⊢
  have hsize : t'.functions.size = s.table.functions.size := by rw [hfunctions, Array.size_modify]
  refine ⟨_, params, ⟨hb.clean, rfl, hb.fills, ⟨_, hsets.1⟩, Nat.le_of_eq hsize.symm⟩,
    Nat.le_trans (Nat.le_of_eq hsize.symm) hfit, hsets, ?_, rfl, hb.handles, fun ht => ?_⟩
  · intro g' hg'
    obtain rfl := Option.some.inj (hg.symm.trans hg')
    exact hd
  · obtain ⟨he, hl⟩ := ht id g hg
    exact ⟨he, hl hd⟩

/-- A definition adds a function if there is none of its name, and else defines the first one. -/
theorem bindDefinition_defines {d : FunctionDefinition} (h : (bindDefinition d s).2.Clean)
    (hfit : (bindDefinition d s).2.table.FunctionsFit) :
    ∃ id f params,
      Defines d { s with definitions := s.definitions + 1 } (bindDefinition d s) id f params := by
  cases bindDefinition_step d s with
  | refused _ _ _ heq =>
    rw [heq] at h
    exact absurd h (not_clean_report _ _ _ _)
  | added _ heq =>
    rw [heq] at h hfit ⊢
    exact addDefinition_defines h hfit
  | merged _ function declared heq =>
    rw [heq] at h hfit ⊢
    exact ⟨_, mergeDefinition_defines function declared h hfit⟩

def declareLocal (locals : LocalTable) (d : VariableDeclaration) : LocalTable :=
  match d.symbol with
  | some id => (locals.insert d.name id).2
  | none => locals

/-- Within the function `owner`, which was `f`, the variables `ds` were declared. -/
structure Declares (owner : FuncId) (f : FunctionSymbol) (s s' : Declaring)
    (ds : List VariableDeclaration) : Prop where
  clean : s.Clean
  eq : s' = s.withTable s'.table
  fills : s.table.Fills s'.table (ds.map (·.slot (some owner)))
  sets : s.table.Sets s'.table owner { f with locals := ds.foldl declareLocal f.locals }
  size : s'.table.functions.size = s.table.functions.size

variable {f : FunctionSymbol} {s' s'' : Declaring} {ds ds' : List VariableDeclaration}

theorem Declares.nil (hs : s.Clean) (hf : s.table.getFunction? owner = some f) :
    Declares owner f s s [] :=
  ⟨hs, rfl, .nil _, ⟨hf, fun _ _ => rfl⟩, rfl⟩

theorem Declares.append (h : Declares owner f s s' ds)
    (h' : Declares owner { f with locals := ds.foldl declareLocal f.locals } s' s'' ds') :
    Declares owner f s s'' (ds ++ ds') := by
  refine ⟨h.clean, ?_, ?_, ?_, h'.size.trans h.size⟩
  · rw [h'.eq, h.eq]
    rfl
  · rw [List.map_append]
    exact h.fills.append h'.fills
  · rw [List.foldl_append]
    exact h.sets.trans h'.sets

theorem bindVariable_backward (d : VariableDeclaration) (s : Declaring)
    (h : (bindVariable d s).2.Clean) : s.Clean := by
  unfold bindVariable at h
  split at h
  · exact h
  · rcases s.typeOf_cases d.type with ⟨type, -, hs⟩ | ⟨-, hs⟩
    · rw [hs] at h
      exact h
    · rw [hs] at h
      exact absurd h (not_clean_report _ _ _ _)

theorem bindStmt_backward (stmt : Stmt) (s : Declaring) (h : (bindStmt stmt s).2.Clean) :
    s.Clean := by
  cases stmt with
  | decl d => exact bindVariable_backward d s h
  | ret => exact h
  | expr => exact h

theorem fills_declared {t : SymbolTable} {d : VariableDeclaration} {v : VariableSymbol}
    (h : (d.slot (some owner)).varSymbol? t.types = some v) :
    t.Fills (t.addVariable v).2
      [({ d with symbol := some (t.addVariable v).1 } : VariableDeclaration).slot (some owner)] :=
  SymbolTable.fills_addVariable h rfl

theorem bindVariable_declares {d : VariableDeclaration} (hs : s.scope = .function owner)
    (hf : s.table.getFunction? owner = some f) (h : (bindVariable d s).2.Clean) :
    Declares owner f s (bindVariable d s).2 [(bindVariable d s).1] := by
  have hclean := bindVariable_backward d s h
  rcases s.typeOf_cases d.type with ⟨type, ht, htype⟩ | ⟨-, htype⟩
  · have hslot : (d.slot (some owner)).varSymbol? s.table.types
        = some { name := d.name, type, span := d.nameSpan, owner } := by
      simp [Slot.varSymbol?, VariableDeclaration.slot, ht]
    have hfills := fills_declared hslot
    simp only [bindVariable, hs, htype]
    refine ⟨hclean, rfl, hfills.withFunctions _ _, ?_, Array.size_modify ..⟩
    exact SymbolTable.sets_of_functions_modify
      (g := fun f => { f with
        locals := (f.locals.insert d.name (.ofIndex s.table.vars.size)).2 }) rfl hf
  · simp only [bindVariable, hs, htype] at h
    exact absurd h (not_clean_report _ _ _ _)

theorem walkList_bindVariable_declares {ds : List VariableDeclaration}
    (hs : s.scope = .function owner) (hf : s.table.getFunction? owner = some f)
    (h : (walkList bindVariable ds s).2.Clean) :
    Declares owner f s (walkList bindVariable ds s).2 (walkList bindVariable ds s).1 := by
  induction ds generalizing f s with
  | nil => exact .nil h hf
  | cons d ds ih =>
    rw [walkList_cons] at h ⊢
    have hd := bindVariable_declares hs hf (walkList_backward bindVariable_backward ds _ h)
    refine hd.append (ih ?_ hd.sets.1 h)
    rw [hd.eq, withTable_scope, hs]

theorem bindStmt_declares {stmt : Stmt} (hs : s.scope = .function owner)
    (hf : s.table.getFunction? owner = some f) (h : (bindStmt stmt s).2.Clean) :
    Declares owner f s (bindStmt stmt s).2 (bindStmt stmt s).1.variables := by
  cases stmt with
  | decl d => exact bindVariable_declares hs hf h
  | ret => exact .nil h hf
  | expr => exact .nil h hf

theorem walkList_bindStmt_declares {stmts : List Stmt} (hs : s.scope = .function owner)
    (hf : s.table.getFunction? owner = some f) (h : (walkList bindStmt stmts s).2.Clean) :
    Declares owner f s (walkList bindStmt stmts s).2
      ((walkList bindStmt stmts s).1.flatMap (·.variables)) := by
  induction stmts generalizing f s with
  | nil => exact .nil h hf
  | cons stmt stmts ih =>
    rw [walkList_cons] at h ⊢
    have hd := bindStmt_declares hs hf (walkList_backward bindStmt_backward stmts _ h)
    refine hd.append (ih ?_ hd.sets.1 h)
    rw [hd.eq, withTable_scope, hs]

theorem bindBody_declares {b : FunctionBody} (hs : s.scope = .function owner)
    (hf : s.table.getFunction? owner = some f) (h : (bindBody b s).2.Clean) :
    Declares owner f s (bindBody b s).2 (bindBody b s).1.variables := by
  have hl := walkList_bindVariable_declares hs hf
    (walkList_backward bindStmt_backward b.statements _ h)
  refine hl.append (walkList_bindStmt_declares ?_ hl.sets.1 h)
  rw [hl.eq, withTable_scope, hs]

end Declaring

end MiniC
