import MiniC.Proofs.Except
import MiniC.Proofs.Scope.InRange
import MiniC.Proofs.Scope.Declared
import MiniC.Proofs.Scope.Entering
import MiniC.Proofs.Tree.Simulation
import MiniC.Scope.Analysis
import MiniC.Scope.Listing

/-! # Checked analysis

Here both walks of analysis refuse to go through a dangling handle: where they index the table,
they do so with the checked operations, and the first failure ends the analysis. No program and no
registry make it fail, so the analysis proper does the same, and what it makes can be listed.
-/

namespace MiniC

namespace Visitor

variable {σ α ε : Type}

/-- A step of a walk that nothing does any more once a step has failed. -/
def attempt (f : α → σ → Except ε (α × σ)) (a : α) : Except ε σ → α × Except ε σ
  | .error e => (a, .error e)
  | .ok s =>
    match f a s with
    | .error e => (a, .error e)
    | .ok (a, s) => (a, .ok s)

/-- The walk did not fail, and its state has the property. -/
def Succeeds (P : σ → Prop) (s : σ) (s' : Except ε σ) : Prop := s' = .ok s ∧ P s

theorem attempt_alike {P : σ → Prop} {f : α → σ → α × σ} {g : α → σ → Except ε (α × σ)}
    (h : ∀ a s, P s → g a s = .ok (f a s) ∧ P (f a s).2) :
    Alike (Succeeds P) f (attempt g) := by
  rintro a s _ ⟨rfl, hs⟩
  obtain ⟨hg, hs⟩ := h a s hs
  simp only [attempt, hg]
  exact ⟨rfl, rfl, hs⟩

end Visitor

open Visitor

namespace SymbolTable

variable {t : SymbolTable} {id : FuncId}

theorem getFunction_eq {f : FunctionSymbol} (h : t.getFunction? id = some f) :
    t.getFunction id = .ok f := by
  rw [getFunction, h]

theorem updateFunction_eq (h : id.index < t.functions.size) (g : FunctionSymbol → FunctionSymbol) :
    t.updateFunction id g = .ok (t.modifyFunction id g) := by
  obtain ⟨f, hf⟩ := index_lt_iff.mp h
  rw [updateFunction, getFunction_eq hf]
  rfl

end SymbolTable

namespace Declaring

def updateFunction (s : Declaring) (id : FuncId) (f : FunctionSymbol → FunctionSymbol) :
    Except Dangling Declaring := do
  return s.withTable (← s.table.updateFunction id f)

def addItemChecked (s : Declaring) (p : Prototype) (item : ItemRef) (isDeclaration : Bool) :
    Except Dangling ((Option FuncId × Prototype) × Declaring) :=
  match s.typeOf p.returnType with
  | (none, s) => .ok ((none, p), s)
  | (some returnType, s) => do
    let f := s.addFunction (p.functionSymbol item isDeclaration returnType [])
    let r := f.2.bindParameters f.1 p
    return ((some f.1, r.1), ← r.2.2.updateFunction f.1 ({ · with params := r.2.1 }))

def mergeDefinitionChecked (s : Declaring) (id : FuncId) (d : FunctionDefinition)
    (item : ItemRef) : Except Dangling (FunctionDefinition × Declaring) :=
  match s.typeOf d.prototype.returnType with
  | (none, s) => .ok (d, s)
  | (some returnType, s) => do
    let r := s.bindParameters id d.prototype
    let s ← r.2.2.updateFunction id fun f =>
      { f with
        returnType, params := r.2.1, isDeclaration := false, item
        span := d.prototype.nameSpan, signature := d.prototype.signature }
    return ({ d with prototype := r.1, symbol := some id }, { s with scope := .function id })

def bindDeclarationChecked (d : FunctionDeclaration) (s : Declaring) :
    Except Dangling (FunctionDeclaration × Declaring) := do
  let item := ItemRef.declaration s.declarations
  let r ← { s with declarations := s.declarations + 1 }.addItemChecked d.prototype item true
  return ({ d with prototype := r.1.2, symbol := r.1.1 }, r.2)

def addDefinitionChecked (s : Declaring) (d : FunctionDefinition) (item : ItemRef) :
    Except Dangling (FunctionDefinition × Declaring) := do
  let r ← s.addItemChecked d.prototype item false
  let scope := match r.1.1 with
    | some id => .function id
    | none => r.2.scope
  return ({ d with prototype := r.1.2, symbol := r.1.1 }, { r.2 with scope })

def bindDefinitionChecked (d : FunctionDefinition) (s : Declaring) :
    Except Dangling (FunctionDefinition × Declaring) :=
  let item := ItemRef.definition s.definitions
  let s := { s with definitions := s.definitions + 1 }
  match s.table.findFunction? d.name with
  | none => s.addDefinitionChecked d item
  | some id => do
    let f ← s.table.getFunction id
    if f.isDeclaration then s.mergeDefinitionChecked id d item
    else return (d, s.report (.duplicateDefinition f.span f.signature) d.name d.prototype.nameSpan)

def bindVariableChecked (d : VariableDeclaration) (s : Declaring) :
    Except Dangling (VariableDeclaration × Declaring) :=
  match s.scope with
  | .global => .ok (d, s)
  | .function owner =>
    match s.typeOf d.type with
    | (none, s) => .ok (d, s)
    | (some type, s) => do
      let r := s.addVariable { name := d.name, type, span := d.nameSpan, owner }
      let s ← r.2.updateFunction owner fun f =>
        { f with locals := (f.locals.insert d.name r.1).2 }
      return ({ d with symbol := some r.1 }, s)

def checkedVisitor : Visitor (Except Dangling Declaring) where
  bindUnit := attempt fun u s => .ok (visitor.bindUnit u s)
  bindDeclaration := attempt bindDeclarationChecked
  bindDefinition := attempt bindDefinitionChecked
  bindVariable := attempt bindVariableChecked
  exit n s := s.map (visitor.exit n)

variable {s : Declaring} {id : FuncId}

theorem updateFunction_eq (h : id.index < s.table.functions.size)
    (g : FunctionSymbol → FunctionSymbol) :
    s.updateFunction id g = .ok (s.modifyFunction id g) := by
  rw [updateFunction, SymbolTable.updateFunction_eq h]
  rfl

theorem addItemChecked_eq (hs : s.Sound) (p : Prototype) (item : ItemRef) (isDeclaration : Bool) :
    s.addItemChecked p item isDeclaration = .ok (s.addItem p item isDeclaration) := by
  rcases s.typeOf_cases p.returnType with ⟨returnType, -, htype⟩ | ⟨-, htype⟩
  · -- parameters add no function, so the one just added is still the last
    have h := bindParameters_passed (addFunction_sound hs p item isDeclaration returnType)
      (.ofIndex s.table.functions.size) p
    have hlt := SymbolTable.index_addFunction_lt s.table
      (p.functionSymbol item isDeclaration returnType [])
    have heq := updateFunction_eq (Nat.lt_of_lt_of_eq hlt h.size_eq.symm)
    simp only [addItemChecked, addItem, htype]
    exact congrArg (· >>= _) (heq _)
  · simp only [addItemChecked, addItem, htype]

theorem mergeDefinitionChecked_eq (hs : s.Sound) (hid : id.index < s.table.functions.size)
    (d : FunctionDefinition) (item : ItemRef) :
    s.mergeDefinitionChecked id d item = .ok (s.mergeDefinition id d item) := by
  rcases s.typeOf_cases d.prototype.returnType with ⟨returnType, -, htype⟩ | ⟨-, htype⟩
  · have h := bindParameters_passed hs id d.prototype
    rw [← h.size_eq] at hid
    simp only [mergeDefinitionChecked, mergeDefinition, htype, updateFunction_eq hid]
    rfl
  · simp only [mergeDefinitionChecked, mergeDefinition, htype]

theorem bindDeclarationChecked_eq (hs : s.Sound) (d : FunctionDeclaration) :
    bindDeclarationChecked d s = .ok (bindDeclaration d s) := by
  have hs' : { s with declarations := s.declarations + 1 }.Sound := ⟨hs.inRange, hs.scope⟩
  simp only [bindDeclarationChecked, addItemChecked_eq hs']
  rfl

theorem addDefinitionChecked_eq (hs : s.Sound) (d : FunctionDefinition) (item : ItemRef) :
    s.addDefinitionChecked d item = .ok (s.addDefinition d item) := by
  simp only [addDefinitionChecked, addItemChecked_eq hs]
  rfl

theorem bindDefinitionChecked_eq (hs : s.Sound) (d : FunctionDefinition) :
    bindDefinitionChecked d s = .ok (bindDefinition d s) := by
  have hs' : { s with definitions := s.definitions + 1 }.Sound := ⟨hs.inRange, hs.scope⟩
  cases bindDefinition_step d s with
  | refused hfind hf hd heq =>
    simp only [bindDefinitionChecked, hfind, SymbolTable.getFunction_eq hf, heq]
    rw [ok_bind, hd]
    rfl
  | added hfind heq =>
    simp only [bindDefinitionChecked, hfind, heq]
    exact addDefinitionChecked_eq hs' d _
  | merged hfind hf hd heq =>
    simp only [bindDefinitionChecked, hfind, SymbolTable.getFunction_eq hf, heq]
    rw [ok_bind, if_pos hd]
    exact mergeDefinitionChecked_eq hs' (SymbolTable.index_lt_iff.mpr ⟨_, hf⟩) d _

theorem bindVariableChecked_eq (hs : s.Sound) (d : VariableDeclaration) :
    bindVariableChecked d s = .ok (bindVariable d s) := by
  cases hscope : s.scope with
  | global => simp only [bindVariableChecked, bindVariable, hscope]
  | function owner =>
    have hlt := hs.scope owner hscope
    rcases s.typeOf_cases d.type with ⟨type, -, htype⟩ | ⟨-, htype⟩
    · have hlt' : owner.index
          < (s.addVariable ⟨d.name, type, d.nameSpan, owner⟩).2.table.functions.size := hlt
      simp only [bindVariableChecked, bindVariable, hscope, htype, updateFunction_eq hlt']
      rfl
    · simp only [bindVariableChecked, bindVariable, hscope, htype]

theorem visitor_simulates : Simulates visitor checkedVisitor (Succeeds Sound) where
  enter _ := id
  visit _ := id
  exit n := by
    rintro s _ ⟨rfl, hs⟩
    refine ⟨rfl, ?_⟩
    cases n with
    | definition => exact ⟨hs.inRange, by simp [visitor]⟩
    | _ => exact hs
  bindUnit := attempt_alike fun _ _ hs => ⟨rfl, hs⟩
  bindDeclaration := attempt_alike fun d _ hs =>
    ⟨bindDeclarationChecked_eq hs d, bindDeclaration_sound hs d⟩
  bindDefinition := attempt_alike fun d _ hs =>
    ⟨bindDefinitionChecked_eq hs d, bindDefinition_sound hs d⟩
  bindVariable := attempt_alike fun d _ hs => ⟨bindVariableChecked_eq hs d, bindVariable_sound hs d⟩
  bindIdentifier _ _ _ hs := ⟨rfl, hs⟩
  bindCall _ _ _ hs := ⟨rfl, hs⟩

end Declaring

namespace SymbolTable

variable {t : SymbolTable}

theorem getVariable_eq {v : VarId} {x : VariableSymbol} (h : t.getVariable? v = some x) :
    t.getVariable v = .ok x := by
  rw [getVariable, h]

theorem firstNamed?_eq {ids : List VarId} (h : ∀ id ∈ ids, ∃ x, t.getVariable? id = some x)
    (name : String) : t.firstNamed? name ids = .ok (ids.find? (t.isNamed name)) := by
  induction ids with
  | nil => rfl
  | cons id ids ih =>
    obtain ⟨⟨x, hx⟩, hids⟩ := List.forall_mem_cons.mp h
    have hnamed : t.isNamed name id = decide (x.name = name) := by simp [isNamed, hx]
    rw [firstNamed?, getVariable_eq hx, ok_bind, List.find?_cons, hnamed, ih hids]
    by_cases hname : x.name = name <;> simp [hname, pure, Except.pure]

theorem InRange.lookUpVariableWithin_eq (h : t.InRange) (name : String) (fuel : Nat)
    (scope : ScopeId) :
    t.lookUpVariableWithin name fuel scope = .ok (t.resolveVariableWithin name fuel scope) := by
  induction fuel generalizing scope with
  | zero => cases scope <;> rfl
  | succ fuel ih =>
    cases scope with
    | global => rfl
    | function id =>
      rw [lookUpVariableWithin, resolveVariableWithin]
      cases hf : t.getFunction? id with
      | none => rfl
      | some f =>
        dsimp only
        cases hlocal : f.locals.get? name with
        | some v => rfl
        | none =>
          dsimp only
          rw [firstNamed?_eq fun v hv => exists_variable_of_lt ((h.encloses hf).params v hv)]
          cases hparam : f.params.find? (t.isNamed name) with
          | some v => rfl
          | none => exact ih f.enclosing

/-- Where no function holds a dangling handle, no lookup goes through one. -/
theorem InRange.lookUpVariable_eq (h : t.InRange) (scope : ScopeId) (name : String) :
    t.lookUpVariable scope name = .ok (t.resolveVariable? scope name) :=
  h.lookUpVariableWithin_eq name t.depth scope

theorem Encloses.exists_functionLines {f : FunctionSymbol} (h : t.Encloses f) (id : FuncId) :
    ∃ lines, t.functionLines id f = .ok lines := by
  have hparams : ∀ v ∈ f.params, ∃ line, (do
      let x ← t.getVariable v
      return variableLine "param" x.name x) = Except.ok line := by
    intro v hv
    obtain ⟨x, hx⟩ := exists_variable_of_lt (h.params v hv)
    exact ⟨_, by rw [getVariable_eq hx]; rfl⟩
  have hlocals : ∀ entry ∈ f.locals.entries, ∃ line, (do
      let x ← t.getVariable entry.2
      return variableLine "local" entry.1 x) = Except.ok line := by
    intro entry hentry
    have hlocal := LocalTable.get?_of_mem_entries hentry
    obtain ⟨x, hx⟩ := exists_variable_of_lt (h.locals entry.1 entry.2 hlocal)
    exact ⟨_, by rw [getVariable_eq hx]; rfl⟩
  obtain ⟨params, hparams⟩ := exists_mapM_eq_ok hparams
  obtain ⟨locals, hlocals⟩ := exists_mapM_eq_ok hlocals
  refine ⟨functionLine id f :: params ++ locals, ?_⟩
  rw [functionLines, hparams, ok_bind, hlocals]
  rfl

theorem InRange.exists_listing (h : t.InRange) : ∃ text, t.listing = .ok text := by
  have hlines : ∀ entry ∈ t.functions.toList.zipIdx, ∃ lines,
      t.functionLines (.ofIndex entry.2) entry.1 = .ok lines := by
    rintro ⟨f, index⟩ hmem
    have hf : t.functions[index]? = some f := by
      rw [← Array.getElem?_toList]
      exact List.mem_zipIdx_iff_getElem?.mp hmem
    exact (h f (Array.mem_of_getElem? hf)).exists_functionLines _
  obtain ⟨lines, hlines⟩ := exists_mapM_eq_ok hlines
  refine ⟨String.join lines.flatten, ?_⟩
  rw [listing, hlines]
  rfl

end SymbolTable

namespace Resolving

def bindIdentifierChecked (t : SymbolTable) (x : Identifier) (s : Resolving) :
    Except Dangling (Identifier × Resolving) := do
  match ← t.lookUpVariable s.scope x.name with
  | some id => return ({ x with symbol := some id }, s)
  | none => return (x, s.report .undeclaredVariable x.name x.span)

def bindCallChecked (t : SymbolTable) (c : FunctionCall) (s : Resolving) :
    Except Dangling (FunctionCall × Resolving) :=
  .ok (bindCall t c s)

theorem attempt_bindCallChecked_args (t : SymbolTable) (c : FunctionCall)
    (s : Except Dangling Resolving) : (attempt (bindCallChecked t) c s).1.args = c.args := by
  cases s with
  | error e => rfl
  | ok s => exact bindCall_args t c s

def checkedVisitor (t : SymbolTable) : Visitor (Except Dangling Resolving) where
  enter n s := s.map ((visitor t).enter n)
  exit n s := s.map ((visitor t).exit n)
  bindIdentifier := attempt (bindIdentifierChecked t)
  bindCall := attempt (bindCallChecked t)
  bindCall_size c s := Nat.le_of_eq (congrArg Expr.sizeAll (attempt_bindCallChecked_args t c s))

theorem bindIdentifierChecked_eq {t : SymbolTable} (ht : t.InRange) (x : Identifier)
    (s : Resolving) : bindIdentifierChecked t x s = .ok (bindIdentifier t x s) := by
  rw [bindIdentifierChecked, ht.lookUpVariable_eq, bindIdentifier]
  cases t.resolveVariable? s.scope x.name <;> rfl

theorem visitor_simulates {t : SymbolTable} (ht : t.InRange) :
    Simulates (visitor t) (checkedVisitor t) (Succeeds fun _ => True) where
  enter n := by
    rintro s _ ⟨rfl, -⟩
    exact ⟨rfl, trivial⟩
  visit _ := id
  exit n := by
    rintro s _ ⟨rfl, -⟩
    exact ⟨rfl, trivial⟩
  bindUnit _ _ _ hs := ⟨rfl, hs⟩
  bindDeclaration _ _ _ hs := ⟨rfl, hs⟩
  bindDefinition _ _ _ hs := ⟨rfl, hs⟩
  bindVariable _ _ _ hs := ⟨rfl, hs⟩
  bindIdentifier := attempt_alike fun x s _ => ⟨bindIdentifierChecked_eq ht x s, trivial⟩
  bindCall := attempt_alike fun _ _ _ => ⟨rfl, trivial⟩

end Resolving

namespace Program

def declareChecked (p : Program) (types : TypeRegistry) :
    Except Dangling (Program × Except (List SemanticError) SymbolTable) := do
  let r := Declaring.checkedVisitor.walk p (.ok { table := { types } })
  let s ← r.2
  return (r.1, if s.errors.isEmpty then .ok s.table else .error s.errors.toList)

def resolveChecked (p : Program) (t : SymbolTable) :
    Except Dangling (Program × List SemanticError) := do
  let r := (Resolving.checkedVisitor t).walk p (.ok {})
  let s ← r.2
  return (r.1, s.errors.toList)

def analyzeChecked (p : Program) (types : TypeRegistry) :
    Except Dangling (Program × Except AnalysisError SymbolTable) := do
  match ← p.declareChecked types with
  | (p, .error errors) => return (p, .error (.declaring errors))
  | (p, .ok table) =>
    match ← p.resolveChecked table with
    | (p, []) => return (p, .ok table)
    | (p, errors) => return (p, .error (.resolving errors))

variable {p q : Program} {types : TypeRegistry} {t : SymbolTable}

/-- The walks with and without checks agree, and at the end all handles are in range. -/
theorem declare_agree (p : Program) (types : TypeRegistry) :
    Agree (Succeeds Declaring.Sound) (Declaring.visitor.walk p { table := { types } })
      (Declaring.checkedVisitor.walk p (.ok { table := { types } })) := by
  refine Declaring.visitor_simulates.walk p _ _ ⟨rfl, SymbolTable.inRange_empty types, ?_⟩
  intro id hid
  cases hid

theorem declareChecked_eq (p : Program) (types : TypeRegistry) :
    p.declareChecked types = .ok (p.declare types) := by
  obtain ⟨hq, hs, -⟩ := declare_agree p types
  simp only [declareChecked, declare]
  rw [← hq, hs]
  rfl

theorem resolveChecked_eq (ht : t.InRange) (p : Program) :
    p.resolveChecked t = .ok (p.resolve t) := by
  obtain ⟨hq, hs, -⟩ := (Resolving.visitor_simulates ht).walk p _ _ ⟨rfl, trivial⟩
  simp only [resolveChecked, resolve]
  rw [← hq, hs]
  rfl

theorem inRange_of_declare (h : p.declare types = (q, .ok t)) : t.InRange := by
  obtain ⟨s, hw, -, rfl⟩ := declare_eq_ok h
  obtain ⟨-, -, hsound⟩ := declare_agree p types
  rw [hw] at hsound
  exact hsound.inRange

/-- Analysis never goes through a dangling handle. -/
theorem analyzeChecked_eq (p : Program) (types : TypeRegistry) :
    p.analyzeChecked types = .ok (p.analyzeWith types) := by
  rw [analyzeChecked, declareChecked_eq, analyzeWith]
  rcases hr : p.declare types with ⟨q, errors | t⟩
  · rfl
  · rw [ok_bind]
    dsimp only
    rw [resolveChecked_eq (inRange_of_declare hr) q, ok_bind]
    rcases q.resolve t with ⟨q', errors⟩
    cases errors <;> rfl

end Program

end MiniC
