import MiniC.Proofs.Scope.Entering
import MiniC.Proofs.Scope.Known

/-! # How faults are found

The declaring walk lists the faults of a unit, all of them and nothing else, in their order.
-/

namespace MiniC

namespace Declaring

open Visitor

def next (s : Declaring) (t : SymbolTable) (errors : List SemanticError) : Declaring :=
  { s with table := t, errors := s.errors ++ errors.toArray }

@[simp] theorem next_table (s : Declaring) (t : SymbolTable) (errors : List SemanticError) :
    (s.next t errors).table = t := rfl

theorem next_nil (s : Declaring) (t : SymbolTable) : s.next t [] = s.withTable t := by
  simp [next, withTable]

@[simp] theorem next_next (s : Declaring) (t t' : SymbolTable)
    (errors errors' : List SemanticError) :
    (s.next t errors).next t' errors' = s.next t' (errors ++ errors') := by
  simp [next, Array.append_assoc]

theorem report_eq_next (s : Declaring) (kind : SemanticErrorKind) (name : String) (span : Span) :
    s.report kind name span = s.next s.table [⟨kind, name, span⟩] := by
  simp [report, next]

variable {s : Declaring} {owner : FuncId}

theorem typeOf_next (s : Declaring) (type : TypeName) :
    (∃ t, s.table.types.get? type.name = some t ∧ type.faults s.table.types = [] ∧
        s.typeOf type = (some t, s)) ∨
      s.table.types.get? type.name = none ∧
        s.typeOf type = (none, s.next s.table (type.faults s.table.types)) := by
  rcases s.typeOf_cases type with ⟨t, ht, hs⟩ | ⟨ht, hs⟩
  · exact Or.inl ⟨t, ht, by simp [TypeName.faults, ht], hs⟩
  · rw [report_eq_next] at hs
    exact Or.inr ⟨ht, by simp [TypeName.faults, ht, hs]⟩

/-- Binding variables leaves the functions and the types alone. -/
structure AddsVariables (t t' : SymbolTable) : Prop where
  functions : t'.functions = t.functions
  types : t'.types = t.types

theorem bindParameter_next (owner : FuncId) (p : Parameter) (done : List VarId) (s : Declaring) :
    ∃ p' ids t', bindParameter owner p (done, s)
        = (p', ids, s.next t' (p.type.faults s.table.types)) ∧ AddsVariables s.table t' := by
  rcases s.typeOf_next p.type with ⟨type, -, hfaults, ht⟩ | ⟨-, ht⟩
  · simp only [bindParameter, ht, hfaults, next_nil]
    exact ⟨_, _, (s.table.addVariable _).2, rfl, rfl, rfl⟩
  · simp only [bindParameter, ht]
    exact ⟨_, _, _, rfl, rfl, rfl⟩

theorem walkList_bindParameter_next (owner : FuncId) (params : List Parameter) (done : List VarId)
    (s : Declaring) :
    ∃ params' ids t', walkList (bindParameter owner) params (done, s)
        = (params', ids, s.next t' (params.flatMap (·.type.faults s.table.types))) ∧
      AddsVariables s.table t' := by
  induction params generalizing done s with
  | nil => exact ⟨[], done, s.table, by simp [next_nil, withTable], rfl, rfl⟩
  | cons p params ih =>
    obtain ⟨p', ids, t', hp, hfunctions, htypes⟩ := bindParameter_next owner p done s
    obtain ⟨params', ids', t'', hr, hfunctions', htypes'⟩ :=
      ih ids (s.next t' (p.type.faults s.table.types))
    refine ⟨p' :: params', ids', t'', ?_, hfunctions'.trans hfunctions, htypes'.trans htypes⟩
    rw [walkList_cons, hp, hr, next_next, next_table, htypes]
    rfl

theorem bindParameters_next (s : Declaring) (owner : FuncId) (p : Prototype) :
    ∃ params ids t', s.bindParameters owner p
        = ({ p with params }, ids, s.next t' (p.params.flatMap (·.type.faults s.table.types))) ∧
      AddsVariables s.table t' := by
  obtain ⟨params, ids, t', hr, ht⟩ := walkList_bindParameter_next owner p.params [] s
  refine ⟨params, ids.reverse, t', ?_, ht⟩
  rw [bindParameters, hr]

theorem addItem_next (s : Declaring) (p : Prototype) (item : ItemRef) (isDeclaration : Bool) :
    s.table.types.get? p.returnType.name = none ∧ s.addItem p item isDeclaration
        = ((none, p), s.next s.table (p.returnType.faults s.table.types)) ∨
      ∃ returnType params ids t', s.table.types.get? p.returnType.name = some returnType ∧
        s.addItem p item isDeclaration
          = ((some (.ofIndex s.table.functions.size), { p with params }),
            s.next t' (p.params.flatMap (·.type.faults s.table.types))) ∧
        t'.types = s.table.types ∧
        s.table.Appends t' (p.functionSymbol item isDeclaration returnType ids) := by
  rcases s.typeOf_next p.returnType with ⟨returnType, hknown, -, ht⟩ | ⟨hunknown, ht⟩
  · let owner : FuncId := .ofIndex s.table.functions.size
    let f := p.functionSymbol item isDeclaration returnType []
    obtain ⟨params, ids, t', hr, hfunctions, htypes⟩ :=
      bindParameters_next (s.addFunction f).2 owner p
    have hadd : s.addItem p item isDeclaration =
        let r := (s.addFunction f).2.bindParameters owner p
        ((some owner, r.1), r.2.2.modifyFunction owner ({ · with params := r.2.1 })) := by
      simp only [addItem, ht]
      rfl
    rw [hadd, hr]
    refine Or.inr ⟨returnType, params, ids, t'.modifyFunction owner ({ · with params := ids }),
      hknown, rfl, htypes, ?_⟩
    apply SymbolTable.appends_of_modify (f := f) (g := ({ · with params := ids }))
    rw [SymbolTable.modifyFunction, hfunctions]
    rfl
  · refine Or.inl ⟨hunknown, ?_⟩
    simp only [addItem, ht]

theorem mergeDefinition_next (s : Declaring) (id : FuncId) (d : FunctionDefinition)
    (item : ItemRef) :
    s.table.types.get? d.prototype.returnType.name = none ∧ s.mergeDefinition id d item
        = (d, s.next s.table (d.prototype.returnType.faults s.table.types)) ∨
      ∃ returnType params ids t',
        s.table.types.get? d.prototype.returnType.name = some returnType ∧
        s.mergeDefinition id d item
          = ({ d with prototype := { d.prototype with params }, symbol := some id },
            { s.next t' (d.prototype.params.flatMap (·.type.faults s.table.types)) with
              scope := .function id }) ∧
        t'.types = s.table.types ∧ t'.functions = s.table.functions.modify id.index (fun f =>
          { d.prototype.functionSymbol item false returnType ids with
            name := f.name, locals := f.locals, enclosing := f.enclosing }) := by
  rcases s.typeOf_next d.prototype.returnType with ⟨returnType, hknown, -, ht⟩ | ⟨hunknown, ht⟩
  · obtain ⟨params, ids, t', hr, hfunctions, htypes⟩ := s.bindParameters_next id d.prototype
    refine Or.inr ⟨returnType, params, ids, ?_⟩
    simp only [mergeDefinition, ht, hr]
    exact ⟨_, hknown, rfl, htypes, by rw [← hfunctions]; rfl⟩
  · refine Or.inl ⟨hunknown, ?_⟩
    simp only [mergeDefinition, ht]

/-- The walk within a function changes locals alone. -/
structure AddsLocals (t t' : SymbolTable) : Prop where
  functions : t.SameButLocals t'
  types : t'.types = t.types

theorem AddsLocals.refl (t : SymbolTable) : AddsLocals t t := ⟨rfl, rfl⟩

theorem AddsLocals.trans {t t' t'' : SymbolTable} (h : AddsLocals t t') (h' : AddsLocals t' t'') :
    AddsLocals t t'' :=
  ⟨h.functions.trans h'.functions, h'.types.trans h.types⟩

theorem bindVariable_next (d : VariableDeclaration) (hs : s.scope = .function owner) :
    ∃ d' t', bindVariable d s = (d', s.next t' (d.type.faults s.table.types)) ∧
      AddsLocals s.table t' := by
  rcases s.typeOf_next d.type with ⟨type, -, hfaults, ht⟩ | ⟨-, ht⟩
  · simp only [bindVariable, hs, ht, hfaults, next_nil]
    refine ⟨_, _, rfl, ?_, rfl⟩
    exact SymbolTable.sameButLocals_of_functions_modify
      (g := fun f => { f with
        locals := (f.locals.insert d.name (.ofIndex s.table.vars.size)).2 }) rfl fun _ => rfl
  · simp only [bindVariable, hs, ht]
    exact ⟨_, _, rfl, .refl _⟩

theorem bindVariable_global (d : VariableDeclaration) (hs : s.scope = .global) :
    bindVariable d s = (d, s) := by
  simp only [bindVariable, hs]

theorem bindStmt_next (stmt : Stmt) (hs : s.scope = .function owner) :
    ∃ stmt' t', bindStmt stmt s
        = (stmt', s.next t' (stmt.variables.flatMap (·.type.faults s.table.types))) ∧
      AddsLocals s.table t' := by
  cases stmt with
  | decl d =>
    obtain ⟨d', t', hd, ht⟩ := bindVariable_next d hs
    exact ⟨.decl d', t', by simp [bindStmt, hd, Stmt.variables], ht⟩
  | ret value span =>
    simp only [bindStmt, Stmt.variables, List.flatMap_nil, next_nil]
    exact ⟨_, _, rfl, .refl _⟩
  | expr value =>
    simp only [bindStmt, Stmt.variables, List.flatMap_nil, next_nil]
    exact ⟨_, _, rfl, .refl _⟩

/-- What each step within a function finds, the walk of a list finds. -/
theorem walkList_next {α : Type} {f : α → Declaring → α × Declaring}
    (faults : TypeRegistry → α → List SemanticError)
    (h : ∀ a s, s.scope = .function owner →
      ∃ a' t', f a s = (a', s.next t' (faults s.table.types a)) ∧ AddsLocals s.table t')
    (as : List α) (hs : s.scope = .function owner) :
    ∃ as' t', walkList f as s = (as', s.next t' (as.flatMap (faults s.table.types))) ∧
      AddsLocals s.table t' := by
  induction as generalizing s with
  | nil => exact ⟨[], s.table, by simp [next_nil, withTable], .refl _⟩
  | cons a as ih =>
    obtain ⟨a', t', ha, ht⟩ := h a s hs
    obtain ⟨as', t'', hr, ht'⟩ := ih (s := s.next t' (faults s.table.types a)) hs
    refine ⟨a' :: as', t'', ?_, ht.trans ht'⟩
    rw [walkList_cons, ha, hr, next_next, next_table, ht.types]
    rfl

theorem bindBody_next (b : FunctionBody) (hs : s.scope = .function owner) :
    ∃ b' t', bindBody b s = (b', s.next t' (b.variables.flatMap (·.type.faults s.table.types))) ∧
      AddsLocals s.table t' := by
  obtain ⟨ls, t', hl, ht⟩ := walkList_next (f := bindVariable) (fun types d => d.type.faults types)
    (fun d _ hs => bindVariable_next d hs) b.locals hs
  obtain ⟨ss, t'', hr, ht'⟩ := walkList_next (f := bindStmt)
    (fun types stmt => stmt.variables.flatMap (·.type.faults types))
    (fun stmt _ hs => bindStmt_next stmt hs) b.statements
    (s := s.next t' (b.locals.flatMap (·.type.faults s.table.types))) hs
  refine ⟨{ b with locals := ls, statements := ss }, t'', ?_, ht.trans ht'⟩
  rw [bindBody, hl, hr]
  simp only [next_next, next_table, ht.types, FunctionBody.variables, List.flatMap_append,
    List.flatMap_assoc]

theorem bindBody_global (b : FunctionBody) (hs : s.scope = .global) : bindBody b s = (b, s) := by
  have hstmt : ∀ stmt, bindStmt stmt s = (stmt, s) := by
    intro stmt
    cases stmt with
    | decl d => simp only [bindStmt, bindVariable_global d hs]
    | ret => rfl
    | expr => rfl
  rw [bindBody, walkList_eq_self_of_state fun d => bindVariable_global d hs]
  dsimp only
  rw [walkList_eq_self_of_state hstmt]

variable {done : List FunctionDefinition} {d : FunctionDefinition}

/-- What the walk does at a definition before its body, which never changes there. -/
inductive Outcome (d : FunctionDefinition) (s : Declaring) (r : FunctionDefinition × Declaring) :
    Prop
  | refused {f : FunctionSymbol} (defined : s.table.defined? d.name = some f)
      (body : r.1.body = d.body)
      (eq : r.2 = { s.next s.table
          [⟨.duplicateDefinition f.span f.signature, d.name, d.prototype.nameSpan⟩] with
        definitions := s.definitions + 1 })
  | untyped (undefined : s.table.defined? d.name = none)
      (unknown : s.table.types.get? d.prototype.returnType.name = none)
      (body : r.1.body = d.body)
      (eq : r.2 = { s.next s.table (d.prototype.returnType.faults s.table.types) with
        definitions := s.definitions + 1 })
  | entered {f : FunctionSymbol} {t' : SymbolTable} {returnType : BuiltinType}
      (undefined : s.table.defined? d.name = none)
      (known : s.table.types.get? d.prototype.returnType.name = some returnType)
      (body : r.1.body = d.body)
      (eq : r.2 = { s.next t' (d.prototype.params.flatMap (·.type.faults s.table.types)) with
        scope := .function (s.table.place d.name), definitions := s.definitions + 1 })
      (types : t'.types = s.table.types) (le : s.table.functions.size ≤ t'.functions.size)
      (size : t'.functions.size ≤ s.table.functions.size + 1)
      (sets : t'.FunctionsFit → s.table.HasRoom d.name ∧
        s.table.Sets t' (s.table.place d.name) f ∧ f.name = d.name)
      (isDeclaration : f.isDeclaration = false)
      (span : f.span = d.prototype.nameSpan) (signature : f.signature = d.prototype.signature)

theorem addDefinition_outcome {item : ItemRef} (hfind : s.table.findFunction? d.name = none) :
    Outcome d s ({ s with definitions := s.definitions + 1 }.addDefinition d item) := by
  have hundefined := SymbolTable.defined?_of_none hfind
  have hplace := SymbolTable.place_of_none hfind
  rcases addItem_next { s with definitions := s.definitions + 1 } d.prototype item false with
    ⟨hunknown, hadd⟩ | ⟨returnType, params, ids, t', hknown, hadd, htypes, happends⟩
  · rw [addDefinition, hadd]
    exact .untyped hundefined hunknown rfl rfl
  · have hsize : t'.functions.size = s.table.functions.size + 1 := happends.size
    rw [addDefinition, hadd]
    refine .entered (f := d.prototype.functionSymbol item false returnType ids) hundefined hknown
      rfl (by rw [hplace]; rfl) htypes (by omega) (by omega)
      (fun hfit => ⟨.of_lt (happends.lt_capacity hfit) d.name, ?_, rfl⟩) rfl rfl rfl
    exact hplace ▸ happends.sets hfit

theorem mergeDefinition_outcome {item : ItemRef} {id : FuncId} {g : FunctionSymbol}
    (hfind : s.table.findFunction? d.name = some id) (hg : s.table.getFunction? id = some g)
    (hd : g.isDeclaration = true) :
    Outcome d s ({ s with definitions := s.definitions + 1 }.mergeDefinition id d item) := by
  have hundefined : s.table.defined? d.name = none := by
    rw [SymbolTable.defined?_of_some hfind hg, if_pos hd]
  have hplace := SymbolTable.place_of_some hfind
  rcases mergeDefinition_next { s with definitions := s.definitions + 1 } id d item with
    ⟨hunknown, hmerge⟩ | ⟨returnType, params, ids, t', hknown, hmerge, htypes, hfunctions⟩
  · rw [hmerge]
    exact .untyped hundefined hunknown rfl rfl
  · have hsize : t'.functions.size = s.table.functions.size := by
      rw [hfunctions, Array.size_modify]
    rw [hmerge]
    refine .entered (f := { d.prototype.functionSymbol item false returnType ids with
        name := g.name, locals := g.locals, enclosing := g.enclosing }) hundefined hknown rfl
      (by rw [hplace]; rfl) htypes (by omega) (by omega) (fun hfit => ?_) rfl rfl rfl
    have hroom : s.table.HasRoom d.name := .of_some (Nat.le_trans (by omega) hfit) hfind
    have hsets := SymbolTable.sets_of_functions_modify hfunctions hg
    have hname : g.name = d.name := hroom.name_of_place (hplace ▸ hg)
    exact ⟨hroom, hplace ▸ hsets, hname⟩

theorem bindDefinition_outcome (d : FunctionDefinition) (s : Declaring) :
    Outcome d s (bindDefinition d s) := by
  cases bindDefinition_step d s with
  | refused hfind hf hd heq =>
    rw [heq, report_eq_next]
    refine .refused ?_ rfl rfl
    rw [SymbolTable.defined?_of_some hfind hf, hd]
    rfl
  | added hfind heq =>
    rw [heq]
    exact addDefinition_outcome hfind
  | merged hfind hf hd heq =>
    rw [heq]
    exact mergeDefinition_outcome hfind hf hd

/-- After a walk over some items, with the errors that were found. -/
structure Found (s s' : Declaring) (items : Nat) (errors : List SemanticError) : Prop where
  scope : s'.scope = .global
  types : s'.table.types = s.table.types
  errors : s'.errors = s.errors ++ errors.toArray
  size : s'.table.functions.size ≤ s.table.functions.size + items

theorem Found.nil (hs : s.scope = .global) : Found s s 0 [] :=
  ⟨hs, rfl, by simp, Nat.le_refl _⟩

theorem Found.append {s' s'' : Declaring} {items items' : Nat} {errors errors' : List SemanticError}
    (h : Found s s' items errors) (h' : Found s' s'' items' errors') :
    Found s s'' (items + items') (errors ++ errors') := by
  refine ⟨h'.scope, h'.types.trans h.types, ?_, ?_⟩
  · rw [h'.errors, h.errors]
    simp [Array.append_assoc]
  · exact Nat.le_trans h'.size (by have := h.size; omega)

/-- What is found at a definition depends on what the table knows of its name. -/
def complaints (t : SymbolTable) (d : FunctionDefinition) : List SemanticError :=
  match t.previous? d.name with
  | some (span, signature) =>
    [⟨.duplicateDefinition span signature, d.name, d.prototype.nameSpan⟩]
  | none => d.prototype.faults t.types d.body.variables

theorem complaints_of_none {t : SymbolTable} (h : t.previous? d.name = none) :
    complaints t d = d.prototype.faults t.types d.body.variables := by
  rw [complaints, h]

theorem faults_eq_complaints {t : SymbolTable} (h : t.Records t.types done)
    (d : FunctionDefinition) : d.faults t.types done = complaints t d := by
  rw [FunctionDefinition.faults, h.redefinition?_eq, complaints]
  cases t.previous? d.name <;> rfl

theorem declareDefinition_found (d : FunctionDefinition) (hs : s.scope = .global) :
    Found s (declareDefinition d s).2 1 (complaints s.table d) ∧
      (s.table.functions.size < Handle.capacity → ∀ done, s.table.Records s.table.types done →
        (declareDefinition d s).2.table.Records s.table.types (done ++ [d])) := by
  unfold declareDefinition
  cases bindDefinition_outcome d s with
  | @refused f hdefined _ heq =>
    have hprevious : s.table.previous? d.name = some (f.span, f.signature) := by
      rw [SymbolTable.previous?, hdefined]
      rfl
    -- no scope was entered, so the variables of the body are passed over
    dsimp only
    rw [bindBody_global _ (by rw [heq]; exact hs), heq, complaints, hprevious]
    refine ⟨⟨rfl, rfl, rfl, Nat.le_succ _⟩, fun _ _ hrec => hrec.refused (Or.inr ?_)⟩
    rw [hprevious]
    exact Option.some_ne_none _
  | untyped hundefined hunknown _ heq =>
    have hprevious : s.table.previous? d.name = none := by
      rw [SymbolTable.previous?, hundefined]
      rfl
    dsimp only
    rw [bindBody_global _ (by rw [heq]; exact hs), heq, complaints_of_none hprevious,
      Prototype.faults, hunknown]
    refine ⟨⟨rfl, rfl, rfl, Nat.le_succ _⟩, fun _ _ hrec => hrec.refused (Or.inl ?_)⟩
    rw [FunctionDefinition.returns, hunknown]
    rfl
  | @entered f t' returnType hundefined hknown hbody heq htypes _ hsize hsets hd hspan hsig =>
    have hprevious : s.table.previous? d.name = none := by
      rw [SymbolTable.previous?, hundefined]
      rfl
    have hreturns : d.returns s.table.types = true := by
      rw [FunctionDefinition.returns, hknown]
      rfl
    obtain ⟨b', t'', hb, ht⟩ := bindBody_next (bindDefinition d s).1.body
      (s := (bindDefinition d s).2) (by rw [heq])
    dsimp only
    rw [hb, heq, hbody, complaints_of_none hprevious, Prototype.faults, hknown]
    rw [heq] at ht
    refine ⟨⟨rfl, ht.types.trans htypes, ?_, ?_⟩, fun hroom done hrec => ?_⟩
    · simp [next, htypes]
    · exact ht.functions.size_eq.symm ▸ hsize
    · have hfit : t'.FunctionsFit := Nat.le_trans hsize hroom
      obtain ⟨hroom, hset, hname⟩ := hsets hfit
      exact (hrec.entered hset hroom hfit hname hd hspan hsig hreturns
        hprevious).sameButLocals ht.functions

theorem walkList_declareDefinition_found (ds : List FunctionDefinition) (hs : s.scope = .global)
    (hroom : s.table.functions.size + ds.length ≤ Handle.capacity)
    (hrec : s.table.Records s.table.types done) :
    Found s (walkList declareDefinition ds s).2 ds.length
      (definitionFaults s.table.types done ds) := by
  induction ds generalizing done s with
  | nil => exact .nil hs
  | cons d ds ih =>
    rw [List.length_cons] at hroom
    obtain ⟨hfound, hrecords⟩ := declareDefinition_found d hs
    have hrec' := hrecords (by omega) done hrec
    have hsize := hfound.size
    rw [← hfound.types] at hrec'
    have hrest := hfound.append (ih hfound.scope (by omega) hrec')
    rw [hfound.types, ← faults_eq_complaints hrec, Nat.add_comm 1] at hrest
    rwa [walkList_cons, definitionFaults, List.length_cons]

/-- However many definitions there are, nothing else is found than what a table can complain of. -/
theorem walkList_declareDefinition_complaints (ds : List FunctionDefinition)
    (hs : s.scope = .global) :
    ∃ errors, Found s (walkList declareDefinition ds s).2 ds.length errors ∧
      ∀ e ∈ errors, ∃ d ∈ ds, ∃ t : SymbolTable, t.types = s.table.types ∧ e ∈ complaints t d := by
  induction ds generalizing s with
  | nil => exact ⟨[], .nil hs, by simp⟩
  | cons d ds ih =>
    obtain ⟨hfound, -⟩ := declareDefinition_found d hs
    obtain ⟨errors, hrest, herrors⟩ := ih hfound.scope
    refine ⟨complaints s.table d ++ errors, ?_, fun e he => ?_⟩
    · rw [walkList_cons, List.length_cons, ← Nat.add_comm 1]
      exact hfound.append hrest
    · rcases List.mem_append.mp he with he | he
      · exact ⟨d, List.mem_cons_self, s.table, rfl, he⟩
      · obtain ⟨d', hd', t, ht, he⟩ := herrors e he
        exact ⟨d', List.mem_cons_of_mem _ hd', t, ht.trans hfound.types, he⟩

/-- While declarations are met, nothing is defined. -/
def Undefined (s : Declaring) : Prop :=
  ∀ id f, s.table.getFunction? id = some f → f.isDeclaration = true

theorem bindDeclaration_found (d : FunctionDeclaration) (hs : s.scope = .global) :
    Found s (bindDeclaration d s).2 1 (d.faults s.table.types) ∧
      (s.table.functions.size < Handle.capacity → s.Undefined →
        (bindDeclaration d s).2.Undefined) := by
  rcases addItem_next { s with declarations := s.declarations + 1 } d.prototype
      (.declaration s.declarations) true with
    ⟨hunknown, hadd⟩ | ⟨returnType, params, ids, t', hknown, hadd, htypes, happends⟩
  · have hfaults : d.faults s.table.types = d.prototype.returnType.faults s.table.types := by
      rw [FunctionDeclaration.faults, Prototype.faults, hunknown]
    simp only [bindDeclaration, hadd, hfaults]
    exact ⟨⟨hs, rfl, rfl, Nat.le_succ _⟩, fun _ => id⟩
  · have hfaults : d.faults s.table.types
        = d.prototype.params.flatMap (·.type.faults s.table.types) := by
      rw [FunctionDeclaration.faults, Prototype.faults, hknown, List.flatMap_nil, List.append_nil]
    simp only [bindDeclaration, hadd, hfaults]
    refine ⟨⟨hs, htypes, rfl, Nat.le_of_eq happends.size⟩, fun hroom hundefined id f hf => ?_⟩
    have hsets := happends.sets (happends.fits hroom)
    by_cases hid : id = .ofIndex s.table.functions.size
    · subst hid
      obtain rfl := Option.some.inj (hsets.1.symm.trans hf)
      rfl
    · exact hundefined id f ((hsets.2 id hid).symm.trans hf)

theorem walkList_bindDeclaration_found (ds : List FunctionDeclaration) (hs : s.scope = .global) :
    Found s (walkList bindDeclaration ds s).2 ds.length (ds.flatMap (·.faults s.table.types)) ∧
      (s.table.functions.size + ds.length ≤ Handle.capacity → s.Undefined →
        (walkList bindDeclaration ds s).2.Undefined) := by
  induction ds generalizing s with
  | nil => exact ⟨.nil hs, fun _ => id⟩
  | cons d ds ih =>
    obtain ⟨hfound, hundefined⟩ := bindDeclaration_found d hs
    have hsize := hfound.size
    obtain ⟨hrest, hundefined'⟩ := ih hfound.scope
    have happend := hfound.append hrest
    rw [hfound.types, Nat.add_comm 1] at happend
    rw [walkList_cons, List.flatMap_cons, List.length_cons]
    refine ⟨happend, fun hroom hnone => ?_⟩
    exact hundefined' (by omega) (hundefined (by omega) hnone)

end Declaring

open Declaring Visitor

/-- The walk over a program finds just its faults, and no more functions than there are items. -/
theorem Program.walk_found (p : Program) (types : TypeRegistry)
    (hsize : p.unit.size ≤ Handle.capacity) :
    Found { table := { types } } (Declaring.visitor.walk p { table := { types } }).2 p.unit.size
      (p.unit.faults types) := by
  let s : Declaring := { table := { types } }
  let s' := (walkList bindDeclaration p.unit.declarations s).2
  have hundefined : s.Undefined := by
    intro id f hf
    simp [s, SymbolTable.getFunction?] at hf
  have hempty : s.table.functions.size = 0 := rfl
  unfold SourceUnit.size at hsize ⊢
  obtain ⟨hds, hnone⟩ := walkList_bindDeclaration_found p.unit.declarations (s := s) rfl
  have hnone := hnone (by omega) hundefined
  have hrec : s'.table.Records s'.table.types [] := by
    intro name
    rw [SymbolTable.previous?, SymbolTable.defined?_eq_none hnone]
    rfl
  have hcount := hds.size
  have hfs := walkList_declareDefinition_found p.unit.definitions hds.scope (by omega) hrec
  have hfound := hds.append hfs
  rw [hds.types] at hfound
  rw [walk_eq]
  exact hfound

theorem Program.walk_errors (p : Program) (types : TypeRegistry)
    (hsize : p.unit.size ≤ Handle.capacity) :
    (Declaring.visitor.walk p { table := { types } }).2.errors.toList = p.unit.faults types := by
  rw [(p.walk_found types hsize).errors]
  simp

theorem Program.walk_complaints (p : Program) (types : TypeRegistry)
    (hknown : ∀ type ∈ p.unit.typeNames, type.Known types) :
    ∀ e ∈ (Declaring.visitor.walk p { table := { types } }).2.errors.toList,
      e.code = .duplicateDefinition ∧
        ∃ d ∈ p.unit.definitions, e.name = d.name ∧ e.span = d.prototype.nameSpan := by
  rw [SourceUnit.typeNames, List.forall_mem_append] at hknown
  have hdeclarations := flatMap_faults_eq_nil_iff.mpr hknown.1
  obtain ⟨hds, -⟩ := walkList_bindDeclaration_found p.unit.declarations
    (s := { table := { types } }) rfl
  obtain ⟨errors, hfs, herrors⟩ :=
    walkList_declareDefinition_complaints p.unit.definitions hds.scope
  have hfound := (hds.append hfs).errors
  rw [hds.types] at herrors
  intro e he
  rw [walk_eq] at he
  simp only [hfound, hdeclarations, List.nil_append, Array.toList_append] at he
  obtain ⟨d, hd, t, ht, he⟩ := herrors e (by simpa using he)
  rw [complaints] at he
  split at he
  next span signature _ =>
    obtain rfl := List.mem_singleton.mp he
    exact ⟨rfl, d, hd, rfl, rfl⟩
  next =>
    have hnil : d.prototype.faults t.types d.body.variables = [] := by
      rw [ht, Prototype.faults_eq_nil_iff]
      exact fun type htype => hknown.2 type (List.mem_flatMap.mpr ⟨d, hd, htype⟩)
    rw [hnil] at he
    cases he

theorem Program.size_functions_of_declare {p q : Program} {types : TypeRegistry} {t : SymbolTable}
    (h : p.declare types = (q, .ok t)) (hsize : p.unit.size ≤ Handle.capacity) :
    t.functions.size ≤ p.unit.size := by
  obtain ⟨s, hw, -, rfl⟩ := declare_eq_ok h
  have hfound := (p.walk_found types hsize).size
  rw [hw] at hfound
  simpa using hfound

end MiniC
