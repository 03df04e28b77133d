import MiniC.Proofs.Scope.Entering
import MiniC.Proofs.Tree.Replacing

/-! # Handles are overwritten

The declaring walk never looks at a handle. What it does to its state depends on the elements
emptied of their handles, and without errors so do the elements it makes. A second walk over its
own result therefore makes the same result again. Expressions pass through the walk unchanged.
-/

namespace MiniC

open Relabelling (unbound)

namespace Visitor

variable {σ τ α : Type} {P : τ → Prop} {empty : α → α}

/-- A step overwrites the handles that `empty` drops, as long as it ends in a state with `P`. -/
structure Overwrites (P : τ → Prop) (empty : α → α) (f : α → σ → α × τ) : Prop where
  state : ∀ a s, (f (empty a) s).2 = (f a s).2
  answer : ∀ a s, P (f a s).2 → (f (empty a) s).1 = (f a s).1
  /-- Nothing but handles is changed. -/
  kept : ∀ a s, empty (f a s).1 = empty a

/-- A step makes its own result again. -/
theorem Overwrites.rerun {f : α → σ → α × τ} (h : Overwrites P empty f) {a : α} {s : σ}
    (hs : P (f a s).2) : f (f a s).1 s = f a s := by
  have hstate : (f (f a s).1 s).2 = (f a s).2 := by rw [← h.state, h.kept, h.state]
  refine Prod.ext ?_ hstate
  rw [← h.answer _ s (hstate ▸ hs), h.kept, h.answer a s hs]

theorem Overwrites.walkList {f : α → τ → α × τ} (h : Overwrites P empty f)
    (backward : ∀ a s, P (f a s).2 → P s) : Overwrites P (List.map empty) (walkList f) where
  state := by
    intro as s
    induction as generalizing s with
    | nil => rfl
    | cons a as ih => rw [List.map_cons, walkList_cons, walkList_cons, h.state, ih]
  answer := by
    intro as s hs
    induction as generalizing s with
    | nil => rfl
    | cons a as ih =>
      rw [walkList_cons] at hs
      have ha := h.answer a s (walkList_backward backward as _ hs)
      rw [List.map_cons, walkList_cons, walkList_cons, h.state, ha, ih _ hs]
  kept := fun as s => map_walkList empty h.kept as s

/-- If each step repeats its result also with a change `g` to it, the walk of a list does. -/
theorem walkList_rerun {f : α → τ → α × τ} {g : α → α}
    (step : ∀ a s, P (f a s).2 → f (g (f a s).1) s = (g (f a s).1, (f a s).2))
    (backward : ∀ a s, P (f a s).2 → P s) (as : List α) {s : τ} (hs : P (walkList f as s).2) :
    walkList f ((walkList f as s).1.map g) s
      = ((walkList f as s).1.map g, (walkList f as s).2) := by
  induction as generalizing s with
  | nil => rfl
  | cons a as ih =>
    rw [walkList_cons] at hs ⊢
    rw [List.map_cons, walkList_cons, step a s (walkList_backward backward as _ hs), ih hs]

end Visitor

/-- A declared function becomes the defined one and keeps its name, variables and scope. -/
def FunctionSymbol.defined (declared defined : FunctionSymbol) : FunctionSymbol :=
  { defined with
    name := declared.name, locals := declared.locals, enclosing := declared.enclosing }

namespace Declaring

open Visitor

variable {s : Declaring}

theorem bindParameter_overwrites (owner : FuncId) :
    Overwrites (fun s : List VarId × Declaring => s.2.Clean) (·.relabel unbound)
      (bindParameter owner) where
  state := by
    rintro p ⟨ids, s⟩
    rcases s.typeOf_cases p.type with ⟨type, -, hs⟩ | ⟨-, hs⟩
    · simp only [bindParameter, Parameter.relabel, TypeName.relabel, Relabelling.unbound_span, hs]
    · simp only [bindParameter, Parameter.relabel, TypeName.relabel, Relabelling.unbound_span, hs]
  answer := by
    rintro p ⟨ids, s⟩ h
    rcases s.typeOf_cases p.type with ⟨type, -, hs⟩ | ⟨-, hs⟩
    · simp only [bindParameter, Parameter.relabel, TypeName.relabel, Relabelling.unbound_span, hs]
    · simp only [bindParameter, hs] at h
      exact absurd h (not_clean_report _ _ _ _)
  kept := fun p s => bindParameter_relabel owner p s

theorem bindParameter_backward (owner : FuncId) (p : Parameter) (s : List VarId × Declaring)
    (h : (bindParameter owner p s).2.2.Clean) : s.2.Clean := by
  obtain ⟨ids, s⟩ := s
  obtain ⟨-, -, hs, -⟩ := bindParameter_clean h
  exact hs

theorem bindParameters_overwrites (owner : FuncId) :
    Overwrites (fun r : List VarId × Declaring => r.2.Clean) (·.relabel unbound)
      (fun (p : Prototype) (s : Declaring) => s.bindParameters owner p) where
  state := by
    intro p s
    have h := ((bindParameter_overwrites owner).walkList (bindParameter_backward owner)).state
      p.params ([], s)
    simp only [bindParameters, Prototype.relabel]
    rw [h]
  answer := by
    intro p s hs
    have h := ((bindParameter_overwrites owner).walkList (bindParameter_backward owner)).answer
      p.params ([], s) hs
    simp only [bindParameters, Prototype.relabel]
    rw [h]
    rfl
  kept := fun p s => bindParameters_relabel s owner p

theorem functionSymbol_relabel (p : Prototype) (item : ItemRef) (isDeclaration : Bool)
    (returnType : BuiltinType) (ids : List VarId) :
    (p.relabel unbound).functionSymbol item isDeclaration returnType ids
      = p.functionSymbol item isDeclaration returnType ids := by
  rw [Prototype.functionSymbol, p.signature_relabel]
  rfl

theorem addItem_of_known {p : Prototype} {item : ItemRef} {isDeclaration : Bool}
    {returnType : BuiltinType} (h : s.typeOf p.returnType = (some returnType, s)) :
    s.addItem p item isDeclaration =
      let r := (s.addFunction (p.functionSymbol item isDeclaration returnType [])).2.bindParameters
        (.ofIndex s.table.functions.size) p
      ((some (.ofIndex s.table.functions.size), r.1),
        r.2.2.modifyFunction (.ofIndex s.table.functions.size) ({ · with params := r.2.1 })) := by
  simp only [addItem, h]
  rfl

theorem addItem_unbound (s : Declaring) (p : Prototype) (item : ItemRef) (isDeclaration : Bool) :
    (s.addItem (p.relabel unbound) item isDeclaration).2 = (s.addItem p item isDeclaration).2 ∧
      (s.addItem (p.relabel unbound) item isDeclaration).1.1
        = (s.addItem p item isDeclaration).1.1 ∧
      ((s.addItem p item isDeclaration).2.Clean →
        (s.addItem (p.relabel unbound) item isDeclaration).1.2
          = (s.addItem p item isDeclaration).1.2) := by
  have hover := bindParameters_overwrites (.ofIndex s.table.functions.size)
  rcases s.typeOf_cases p.returnType with ⟨returnType, -, hs⟩ | ⟨-, hs⟩
  · have hs' : s.typeOf (p.relabel unbound).returnType = (some returnType, s) := hs
    rw [addItem_of_known hs, addItem_of_known hs', functionSymbol_relabel]
    dsimp only
    rw [hover.state]
    exact ⟨rfl, rfl, hover.answer _ _⟩
  · have hs' : s.typeOf (p.relabel unbound).returnType
        = (none, s.report .unknownType p.returnType.name p.returnType.span) := hs
    simp only [addItem, hs, hs', true_and]
    exact fun h => absurd h (not_clean_report _ _ _ _)

theorem bindDeclaration_overwrites : Overwrites Clean (·.relabel unbound) bindDeclaration where
  state := fun d s =>
    (addItem_unbound { s with declarations := s.declarations + 1 } d.prototype _ true).1
  answer := by
    intro d s h
    obtain ⟨-, hsymbol, hprototype⟩ := addItem_unbound
      { s with declarations := s.declarations + 1 } d.prototype (.declaration s.declarations) true
    simp only [bindDeclaration, FunctionDeclaration.relabel]
    rw [hsymbol, hprototype h]
    rfl
  kept := by
    intro d s
    have hprototype := addItem_relabel { s with declarations := s.declarations + 1 } d.prototype
      (.declaration s.declarations) true
    simp only [bindDeclaration, FunctionDeclaration.relabel]
    rw [hprototype]
    rfl

theorem addDefinition_overwrites (item : ItemRef) :
    Overwrites Clean FunctionDefinition.bare
      (fun (d : FunctionDefinition) (s : Declaring) => s.addDefinition d item) where
  state := by
    intro d s
    obtain ⟨hstate, hsymbol, -⟩ := s.addItem_unbound d.prototype item false
    simp only [addDefinition, FunctionDefinition.bare]
    rw [hstate, hsymbol]
  answer := by
    intro d s h
    obtain ⟨-, hsymbol, hprototype⟩ := s.addItem_unbound d.prototype item false
    simp only [addDefinition, FunctionDefinition.bare]
    rw [hsymbol, hprototype h]
  kept := by
    intro d s
    have hprototype := s.addItem_relabel d.prototype item false
    simp only [addDefinition, FunctionDefinition.bare]
    rw [hprototype]

theorem mergeDefinition_of_known {id : FuncId} {d : FunctionDefinition}
    {item : ItemRef} {returnType : BuiltinType}
    (h : s.typeOf d.prototype.returnType = (some returnType, s)) :
    s.mergeDefinition id d item =
      let r := s.bindParameters id d.prototype
      ({ d with prototype := r.1, symbol := some id },
        { r.2.2.modifyFunction id
            (·.defined (d.prototype.functionSymbol item false returnType r.2.1)) with
          scope := .function id }) := by
  simp only [mergeDefinition, h]
  rfl

theorem mergeDefinition_overwrites (id : FuncId) (item : ItemRef) :
    Overwrites Clean FunctionDefinition.bare
      (fun (d : FunctionDefinition) (s : Declaring) => s.mergeDefinition id d item) where
  state := by
    intro d s
    have hover := (bindParameters_overwrites id).state d.prototype s
    rcases s.typeOf_cases d.prototype.returnType with ⟨returnType, -, hs⟩ | ⟨-, hs⟩
    · have hs' : s.typeOf d.bare.prototype.returnType = (some returnType, s) := hs
      simp only [mergeDefinition_of_known hs, mergeDefinition_of_known hs']
      simp only [FunctionDefinition.bare, functionSymbol_relabel, hover]
    · have hs' : s.typeOf d.bare.prototype.returnType = (none, s.report .unknownType
          d.prototype.returnType.name d.prototype.returnType.span) := hs
      simp only [mergeDefinition, hs, hs']
  answer := by
    intro d s h
    rcases s.typeOf_cases d.prototype.returnType with ⟨returnType, -, hs⟩ | ⟨-, hs⟩
    · have hs' : s.typeOf d.bare.prototype.returnType = (some returnType, s) := hs
      have hover := (bindParameters_overwrites id).answer d.prototype s
      rw [mergeDefinition_of_known hs] at h
      simp only [mergeDefinition_of_known hs, mergeDefinition_of_known hs']
      simp only [FunctionDefinition.bare]
      rw [hover h]
    · simp only [mergeDefinition, hs] at h
      exact absurd h (not_clean_report _ _ _ _)
  kept := by
    intro d s
    rcases s.typeOf_cases d.prototype.returnType with ⟨returnType, -, hs⟩ | ⟨-, hs⟩
    · have hprototype := s.bindParameters_relabel id d.prototype
      simp only [mergeDefinition_of_known hs, FunctionDefinition.bare]
      rw [hprototype]
    · simp only [mergeDefinition, hs]

/-- What is done to a definition depends on its name and the state only. Whichever way it goes, it
overwrites its handles, and what it is done to does not depend on its body. -/
theorem bindDefinition_way (s : Declaring) (name : String) :
    ∃ way : FunctionDefinition → Declaring → FunctionDefinition × Declaring,
      Overwrites Clean FunctionDefinition.bare way ∧
      (∀ d b s, way { d with body := b } s = ({ (way d s).1 with body := b }, (way d s).2)) ∧
      ∀ d : FunctionDefinition, d.name = name →
        bindDefinition d s = way d { s with definitions := s.definitions + 1 } := by
  cases hfind : s.table.findFunction? name with
  | none =>
    refine ⟨_, addDefinition_overwrites (.definition s.definitions), fun _ _ _ => rfl, ?_⟩
    rintro d rfl
    simp only [bindDefinition, hfind]
  | some id =>
    obtain ⟨f, hf⟩ := SymbolTable.exists_function_of_findIdx? hfind
    cases hd : f.isDeclaration with
    | true =>
      refine ⟨_, mergeDefinition_overwrites id (.definition s.definitions), fun d b s => ?_, ?_⟩
      · unfold mergeDefinition
        dsimp only
        split <;> rfl
      · rintro d rfl
        simp [bindDefinition, hfind, hf, hd]
    | false =>
      refine ⟨fun d s => (d, s.report (.duplicateDefinition f.span f.signature) d.name
        d.prototype.nameSpan), ⟨fun _ _ => rfl, fun _ _ h => ?_, fun _ _ => rfl⟩,
        fun _ _ _ => rfl, ?_⟩
      · exact absurd h (not_clean_report _ _ _ _)
      · rintro d rfl
        simp [bindDefinition, hfind, hf, hd]

theorem bindDefinition_overwrites : Overwrites Clean FunctionDefinition.bare bindDefinition where
  state := by
    intro d s
    obtain ⟨way, hover, -, hway⟩ := bindDefinition_way s d.name
    rw [hway d rfl, hway d.bare rfl, hover.state]
  answer := by
    intro d s h
    obtain ⟨way, hover, -, hway⟩ := bindDefinition_way s d.name
    rw [hway d rfl] at h ⊢
    rw [hway d.bare rfl, hover.answer _ _ h]
  kept := by
    intro d s
    obtain ⟨way, hover, -, hway⟩ := bindDefinition_way s d.name
    rw [hway d rfl, hover.kept]

theorem bindDefinition_withBody (d : FunctionDefinition) (b : FunctionBody) (s : Declaring) :
    bindDefinition { d with body := b } s
      = ({ (bindDefinition d s).1 with body := b }, (bindDefinition d s).2) := by
  obtain ⟨way, -, hbody, hway⟩ := bindDefinition_way s d.name
  rw [hway d rfl, hway { d with body := b } rfl, hbody]

theorem bindDefinition_body (d : FunctionDefinition) (s : Declaring) :
    (bindDefinition d s).1.body = d.body :=
  congrArg (·.1.body) (bindDefinition_withBody d d.body s)

/-- The walk within a function, without errors. -/
def Inside (s : Declaring) : Prop := s.Clean ∧ s.scope ≠ .global

theorem Inside.exists_owner (h : s.Inside) : ∃ owner, s.scope = .function owner := by
  cases hs : s.scope with
  | global => exact absurd hs h.2
  | function owner => exact ⟨owner, rfl⟩

theorem bindVariable_scope (d : VariableDeclaration) (s : Declaring) :
    (bindVariable d s).2.scope = s.scope := by
  cases hs : s.scope with
  | global => simp only [bindVariable, hs]
  | function owner =>
    rcases s.typeOf_cases d.type with ⟨type, -, htype⟩ | ⟨-, htype⟩
    · simp only [bindVariable, hs, htype]
      exact hs
    · simp only [bindVariable, hs, htype]
      exact hs

theorem bindVariable_inside (d : VariableDeclaration) (s : Declaring)
    (h : (bindVariable d s).2.Inside) : s.Inside :=
  ⟨bindVariable_backward d s h.1, bindVariable_scope d s ▸ h.2⟩

theorem bindVariable_overwrites : Overwrites Inside (·.relabel unbound) bindVariable where
  state := by
    intro d s
    cases hs : s.scope with
    | global => simp only [bindVariable, hs]
    | function owner =>
      rcases s.typeOf_cases d.type with ⟨type, -, htype⟩ | ⟨-, htype⟩
      · simp only [bindVariable, VariableDeclaration.relabel, TypeName.relabel,
          Relabelling.unbound_span, hs, htype]
      · simp only [bindVariable, VariableDeclaration.relabel, TypeName.relabel,
          Relabelling.unbound_span, hs, htype]
  answer := by
    intro d s h
    obtain ⟨owner, hs⟩ := (bindVariable_inside d s h).exists_owner
    rcases s.typeOf_cases d.type with ⟨type, -, htype⟩ | ⟨-, htype⟩
    · simp only [bindVariable, VariableDeclaration.relabel, TypeName.relabel,
        Relabelling.unbound_span, hs, htype]
    · simp only [bindVariable, hs, htype] at h
      exact absurd h.1 (not_clean_report _ _ _ _)
  kept := by
    intro d s
    cases hs : s.scope with
    | global => simp only [bindVariable, hs]
    | function owner =>
      rcases s.typeOf_cases d.type with ⟨type, -, htype⟩ | ⟨-, htype⟩
      · simp only [bindVariable, hs, htype]
        rfl
      · simp only [bindVariable, hs, htype]

theorem bindStmt_inside (stmt : Stmt) (s : Declaring) (h : (bindStmt stmt s).2.Inside) :
    s.Inside := by
  cases stmt with
  | decl d => exact bindVariable_inside d s h
  | ret => exact h
  | expr => exact h

theorem bindStmt_overwrites : Overwrites Inside Stmt.emptied bindStmt where
  state := by
    intro stmt s
    cases stmt with
    | decl d => exact bindVariable_overwrites.state d s
    | ret => rfl
    | expr => rfl
  answer := by
    intro stmt s h
    cases stmt with
    | decl d => exact congrArg Stmt.decl (bindVariable_overwrites.answer d s h)
    | ret => rfl
    | expr => rfl
  kept := by
    intro stmt s
    cases stmt with
    | decl d => exact congrArg Stmt.decl (bindVariable_overwrites.kept d s)
    | ret => rfl
    | expr => rfl

theorem bindBody_overwrites : Overwrites Inside FunctionBody.emptied bindBody where
  state := by
    intro b s
    have hlocals := (bindVariable_overwrites.walkList bindVariable_inside).state b.locals s
    simp only [bindBody, FunctionBody.emptied]
    rw [hlocals, (bindStmt_overwrites.walkList bindStmt_inside).state]
  answer := by
    intro b s h
    have hstatements := (bindStmt_overwrites.walkList bindStmt_inside).answer b.statements _ h
    have hinside := walkList_backward bindStmt_inside b.statements _ h
    have hvariables := bindVariable_overwrites.walkList bindVariable_inside
    simp only [bindBody, FunctionBody.emptied]
    rw [hvariables.state, hvariables.answer b.locals s hinside, hstatements]
  kept := by
    intro b s
    simp only [bindBody, FunctionBody.emptied]
    rw [(bindVariable_overwrites.walkList bindVariable_inside).kept,
      (bindStmt_overwrites.walkList bindStmt_inside).kept]

/-- The walk over a definition as it was bound, with its own body. -/
theorem declareDefinition_eq (d : FunctionDefinition) (s : Declaring) :
    declareDefinition d s =
      let b := bindBody d.body (bindDefinition d s).2
      ({ (bindDefinition d s).1 with body := b.1 }, { b.2 with scope := .global }) := by
  rw [declareDefinition, bindDefinition_body]

theorem bindBody_inside {d : FunctionDefinition} {s : Declaring}
    (h : (declareDefinition d s).2.Clean) : (bindBody d.body (bindDefinition d s).2).2.Inside := by
  rw [declareDefinition_eq] at h
  obtain ⟨id, params, hd⟩ := bindDefinition_binds (bindBody_backward _ _ h)
  obtain ⟨f, hf⟩ := hd.function
  have hscope : (bindDefinition d s).2.scope = .function id := by rw [hd.eq]
  refine ⟨h, ?_⟩
  rw [(bindBody_declares hscope hf h).eq, withTable_scope, hscope]
  nofun

theorem bindDefinition_emptied (d : FunctionDefinition) (s : Declaring) :
    bindDefinition d.emptied s
      = ({ (bindDefinition d.bare s).1 with body := d.body.emptied }, (bindDefinition d s).2) := by
  rw [← bindDefinition_overwrites.state]
  exact bindDefinition_withBody d.bare d.body.emptied s

theorem declareDefinition_overwrites :
    Overwrites Clean FunctionDefinition.emptied declareDefinition where
  state := by
    intro d s
    simp only [declareDefinition_eq, bindDefinition_emptied]
    rw [FunctionDefinition.emptied, bindBody_overwrites.state]
  answer := by
    intro d s h
    have hbody := bindBody_overwrites.answer _ _ (bindBody_inside h)
    rw [declareDefinition_eq] at h
    have hbind := bindDefinition_overwrites.answer _ _ (bindBody_backward _ _ h)
    simp only [declareDefinition_eq, bindDefinition_emptied]
    rw [FunctionDefinition.emptied, hbody, hbind]
  kept := by
    intro d s
    have hbind := bindDefinition_overwrites.kept d s
    have hbody := bindBody_overwrites.kept d.body (bindDefinition d s).2
    rw [declareDefinition_eq]
    change ({ (bindDefinition d s).1.bare with
      body := (bindBody d.body (bindDefinition d s).2).1.emptied } : FunctionDefinition) = d.emptied
    rw [hbind, hbody]
    rfl

variable (f : Expr → Expr)

theorem bindStmt_mapExprs (stmt : Stmt) (s : Declaring) :
    bindStmt (stmt.mapExprs f) s = ((bindStmt stmt s).1.mapExprs f, (bindStmt stmt s).2) := by
  cases stmt <;> rfl

theorem bindBody_mapExprs (b : FunctionBody) (s : Declaring) :
    bindBody (b.mapExprs f) s = ((bindBody b s).1.mapExprs f, (bindBody b s).2) := by
  have hstatements := walkList_map (·.mapExprs f) id (bindStmt_mapExprs f) b.statements
    (walkList bindVariable b.locals s).2
  simp only [id_eq] at hstatements
  simp only [bindBody, FunctionBody.mapExprs]
  rw [hstatements]

theorem declareDefinition_mapExprs (d : FunctionDefinition) (s : Declaring) :
    declareDefinition (d.mapExprs f) s
      = ((declareDefinition d s).1.mapExprs f, (declareDefinition d s).2) := by
  have hbind : bindDefinition (d.mapExprs f) s
      = ({ (bindDefinition d s).1 with body := d.body.mapExprs f }, (bindDefinition d s).2) :=
    bindDefinition_withBody d (d.body.mapExprs f) s
  rw [declareDefinition_eq, declareDefinition_eq, hbind, FunctionDefinition.mapExprs,
    bindBody_mapExprs]
  rfl

end Declaring

end MiniC
