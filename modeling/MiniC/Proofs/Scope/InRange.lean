import MiniC.Proofs.Scope.Declaring
import MiniC.Proofs.Scope.Lookup

/-! # Handles in range

No function holds a handle behind the last variable of its table, and no walk stands in a scope
behind its last function. Each step of the declaring walk keeps this, also a step that finds an
error, and also in a table that does not fit its handles: a handle that lost bits is smaller than
the number it was made from.
-/

namespace MiniC

namespace SymbolTable

variable {t : SymbolTable} {id : FuncId} {f : FunctionSymbol}

theorem exists_variable_of_lt {v : VarId} (h : v.index < t.vars.size) :
    ∃ x, t.getVariable? v = some x :=
  ⟨_, Array.getElem?_eq_getElem h⟩

/-- The handles of a function are in range, though they can be those of another function. -/
structure Encloses (t : SymbolTable) (f : FunctionSymbol) : Prop where
  params : ∀ v ∈ f.params, v.index < t.vars.size
  locals : ∀ name v, f.locals.get? name = some v → v.index < t.vars.size

def InRange (t : SymbolTable) : Prop := ∀ f ∈ t.functions, t.Encloses f

theorem InRange.encloses (h : t.InRange) (hf : t.getFunction? id = some f) : t.Encloses f :=
  h f (Array.mem_of_getElem? hf)

theorem inRange_empty (types : TypeRegistry) : ({ types } : SymbolTable).InRange := by
  intro f hf
  simp at hf

theorem Encloses.addVariable (h : t.Encloses f) (x : VariableSymbol) :
    (t.addVariable x).2.Encloses f := by
  have hle : t.vars.size ≤ (t.addVariable x).2.vars.size := by simp
  exact ⟨fun v hv => Nat.lt_of_lt_of_le (h.params v hv) hle,
    fun name v hv => Nat.lt_of_lt_of_le (h.locals name v hv) hle⟩

theorem index_addVariable_lt (t : SymbolTable) (x : VariableSymbol) :
    (t.addVariable x).1.index < (t.addVariable x).2.vars.size := by
  rw [size_vars_addVariable]
  exact Nat.lt_succ_of_le (Handle.index_ofIndex_le _)

theorem index_addFunction_lt (t : SymbolTable) (f : FunctionSymbol) :
    (t.addFunction f).1.index < (t.addFunction f).2.functions.size := by
  rw [size_functions_addFunction]
  exact Nat.lt_succ_of_le (Handle.index_ofIndex_le _)

theorem Encloses.insertLocal (h : t.Encloses f) (name : String) {v : VarId}
    (hv : v.index < t.vars.size) :
    t.Encloses { f with locals := (f.locals.insert name v).2 } := by
  refine ⟨h.params, fun other w hw => ?_⟩
  rw [LocalTable.get?_insert] at hw
  split at hw
  · obtain rfl := Option.some.inj hw
    exact hv
  · exact h.locals other w hw

theorem InRange.addFunction (h : t.InRange) (hf : t.Encloses f) :
    (t.addFunction f).2.InRange := by
  intro g hg
  have hencloses : t.Encloses g := by
    rcases Array.mem_push.mp hg with hg | rfl
    · exact h g hg
    · exact hf
  exact ⟨hencloses.params, hencloses.locals⟩

theorem InRange.addVariable (h : t.InRange) (x : VariableSymbol) : (t.addVariable x).2.InRange :=
  fun f hf => (h f hf).addVariable x

theorem InRange.modifyFunction (h : t.InRange) {g : FunctionSymbol → FunctionSymbol}
    (hg : ∀ f, t.Encloses f → t.Encloses (g f)) : (t.modifyFunction id g).InRange := by
  intro f' hf'
  obtain ⟨i, hi⟩ := Array.getElem?_of_mem hf'
  rw [SymbolTable.modifyFunction, Array.getElem?_modify] at hi
  have hencloses : t.Encloses f' := by
    split at hi
    · obtain ⟨f, hf, rfl⟩ := Option.map_eq_some_iff.mp hi
      exact hg f (h f (Array.mem_of_getElem? hf))
    · exact h f' (Array.mem_of_getElem? hi)
  exact ⟨hencloses.params, hencloses.locals⟩

end SymbolTable

namespace Declaring

open Visitor

/-- The handles of the table are in range, and so is the scope in which the walk stands. -/
structure Sound (s : Declaring) : Prop where
  inRange : s.table.InRange
  scope : ∀ id, s.scope = .function id → id.index < s.table.functions.size

variable {s s₀ : Declaring} {owner : FuncId}

theorem Sound.report (hs : s.Sound) (kind : SemanticErrorKind) (name : String) (span : Span) :
    (s.report kind name span).Sound :=
  ⟨hs.inRange, hs.scope⟩

/-- Behind some parameters, whose handles are in range. -/
structure Passed (s₀ : Declaring) (r : List VarId × Declaring) : Prop where
  sound : r.2.Sound
  functions : r.2.table.functions = s₀.table.functions
  handles : ∀ v ∈ r.1, v.index < r.2.table.vars.size

theorem bindParameter_passed (owner : FuncId) (p : Parameter) {r : List VarId × Declaring}
    (h : Passed s₀ r) : Passed s₀ (bindParameter owner p r).2 := by
  rcases r.2.typeOf_cases p.type with ⟨type, -, htype⟩ | ⟨-, htype⟩
  · simp only [bindParameter, htype]
    refine ⟨⟨h.sound.inRange.addVariable _, h.sound.scope⟩, h.functions, fun v hv => ?_⟩
    rcases List.mem_cons.mp hv with rfl | hv
    · exact SymbolTable.index_addVariable_lt _ _
    · have hlt := Nat.lt_succ_of_lt (h.handles v hv)
      simpa using hlt
  · simp only [bindParameter, htype]
    exact ⟨h.sound.report _ _ _, h.functions, h.handles⟩

theorem bindParameters_passed (hs : s.Sound) (owner : FuncId) (p : Prototype) :
    Passed s (s.bindParameters owner p).2 := by
  have hnil : Passed s ([], s) := ⟨hs, rfl, by simp⟩
  have h :=
    walkList_preserves (P := Passed s) (fun p _ => bindParameter_passed owner p) p.params hnil
  exact ⟨h.sound, h.functions, fun v hv => h.handles v (List.mem_reverse.mp hv)⟩

theorem Passed.size_eq {r : List VarId × Declaring} (h : Passed s r) :
    r.2.table.functions.size = s.table.functions.size := by
  rw [h.functions]

theorem Passed.inRange {r : List VarId × Declaring} (h : Passed s₀ r)
    {g : FunctionSymbol → FunctionSymbol} (hparams : ∀ f, (g f).params = r.1)
    (hlocals : ∀ f, (g f).locals = f.locals) : (r.2.table.modifyFunction owner g).InRange := by
  refine h.sound.inRange.modifyFunction fun f hf => ⟨?_, ?_⟩
  · rw [hparams]
    exact h.handles
  · rw [hlocals]
    exact hf.locals

theorem addFunction_sound (hs : s.Sound) (p : Prototype) (item : ItemRef) (isDeclaration : Bool)
    (returnType : BuiltinType) :
    (s.addFunction (p.functionSymbol item isDeclaration returnType [])).2.Sound := by
  refine ⟨hs.inRange.addFunction ⟨nofun, nofun⟩, fun id hid => ?_⟩
  have hlt := Nat.lt_succ_of_lt (hs.scope id hid)
  simpa using hlt

theorem addItem_sound (hs : s.Sound) (p : Prototype) (item : ItemRef) (isDeclaration : Bool) :
    (s.addItem p item isDeclaration).2.Sound ∧ ∀ id,
      (s.addItem p item isDeclaration).1.1 = some id →
        id.index < (s.addItem p item isDeclaration).2.table.functions.size := by
  rcases s.typeOf_cases p.returnType with ⟨returnType, -, htype⟩ | ⟨-, htype⟩
  · have h := bindParameters_passed (addFunction_sound hs p item isDeclaration returnType)
      (.ofIndex s.table.functions.size) p
    simp only [addItem, htype]
    refine ⟨⟨h.inRange (fun _ => rfl) fun _ => rfl, fun id hid => ?_⟩, fun id hid => ?_⟩
    · exact Nat.lt_of_lt_of_eq (h.sound.scope id hid)
        (SymbolTable.size_functions_modifyFunction ..).symm
    · obtain rfl := Option.some.inj hid
      have hlt := SymbolTable.index_addFunction_lt s.table
        (p.functionSymbol item isDeclaration returnType [])
      simpa using h.size_eq.symm ▸ hlt
  · simp only [addItem, htype]
    exact ⟨hs.report _ _ _, by simp⟩

theorem addDefinition_sound (hs : s.Sound) (d : FunctionDefinition) (item : ItemRef) :
    (s.addDefinition d item).2.Sound := by
  obtain ⟨hsound, hlt⟩ := addItem_sound hs d.prototype item false
  refine ⟨hsound.inRange, fun id hid => ?_⟩
  simp only [addDefinition] at hid
  split at hid
  next id' hid' =>
    obtain rfl := ScopeId.function.inj hid
    exact hlt _ hid'
  · exact hsound.scope id hid

theorem mergeDefinition_sound (hs : s.Sound) {id : FuncId} {f : FunctionSymbol}
    (hf : s.table.getFunction? id = some f) (d : FunctionDefinition) (item : ItemRef) :
    (s.mergeDefinition id d item).2.Sound := by
  rcases s.typeOf_cases d.prototype.returnType with ⟨returnType, -, htype⟩ | ⟨-, htype⟩
  · have h := bindParameters_passed hs id d.prototype
    simp only [mergeDefinition, htype]
    -- the parameters of the declaration stay in the table, but the function holds them no more
    refine ⟨h.inRange (fun _ => rfl) fun _ => rfl, fun id' hid' => ?_⟩
    obtain rfl := ScopeId.function.inj hid'
    have hlt : id.index < s.table.functions.size := SymbolTable.index_lt_iff.mpr ⟨f, hf⟩
    simpa using h.size_eq.symm ▸ hlt
  · simp only [mergeDefinition, htype]
    exact hs.report _ _ _

theorem bindDeclaration_sound (hs : s.Sound) (d : FunctionDeclaration) :
    (bindDeclaration d s).2.Sound :=
  (addItem_sound (s := { s with declarations := s.declarations + 1 }) ⟨hs.inRange, hs.scope⟩
    d.prototype _ true).1

theorem bindDefinition_sound (hs : s.Sound) (d : FunctionDefinition) :
    (bindDefinition d s).2.Sound := by
  have hs' : { s with definitions := s.definitions + 1 }.Sound := ⟨hs.inRange, hs.scope⟩
  cases bindDefinition_step d s with
  | refused _ _ _ heq => exact heq ▸ hs'.report _ _ _
  | added _ heq => exact heq ▸ addDefinition_sound hs' d _
  | merged _ hf _ heq => exact heq ▸ mergeDefinition_sound hs' hf d _

theorem bindVariable_sound (hs : s.Sound) (d : VariableDeclaration) :
    (bindVariable d s).2.Sound := by
  unfold bindVariable
  split
  · exact hs
  next owner hscope =>
    rcases s.typeOf_cases d.type with ⟨type, -, htype⟩ | ⟨-, htype⟩
    · rw [htype]
      have hlt := SymbolTable.index_addVariable_lt s.table ⟨d.name, type, d.nameSpan, owner⟩
      refine ⟨(hs.inRange.addVariable _).modifyFunction fun f hf => hf.insertLocal d.name hlt,
        fun id hid => ?_⟩
      simpa using hs.scope id hid
    · rw [htype]
      exact hs.report _ _ _

end Declaring

end MiniC
