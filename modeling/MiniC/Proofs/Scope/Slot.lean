import MiniC.Proofs.Tree.Walk
import MiniC.Proofs.Scope.Table

/-! # Slots

A parameter of a prototype and a variable declared in a body are slots: each is to get a variable
of its own. A table fills a list of slots if it has one more variable for each of them, in their
order, and if every slot carries the number of its variable.
-/

namespace MiniC

/-- What the tree says about a variable, with the function it is to belong to. -/
structure Slot where
  name : String
  type : TypeName
  nameSpan : Span
  owner : Option FuncId
  symbol : Option VarId

def Parameter.slot (owner : Option FuncId) (p : Parameter) : Slot :=
  ⟨p.name, p.type, p.nameSpan, owner, p.symbol⟩

def VariableDeclaration.slot (owner : Option FuncId) (d : VariableDeclaration) : Slot :=
  ⟨d.name, d.type, d.nameSpan, owner, d.symbol⟩

def FunctionDeclaration.slots (d : FunctionDeclaration) : List Slot :=
  d.prototype.params.map (·.slot d.symbol)

def FunctionDefinition.slots (d : FunctionDefinition) : List Slot :=
  d.prototype.params.map (·.slot d.symbol) ++ d.body.variables.map (·.slot d.symbol)

def SourceUnit.slots (u : SourceUnit) : List Slot :=
  u.declarations.flatMap (·.slots) ++ u.definitions.flatMap (·.slots)

/-- There are handles for all items and for all slots of a unit. -/
structure SourceUnit.Fits (u : SourceUnit) : Prop where
  items : u.size ≤ Handle.capacity
  slots : u.slots.length ≤ Handle.capacity

/-- The variable for a slot, if it has an owner and its type is known. -/
def Slot.varSymbol? (types : TypeRegistry) (slot : Slot) : Option VariableSymbol :=
  slot.owner.bind fun owner => (types.get? slot.type.name).map fun type =>
    { name := slot.name, type, span := slot.nameSpan, owner }

theorem Slot.varSymbol?_eq_some_iff {types : TypeRegistry} {slot : Slot} {v : VariableSymbol} :
    slot.varSymbol? types = some v ↔ slot.owner = some v.owner ∧
      types.get? slot.type.name = some v.type ∧ v.name = slot.name ∧ v.span = slot.nameSpan := by
  constructor
  · intro h
    obtain ⟨owner, howner, h⟩ := Option.bind_eq_some_iff.mp h
    obtain ⟨type, htype, rfl⟩ := Option.map_eq_some_iff.mp h
    exact ⟨howner, htype, rfl, rfl⟩
  · rintro ⟨howner, htype, hname, hspan⟩
    rw [varSymbol?, howner, Option.bind_some, htype, Option.map_some, ← hname, ← hspan]

namespace SymbolTable

structure Fills (t t' : SymbolTable) (slots : List Slot) : Prop where
  types : t'.types = t.types
  /-- The slots carry the numbers behind those that were given before. -/
  symbols : slots.map (·.symbol)
    = (List.range' t.vars.size slots.length).map fun i => some (.ofIndex i)
  vars : t'.vars.toList.map some = t.vars.toList.map some ++ slots.map (·.varSymbol? t.types)

variable {t t' t'' : SymbolTable} {slots slots' : List Slot}

theorem Fills.nil (t : SymbolTable) : t.Fills t [] := ⟨rfl, rfl, by simp⟩

theorem Fills.size_vars (h : t.Fills t' slots) : t'.vars.size = t.vars.size + slots.length := by
  have hlength := congrArg List.length h.vars
  simpa using hlength

theorem Fills.append (h : t.Fills t' slots) (h' : t'.Fills t'' slots') :
    t.Fills t'' (slots ++ slots') := by
  refine ⟨h'.types.trans h.types, ?_, ?_⟩
  · rw [List.map_append, h.symbols, h'.symbols, h.size_vars, List.length_append, ← List.map_append,
      List.range'_append_1]
  · rw [h'.vars, h.vars, h.types, List.map_append, List.append_assoc]

theorem Fills.withFunctions (h : t.Fills t' slots) (fs fs' : Array FunctionSymbol) :
    { t with functions := fs }.Fills { t' with functions := fs' } slots :=
  ⟨h.types, h.symbols, h.vars⟩

theorem fills_addVariable {v : VariableSymbol} {slot : Slot} (hv : slot.varSymbol? t.types = some v)
    (hs : slot.symbol = some (t.addVariable v).1) : t.Fills (t.addVariable v).2 [slot] := by
  refine ⟨rfl, ?_, ?_⟩
  · simpa [addVariable] using hs
  · simp [addVariable, hv]

/-- A filled slot carries the handle of its variable, which has the next number. -/
theorem Fills.getElem? {slot : Slot} {i : Nat} (h : t.Fills t' slots) (hi : slots[i]? = some slot) :
    slot.symbol = some (.ofIndex (t.vars.size + i)) ∧
      ∃ v, t'.vars[t.vars.size + i]? = some v ∧ slot.varSymbol? t.types = some v := by
  obtain ⟨hlt, rfl⟩ := List.getElem?_eq_some_iff.mp hi
  have hsymbol : slots[i].symbol = some (.ofIndex (t.vars.size + i)) := by
    have hget := congrArg (·[i]?) h.symbols
    simpa [hlt] using hget
  have hvar : t'.vars[t.vars.size + i]?.map some = some (slots[i].varSymbol? t.types) := by
    have hget := congrArg (·[t.vars.size + i]?) h.vars
    rw [List.getElem?_append_right (by simp)] at hget
    simpa [hlt] using hget
  obtain ⟨v, hv, hsome⟩ := Option.map_eq_some_iff.mp hvar
  exact ⟨hsymbol, v, hv, hsome.symm⟩

/-- A filled slot carries the handle of some variable, also if this is not its own. -/
theorem Fills.hasVariable {slot : Slot} (h : t.Fills t' slots) (hs : slot ∈ slots) :
    t'.HasVariable slot.symbol := by
  obtain ⟨i, hi⟩ := List.mem_iff_getElem?.mp hs
  obtain ⟨hsymbol, v, hv, -⟩ := h.getElem? hi
  have hlt := Nat.lt_of_le_of_lt (@Handle.index_ofIndex_le .variable (t.vars.size + i))
    (Array.getElem?_eq_some_iff.mp hv).1
  exact ⟨_, _, hsymbol, Array.getElem?_eq_getElem hlt⟩

theorem Fills.exists_variable {slot : Slot} (h : t.Fills t' slots)
    (hfit : t'.vars.size ≤ Handle.capacity) (hs : slot ∈ slots) :
    ∃ id v, slot.symbol = some id ∧ t'.getVariable? id = some v ∧
      slot.varSymbol? t.types = some v := by
  obtain ⟨i, hi⟩ := List.mem_iff_getElem?.mp hs
  obtain ⟨hsymbol, v, hv, hslot⟩ := h.getElem? hi
  have hlt := Nat.lt_of_lt_of_le (Array.getElem?_eq_some_iff.mp hv).1 hfit
  exact ⟨_, v, hsymbol, (getVariable?_ofIndex hlt).trans hv, hslot⟩

theorem Fills.symbol_ne_none (h : t.Fills t' slots) {slot : Slot} (hs : slot ∈ slots) :
    slot.symbol ≠ none := by
  obtain ⟨id, -, hid, -⟩ := h.hasVariable hs
  exact Option.ne_none_iff_exists'.mpr ⟨id, hid⟩

theorem Fills.nodup (h : t.Fills t' slots) (hfit : t'.vars.size ≤ Handle.capacity) :
    (slots.map (·.symbol)).Nodup := by
  rw [h.symbols]
  refine List.pairwise_map.mpr ((List.nodup_range' 1 (by simp)).imp_of_mem ?_)
  intro i j hi hj hij hs
  have hlt : ∀ k ∈ List.range' t.vars.size slots.length, k < Handle.capacity := by
    intro k hk
    rw [List.mem_range'_1, ← h.size_vars] at hk
    exact Nat.lt_of_lt_of_le hk.2 hfit
  exact hij (Handle.ofIndex_inj (hlt i hi) (hlt j hj) (Option.some.inj hs))

end SymbolTable

end MiniC
