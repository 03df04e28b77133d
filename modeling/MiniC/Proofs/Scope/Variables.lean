import MiniC.Proofs.Scope.Binding
import MiniC.Proofs.Scope.Checked
import MiniC.Proofs.Scope.Functions

/-! # The variables of a table

Without errors, the table has one variable for each slot of a unit, in the order of the walk. If it
has no more symbols than handles, each slot carries the number of its own variable, and the table is
closed. Neither the analysis nor a lookup nor a listing ever goes through a dangling handle.
-/

namespace MiniC

namespace SymbolTable

variable {t₀ t : SymbolTable} {types : TypeRegistry} {u : SourceUnit} {slots : List Slot}
  {id : FuncId} {f : FunctionSymbol}

/-- The variables of a table are those of the slots of a unit. -/
structure VariablesOf (t : SymbolTable) (types : TypeRegistry) (u : SourceUnit) : Prop where
  size : t.vars.size = u.slots.length
  slot : ∀ (i : Nat) (slot : Slot), u.slots[i]? = some slot → ∃ id x,
    slot.symbol = some id ∧ id.index = i ∧ t.getVariable? id = some x ∧ x.name = slot.name ∧
      x.span = slot.nameSpan ∧ types.get? slot.type.name = some x.type ∧ slot.owner = some x.owner
  distinct : (u.slots.map (·.symbol)).Nodup

/-- No handle dangles: a function holds its own variables, the locals under their names, and every
variable belongs to a function. -/
structure Closed (t : SymbolTable) : Prop where
  params : ∀ id f, t.getFunction? id = some f → ∀ v ∈ f.params,
    ∃ x, t.getVariable? v = some x ∧ x.owner = id
  locals : ∀ id f, t.getFunction? id = some f → ∀ name v, f.locals.get? name = some v →
    ∃ x, t.getVariable? v = some x ∧ x.owner = id ∧ x.name = name
  owner : ∀ v x, t.getVariable? v = some x → ∃ g, t.getFunction? x.owner = some g

theorem Fills.variablesOf (h : ({ types } : SymbolTable).Fills t u.slots)
    (hfit : t.vars.size ≤ Handle.capacity) : t.VariablesOf types u := by
  have hsize : t.vars.size = u.slots.length := by simpa using h.size_vars
  refine ⟨hsize, fun i slot hi => ?_, h.nodup hfit⟩
  obtain ⟨hsymbol, x, hx, hslot⟩ := h.getElem? hi
  obtain ⟨howner, htype, hname, hspan⟩ := Slot.varSymbol?_eq_some_iff.mp hslot
  have hnumber : (#[] : Array VariableSymbol).size + i = i := Nat.zero_add i
  rw [hnumber] at hsymbol hx
  have hlt := Nat.lt_of_lt_of_le (Array.getElem?_eq_some_iff.mp hx).1 hfit
  exact ⟨_, x, hsymbol, Handle.index_ofIndex hlt, (getVariable?_ofIndex hlt).trans hx, hname, hspan,
    htype, howner⟩

theorem Fills.exists_owned (h : t₀.Fills t slots) (hfit : t.vars.size ≤ Handle.capacity)
    {slot : Slot} (hs : slot ∈ slots) {v : VarId} (hsymbol : slot.symbol = some v)
    (howner : slot.owner = some id) :
    ∃ x, t.getVariable? v = some x ∧ x.owner = id ∧ x.name = slot.name := by
  obtain ⟨v', x, hv, hx, hname, hx'⟩ := h.variable_of_mem hfit hs
  obtain rfl := Option.some.inj (hsymbol.symm.trans hv)
  exact ⟨x, hx, Option.some.inj (hx'.symm.trans howner), hname⟩

theorem Fills.exists_slot (h : ({ types } : SymbolTable).Fills t slots) {v : VarId}
    {x : VariableSymbol} (hx : t.getVariable? v = some x) :
    ∃ slot ∈ slots, slot.owner = some x.owner := by
  have hlt : v.index < slots.length := by
    simpa [h.size_vars] using (Array.getElem?_eq_some_iff.mp hx).1
  obtain ⟨-, y, hy, hslot⟩ := h.getElem? (List.getElem?_eq_getElem hlt)
  have hnumber : (#[] : Array VariableSymbol).size + v.index = v.index := Nat.zero_add _
  rw [hnumber] at hy
  obtain rfl := Option.some.inj (hx.symm.trans hy)
  exact ⟨_, List.getElem_mem hlt, (Slot.varSymbol?_eq_some_iff.mp hslot).1⟩

/-- The parameters that a function was given by a prototype are variables of this function. -/
theorem Fills.exists_param (hfills : t₀.Fills t slots) (hfit : t.vars.size ≤ Handle.capacity)
    {p : Prototype} {item : ItemRef} {isDeclaration : Bool}
    (h : f.Represents types p item isDeclaration)
    (hslots : ∀ x ∈ p.params, x.slot (some id) ∈ slots) {v : VarId} (hv : v ∈ f.params) :
    ∃ x, t.getVariable? v = some x ∧ x.owner = id := by
  have hmem : some v ∈ p.params.map (·.symbol) := h.params ▸ List.mem_map_of_mem hv
  obtain ⟨x, hx, hsymbol⟩ := List.mem_map.mp hmem
  obtain ⟨y, hy, howner, -⟩ := hfills.exists_owned hfit (hslots x hx) hsymbol rfl
  exact ⟨y, hy, howner⟩

theorem Knows.exists_local {d : FunctionDefinition} (h : t.Knows d id f)
    (hfills : t₀.Fills t slots) (hfit : t.vars.size ≤ Handle.capacity)
    (hslots : ∀ slot ∈ d.slots, slot ∈ slots) {name : String} {v : VarId}
    (hv : f.locals.get? name = some v) :
    ∃ x, t.getVariable? v = some x ∧ x.owner = id ∧ x.name = name := by
  have hvars : ∀ x ∈ d.body.variables, x.symbol ≠ none := fun x hx =>
    hfills.symbol_ne_none (hslots _ (d.slot_mem_of_variable hx))
  rw [h.locals, Declaring.get?_foldl_declareLocal name _ hvars] at hv
  split at hv
  next x hfind =>
    have hx : x ∈ d.body.variables := by simpa using List.mem_of_find?_eq_some hfind
    obtain rfl : x.name = name := by simpa using List.find?_some hfind
    exact hfills.exists_owned hfit (hslots _ (d.slot_mem_of_variable hx)) hv h.symbol
  · cases hv

end SymbolTable

theorem SourceUnit.owner_of_mem_slots {u : SourceUnit} {slot : Slot} (h : slot ∈ u.slots) :
    (∃ d ∈ u.declarations, slot.owner = d.symbol) ∨ ∃ d ∈ u.definitions, slot.owner = d.symbol := by
  rcases List.mem_append.mp h with h | h
  · obtain ⟨d, hd, hslot⟩ := List.mem_flatMap.mp h
    obtain ⟨x, -, rfl⟩ := List.mem_map.mp hslot
    exact Or.inl ⟨d, hd, rfl⟩
  · obtain ⟨d, hd, hslot⟩ := List.mem_flatMap.mp h
    refine Or.inr ⟨d, hd, ?_⟩
    rcases List.mem_append.mp hslot with hslot | hslot
    · obtain ⟨x, -, rfl⟩ := List.mem_map.mp hslot
      rfl
    · obtain ⟨x, -, rfl⟩ := List.mem_map.mp hslot
      rfl

namespace Program

variable {p q : Program} {types : TypeRegistry} {t : SymbolTable}

theorem closed_of_declare (h : p.declare types = (q, .ok t)) (hfit : t.Fits) : t.Closed := by
  obtain ⟨hfills, hdeclarations, hdefinitions⟩ := declare_ok h
  obtain ⟨-, hlists⟩ := declare_lists h hfit.functions
  constructor
  · intro id f hf v hv
    cases hlists.entry id f hf with
    | @declared d item represents =>
      have hsymbol : d.symbol = some id := by
        rw [(hlists.declared id.index d item).1, Handle.ofIndex_index]
      refine hfills.exists_param hfit.vars represents (fun x hx => ?_) hv
      rw [← hsymbol]
      exact List.mem_append_left _
        (List.mem_flatMap.mpr ⟨d, List.mem_of_getElem? item, List.mem_map_of_mem hx⟩)
    | @defined j d item symbol represents =>
      refine hfills.exists_param hfit.vars represents (fun x hx => ?_) hv
      rw [← symbol]
      exact SourceUnit.slot_mem_of_definition item (d.slot_mem_of_param hx)
  · intro id f hf name v hv
    cases hlists.entry id f hf with
    | declared item represents =>
      rw [(hlists.flat id f hf).2 represents.isDeclaration] at hv
      cases hv
    | @defined j d item symbol represents =>
      obtain ⟨id', f', hk⟩ :=
        (hdefinitions d (List.mem_of_getElem? item)).defined hfit.functions
      obtain rfl := Option.some.inj (symbol.symm.trans hk.symbol)
      obtain rfl := Option.some.inj (hf.symm.trans hk.function)
      exact hk.exists_local hfills hfit.vars
        (fun _ => SourceUnit.slot_mem_of_definition item) hv
  · intro v x hx
    obtain ⟨slot, hslot, howner⟩ := hfills.exists_slot hx
    have hfunction : t.HasFunction slot.owner := by
      rcases SourceUnit.owner_of_mem_slots hslot with ⟨d, hd, hd'⟩ | ⟨d, hd, hd'⟩
      · exact hd' ▸ hdeclarations d hd
      · exact hd' ▸ (hdefinitions d hd).function
    obtain ⟨id, g, hid, hg⟩ := hfunction
    obtain rfl := Option.some.inj (howner.symm.trans hid)
    exact ⟨g, hg⟩

/-- After a walk without errors, what is looked up or listed checks out, and so does all that the
analysis does. If the table has no more symbols than handles, its variables are those of the unit
and no handle dangles. -/
theorem variables_of_declare (h : p.declare types = (q, .ok t)) :
    (t.vars.size ≤ Handle.capacity → t.VariablesOf types q.unit) ∧ (t.Fits → t.Closed) ∧
      (∀ scope name, t.lookUpVariable scope name = .ok (t.resolveVariable? scope name)) ∧
      (∃ text, t.listing = .ok text) ∧ p.analyzeChecked types = .ok (p.analyzeWith types) := by
  obtain ⟨hfills, -, -⟩ := declare_ok h
  have hinRange := inRange_of_declare h
  exact ⟨hfills.variablesOf, closed_of_declare h, hinRange.lookUpVariable_eq,
    hinRange.exists_listing, analyzeChecked_eq p types⟩

theorem variables_of_declare_merging :
    ∃ p q : Program, p.declare .builtin = (q, .ok .merging) ∧
      SymbolTable.merging.VariablesOf .builtin q.unit ∧ SymbolTable.merging.Closed ∧
      (∀ scope name, SymbolTable.merging.lookUpVariable scope name
        = .ok (SymbolTable.merging.resolveVariable? scope name)) ∧
      (∃ text, SymbolTable.merging.listing = .ok text) ∧
      p.analyzeChecked .builtin = .ok (p.analyzeWith .builtin) := by
  obtain ⟨hvariables, hclosed, hrest⟩ := variables_of_declare declare_merging
  exact ⟨_, _, declare_merging, hvariables (by decide), hclosed ⟨by decide, by decide⟩, hrest⟩

end Program

end MiniC
