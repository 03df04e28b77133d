import MiniC.Proofs.Scope.Table

/-! # First functions

Searches in a table find the first function with some property. A definition belongs to the first
function of its name and, if there is none, behind all functions: what is put there becomes the
first function of its name, and the first functions of other names stay what they were.
-/

namespace MiniC

namespace SymbolTable

variable {t t' : SymbolTable} {id : FuncId} {f g : FunctionSymbol} {name : String}

theorem index_lt_iff : id.index < t.functions.size ↔ ∃ f, t.getFunction? id = some f := by
  constructor
  · intro h
    exact ⟨_, Array.getElem?_eq_getElem h⟩
  · rintro ⟨f, hf⟩
    exact (Array.getElem?_eq_some_iff.mp hf).1

/-- What a search finds is there, though it need not be what was searched for in a table that does
not fit its handles. -/
theorem exists_function_of_findIdx? {p : FunctionSymbol → Bool}
    (h : (t.functions.findIdx? p).map .ofIndex = some id) : ∃ f, t.getFunction? id = some f := by
  obtain ⟨i, hi, rfl⟩ := Option.map_eq_some_iff.mp h
  obtain ⟨hlt, -⟩ := Array.findIdx?_eq_some_iff_getElem.mp hi
  exact index_lt_iff.mp (Nat.lt_of_le_of_lt (Handle.index_ofIndex_le i) hlt)

/-- A search finds a function with the property that comes before all others. -/
theorem findIdx?_eq_some_iff (hfit : t.FunctionsFit) {p : FunctionSymbol → Bool} :
    (t.functions.findIdx? p).map .ofIndex = some id ↔
      (∃ f, t.getFunction? id = some f ∧ p f = true) ∧
        ∀ id' : FuncId, id'.index < id.index → ∀ g, t.getFunction? id' = some g → p g = false := by
  rw [Option.map_eq_some_iff]
  constructor
  · rintro ⟨i, hi, rfl⟩
    obtain ⟨hlt, hp, hbefore⟩ := Array.findIdx?_eq_some_iff_getElem.mp hi
    have hcapacity : i < Handle.capacity := Nat.lt_of_lt_of_le hlt hfit
    rw [getFunction?_ofIndex hcapacity, Handle.index_ofIndex hcapacity]
    refine ⟨⟨_, Array.getElem?_eq_getElem hlt, hp⟩, fun id' hid g hg => ?_⟩
    obtain ⟨_, rfl⟩ := Array.getElem?_eq_some_iff.mp hg
    simpa using hbefore _ hid
  · rintro ⟨⟨f, hf, hp⟩, hbefore⟩
    obtain ⟨hlt, rfl⟩ := Array.getElem?_eq_some_iff.mp hf
    refine ⟨id.index, Array.findIdx?_eq_some_iff_getElem.mpr ⟨hlt, hp, fun j hj => ?_⟩,
      id.ofIndex_index⟩
    have hcapacity : j < Handle.capacity := Nat.lt_trans hj id.index_lt
    have hj' := hbefore (.ofIndex j) (by rwa [Handle.index_ofIndex hcapacity])
    rw [getFunction?_ofIndex hcapacity] at hj'
    simpa using hj' _ (Array.getElem?_eq_getElem (Nat.lt_trans hj hlt))

def Named (t : SymbolTable) (name : String) (id : FuncId) : Prop :=
  ∃ f, t.getFunction? id = some f ∧ f.name = name

theorem findFunction?_eq_some_iff (hfit : t.FunctionsFit) :
    t.findFunction? name = some id ↔
      t.Named name id ∧ ∀ id' : FuncId, id'.index < id.index → ¬ t.Named name id' := by
  rw [findFunction?, findIdx?_eq_some_iff hfit]
  simp [Named]

theorem findFunction?_eq_none_iff (hfit : t.FunctionsFit) :
    t.findFunction? name = none ↔ ∀ id, ¬ t.Named name id := by
  rw [findFunction?, Option.map_eq_none_iff, Array.findIdx?_eq_none_iff]
  constructor
  · rintro h id ⟨f, hf, rfl⟩
    simpa using h f (Array.mem_of_getElem? hf)
  · intro h f hf
    obtain ⟨i, hi⟩ := Array.getElem?_of_mem hf
    have hcapacity : i < Handle.capacity :=
      Nat.lt_of_lt_of_le (Array.getElem?_eq_some_iff.mp hi).1 hfit
    simpa using fun hn => h (.ofIndex i) ⟨f, by rwa [getFunction?_ofIndex hcapacity], hn⟩

theorem findOverload?_eq_some_iff (hfit : t.FunctionsFit) {arity : Nat} :
    t.findOverload? name arity = some id ↔
      (∃ f, t.getFunction? id = some f ∧ f.name = name ∧ f.arity = arity) ∧
        ∀ id' : FuncId, id'.index < id.index → ∀ g, t.getFunction? id' = some g →
          ¬ (g.name = name ∧ g.arity = arity) := by
  rw [findOverload?, findIdx?_eq_some_iff hfit]
  simp

theorem findOverload?_of_findFunction? (hfit : t.FunctionsFit) (h : t.findFunction? name = some id)
    (hf : t.getFunction? id = some f) : t.findOverload? name f.arity = some id := by
  obtain ⟨⟨f', hf', hname⟩, hbefore⟩ := (findFunction?_eq_some_iff hfit).mp h
  obtain rfl := Option.some.inj (hf.symm.trans hf')
  exact (findOverload?_eq_some_iff hfit).mpr
    ⟨⟨f, hf, hname, rfl⟩, fun id' hid g hg hn => hbefore id' hid ⟨g, hg, hn.1⟩⟩

theorem findFunction?_congr (hfit : t.FunctionsFit) (hfit' : t'.FunctionsFit)
    (h : ∀ id, t'.Named name id ↔ t.Named name id) :
    t'.findFunction? name = t.findFunction? name := by
  apply Option.ext
  intro id
  simp only [findFunction?_eq_some_iff hfit, findFunction?_eq_some_iff hfit', h]

/-- The function that a definition of a name belongs to. -/
def place (t : SymbolTable) (name : String) : FuncId :=
  (t.findFunction? name).getD (.ofIndex t.functions.size)

theorem place_of_some (h : t.findFunction? name = some id) : t.place name = id := by
  rw [place, h, Option.getD_some]

theorem place_of_none (h : t.findFunction? name = none) :
    t.place name = .ofIndex t.functions.size := by
  rw [place, h, Option.getD_none]

/-- A definition of the name can be entered, and the table still fits its handles. -/
structure HasRoom (t : SymbolTable) (name : String) : Prop where
  fits : t.FunctionsFit
  lt_of_none : t.findFunction? name = none → t.functions.size < Handle.capacity

theorem HasRoom.of_lt (h : t.functions.size < Handle.capacity) (name : String) : t.HasRoom name :=
  ⟨Nat.le_of_lt h, fun _ => h⟩

theorem HasRoom.of_some (hfit : t.FunctionsFit) (h : t.findFunction? name = some id) :
    t.HasRoom name :=
  ⟨hfit, fun hnone => absurd (h.symm.trans hnone) nofun⟩

theorem HasRoom.name_of_place (hroom : t.HasRoom name)
    (hg : t.getFunction? (t.place name) = some g) : g.name = name := by
  cases h : t.findFunction? name with
  | none =>
    rw [place_of_none h, getFunction?_ofIndex (hroom.lt_of_none h)] at hg
    exact absurd (Array.getElem?_eq_some_iff.mp hg).1 (Nat.lt_irrefl _)
  | some id =>
    obtain ⟨⟨f, hf, hname⟩, -⟩ := (findFunction?_eq_some_iff hroom.fits).mp h
    rw [place_of_some h] at hg
    obtain rfl := Option.some.inj (hg.symm.trans hf)
    exact hname

theorem Sets.lt_size_iff (h : t.Sets t' id f) {i : Nat} (hi : i < Handle.capacity) :
    i < t'.functions.size ↔ i < t.functions.size ∨ i = id.index := by
  have hindex : (Handle.ofIndex i : FuncId).index = i := Handle.index_ofIndex hi
  by_cases hid : Handle.ofIndex i = id
  · subst hid
    rw [hindex]
    exact iff_of_true (hindex ▸ index_lt_iff.mpr ⟨f, h.1⟩) (Or.inr rfl)
  · have hne : i ≠ id.index := by
      rintro rfl
      exact hid id.ofIndex_index
    rw [or_iff_left hne, ← hindex, index_lt_iff, index_lt_iff, h.2 _ hid]

theorem Sets.size_functions (h : t.Sets t' id f) (hfit : t.FunctionsFit) (hfit' : t'.FunctionsFit)
    (hg : t.getFunction? id = some g) : t'.functions.size = t.functions.size := by
  have hid : id.index < t.functions.size := index_lt_iff.mpr ⟨g, hg⟩
  have h₁ := h.lt_size_iff (i := t.functions.size)
  have h₂ := h.lt_size_iff (i := t'.functions.size)
  unfold FunctionsFit at hfit hfit'
  omega

theorem Sets.size_functions_succ (h : t.Sets t' (.ofIndex t.functions.size) f)
    (hlt : t.functions.size < Handle.capacity) (hfit' : t'.FunctionsFit) :
    t'.functions.size = t.functions.size + 1 := by
  have h₁ := h.lt_size_iff hlt
  have h₂ := h.lt_size_iff (i := t.functions.size + 1)
  rw [Handle.index_ofIndex hlt] at h₁ h₂
  unfold FunctionsFit at hfit'
  omega

theorem Sets.named_iff (h : t.Sets t' id f) {id' : FuncId} (hid : id' ≠ id) :
    t'.Named name id' ↔ t.Named name id' := by
  simp only [Named, h.2 id' hid]

theorem Sets.findFunction?_place (h : t.Sets t' (t.place f.name) f) (hroom : t.HasRoom f.name)
    (hfit' : t'.FunctionsFit) : t'.findFunction? f.name = some (t.place f.name) := by
  refine (findFunction?_eq_some_iff hfit').mpr ⟨⟨f, h.1, rfl⟩, fun id' hid => ?_⟩
  have hne : id' ≠ t.place f.name := by
    rintro rfl
    exact Nat.lt_irrefl _ hid
  rw [h.named_iff hne]
  cases hfind : t.findFunction? f.name with
  | none => exact (findFunction?_eq_none_iff hroom.fits).mp hfind id'
  | some id =>
    rw [place_of_some hfind] at hid
    exact ((findFunction?_eq_some_iff hroom.fits).mp hfind).2 id' hid

theorem Sets.findFunction?_of_ne (h : t.Sets t' (t.place f.name) f) (hroom : t.HasRoom f.name)
    (hfit' : t'.FunctionsFit) (hne : name ≠ f.name) :
    t'.findFunction? name = t.findFunction? name := by
  apply findFunction?_congr hroom.fits hfit'
  intro id
  by_cases hid : id = t.place f.name
  · subst hid
    constructor
    · rintro ⟨g, hg, rfl⟩
      exact absurd (congrArg (·.name) (Option.some.inj (hg.symm.trans h.1))) hne
    · rintro ⟨g, hg, rfl⟩
      exact absurd (hroom.name_of_place hg) hne
  · exact h.named_iff hid

end SymbolTable

end MiniC
