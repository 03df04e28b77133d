import MiniC.Scope.Table

/-! # How symbol tables grow

A table fits its handles if no two of its symbols share one. As long as it does, each step of the
declaring walk sets at most one function: it adds the function or changes the one it finds, and
leaves all others alone. A function that has a definition is never set again, so what is known of it
stays known.
-/

namespace MiniC

theorem modify_push_size {α : Type} (a : Array α) (x : α) (f : α → α) :
    (a.push x).modify a.size f = a.push (f x) := by
  apply Array.ext_getElem?
  intro i
  rw [Array.getElem?_modify, Array.getElem?_push, Array.getElem?_push]
  by_cases h : a.size = i
  · simp [h]
  · simp [h, Ne.symm h]

namespace SymbolTable

variable {t t' t'' : SymbolTable} {id : FuncId} {f f' : FunctionSymbol}

def FunctionsFit (t : SymbolTable) : Prop := t.functions.size ≤ Handle.capacity

instance (t : SymbolTable) : Decidable t.FunctionsFit :=
  inferInstanceAs (Decidable (t.functions.size ≤ Handle.capacity))

/-- Every symbol of the table has a handle of its own. -/
structure Fits (t : SymbolTable) : Prop where
  functions : t.functions.size ≤ Handle.capacity
  vars : t.vars.size ≤ Handle.capacity

theorem getFunction?_ofIndex {i : Nat} (h : i < Handle.capacity) :
    t.getFunction? (.ofIndex i) = t.functions[i]? := by
  rw [getFunction?, Handle.index_ofIndex h]

theorem getVariable?_ofIndex {i : Nat} (h : i < Handle.capacity) :
    t.getVariable? (.ofIndex i) = t.vars[i]? := by
  rw [getVariable?, Handle.index_ofIndex h]

/-- From one table to the other, just the function `id` became `f`. -/
def Sets (t t' : SymbolTable) (id : FuncId) (f : FunctionSymbol) : Prop :=
  t'.getFunction? id = some f ∧ ∀ id', id' ≠ id → t'.getFunction? id' = t.getFunction? id'

theorem Sets.trans (h : t.Sets t' id f) (h' : t'.Sets t'' id f') : t.Sets t'' id f' :=
  ⟨h'.1, fun id' hid => (h'.2 id' hid).trans (h.2 id' hid)⟩

theorem sets_of_functions_push (h : t'.functions = t.functions.push f) (hfit : t'.FunctionsFit) :
    t.Sets t' (.ofIndex t.functions.size) f := by
  have hsize : t.functions.size < Handle.capacity := by
    rwa [FunctionsFit, h, Array.size_push] at hfit
  refine ⟨by rw [getFunction?_ofIndex hsize, h, Array.getElem?_push_size], fun id' hid => ?_⟩
  have hne : id'.index ≠ t.functions.size := by
    rintro hi
    exact hid (by rw [← hi, Handle.ofIndex_index])
  rw [getFunction?, h, Array.getElem?_push, if_neg hne, getFunction?]

/-- There is one function more. It is `f` in a table that fits its handles; in a larger one, what is
written through its handle changes another function. -/
structure Appends (t t' : SymbolTable) (f : FunctionSymbol) : Prop where
  size : t'.functions.size = t.functions.size + 1
  functions : t'.FunctionsFit → t'.functions = t.functions.push f

theorem Appends.lt_capacity (h : t.Appends t' f) (hfit : t'.FunctionsFit) :
    t.functions.size < Handle.capacity := by
  rwa [FunctionsFit, h.size] at hfit

theorem Appends.fits (h : t.Appends t' f) (hlt : t.functions.size < Handle.capacity) :
    t'.FunctionsFit := by
  rwa [FunctionsFit, h.size]

theorem Appends.sets (h : t.Appends t' f) (hfit : t'.FunctionsFit) :
    t.Sets t' (.ofIndex t.functions.size) f :=
  sets_of_functions_push (h.functions hfit) hfit

theorem Appends.exists_function (h : t.Appends t' f) :
    ∃ g, t'.getFunction? (.ofIndex t.functions.size) = some g := by
  have hlt : (Handle.ofIndex t.functions.size : FuncId).index < t'.functions.size :=
    h.size ▸ Nat.lt_succ_of_le (Handle.index_ofIndex_le _)
  exact ⟨_, Array.getElem?_eq_getElem hlt⟩

theorem appends_of_modify {g : FunctionSymbol → FunctionSymbol}
    (h : t'.functions = (t.functions.push f).modify
      (Handle.ofIndex t.functions.size : FuncId).index g) : t.Appends t' (g f) := by
  have hsize : t'.functions.size = t.functions.size + 1 := by
    rw [h, Array.size_modify, Array.size_push]
  refine ⟨hsize, fun hfit => ?_⟩
  rw [FunctionsFit, hsize] at hfit
  rw [h, Handle.index_ofIndex hfit, modify_push_size]

theorem sets_of_functions_modify {g : FunctionSymbol → FunctionSymbol}
    (h : t'.functions = t.functions.modify id.index g) (hf : t.getFunction? id = some f) :
    t.Sets t' id (g f) := by
  refine ⟨?_, fun id' hid => ?_⟩
  · rw [getFunction?] at hf
    simp [getFunction?, h, Array.getElem?_modify, hf]
  · have hne : id.index ≠ id'.index := fun hi => hid (Handle.eq_of_index_eq hi.symm)
    rw [getFunction?, h, Array.getElem?_modify, if_neg hne, getFunction?]

/-- The functions of one table are there in the other, unchanged if they have a definition. -/
structure Keeps (t t' : SymbolTable) : Prop where
  function : ∀ id f, t.getFunction? id = some f → ∃ f', t'.getFunction? id = some f'
  defined : ∀ id f, t.getFunction? id = some f → f.isDeclaration = false →
    t'.getFunction? id = some f

def HasVariable (t : SymbolTable) (symbol : Option VarId) : Prop :=
  ∃ id v, symbol = some id ∧ t.getVariable? id = some v

def HasFunction (t : SymbolTable) (symbol : Option FuncId) : Prop :=
  ∃ id f, symbol = some id ∧ t.getFunction? id = some f

theorem Keeps.refl (t : SymbolTable) : t.Keeps t := ⟨fun _ f h => ⟨f, h⟩, fun _ _ h _ => h⟩

theorem Keeps.trans (h : t.Keeps t') (h' : t'.Keeps t'') : t.Keeps t'' := by
  refine ⟨fun id f hf => ?_, fun id f hf hd => h'.defined id f (h.defined id f hf hd) hd⟩
  obtain ⟨f', hf'⟩ := h.function id f hf
  exact h'.function id f' hf'

/-- Setting a function that has no definition yet keeps all functions. -/
theorem Sets.keeps (h : t.Sets t' id f)
    (hid : ∀ g, t.getFunction? id = some g → g.isDeclaration = true) : t.Keeps t' := by
  refine ⟨fun id' g hg => ?_, fun id' g hg hd => ?_⟩
  · by_cases hne : id' = id
    · exact ⟨f, hne ▸ h.1⟩
    · exact ⟨g, (h.2 id' hne).trans hg⟩
  · by_cases hne : id' = id
    · subst hne
      rw [hid g hg] at hd
      cases hd
    · exact (h.2 id' hne).trans hg

/-- All functions are enclosed by the global scope, and one without a definition has no locals. -/
def Flat (t : SymbolTable) : Prop :=
  ∀ id f, t.getFunction? id = some f →
    f.enclosing = .global ∧ (f.isDeclaration = true → f.locals = .empty)

theorem Sets.flat (h : t.Sets t' id f) (ht : t.Flat) (he : f.enclosing = .global)
    (hl : f.isDeclaration = true → f.locals = .empty) : t'.Flat := by
  intro id' g hg
  by_cases hne : id' = id
  · subst hne
    obtain rfl := Option.some.inj (h.1.symm.trans hg)
    exact ⟨he, hl⟩
  · exact ht id' g ((h.2 id' hne).symm.trans hg)

/-- What the table of a walk without errors says of a later one. -/
structure Follows (t t' : SymbolTable) : Prop where
  le : t.functions.size ≤ t'.functions.size
  keeps : t'.FunctionsFit → t.Keeps t'
  flat : t'.FunctionsFit → t.Flat → t'.Flat

theorem Follows.refl (t : SymbolTable) : t.Follows t :=
  ⟨Nat.le_refl _, fun _ => .refl t, fun _ => id⟩

theorem Follows.fits (h : t.Follows t') (hfit : t'.FunctionsFit) : t.FunctionsFit :=
  Nat.le_trans h.le hfit

theorem Follows.trans (h : t.Follows t') (h' : t'.Follows t'') : t.Follows t'' :=
  ⟨Nat.le_trans h.le h'.le, fun hfit => (h.keeps (h'.fits hfit)).trans (h'.keeps hfit),
    fun hfit ht => h'.flat hfit (h.flat (h'.fits hfit) ht)⟩

theorem Follows.hasFunction (h : t.Follows t') {symbol : Option FuncId}
    (hs : t.HasFunction symbol) : t'.HasFunction symbol := by
  obtain ⟨id, f, hid, hf⟩ := hs
  have hlt := Nat.lt_of_lt_of_le (Array.getElem?_eq_some_iff.mp hf).1 h.le
  exact ⟨id, _, hid, Array.getElem?_eq_getElem hlt⟩

end SymbolTable

end MiniC
