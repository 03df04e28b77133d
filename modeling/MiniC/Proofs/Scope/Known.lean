import MiniC.Proofs.Scope.Faults
import MiniC.Proofs.Scope.Lookup

/-! # Known definitions

A table knows a definition if the first function of its name is defined. Locals do not matter to
this. What is put at the place of its name becomes known, and other names stay as they were.
-/

namespace MiniC

namespace SymbolTable

variable {t t' t'' : SymbolTable}

/-- The functions of two tables are the same but for their locals. -/
def SameButLocals (t t' : SymbolTable) : Prop :=
  t'.functions.map ({ · with locals := .empty }) = t.functions.map ({ · with locals := .empty })

theorem SameButLocals.trans (h : t.SameButLocals t') (h' : t'.SameButLocals t'') :
    t.SameButLocals t'' :=
  Eq.trans h' h

theorem SameButLocals.symm (h : t.SameButLocals t') : t'.SameButLocals t := Eq.symm h

theorem SameButLocals.size_eq (h : t.SameButLocals t') :
    t'.functions.size = t.functions.size := by
  simpa using congrArg Array.size h

theorem sameButLocals_of_functions_modify {id : FuncId} {g : FunctionSymbol → FunctionSymbol}
    (h : t'.functions = t.functions.modify id.index g)
    (hg : ∀ f, { g f with locals := .empty } = { f with locals := .empty }) :
    t.SameButLocals t' := by
  rw [SameButLocals, h]
  apply Array.ext_getElem?
  intro i
  rw [Array.getElem?_map, Array.getElem?_map, Array.getElem?_modify]
  split
  · rw [Option.map_map]
    exact congrFun (congrArg _ (funext hg)) _
  · rfl

theorem SameButLocals.exists_function (h : t.SameButLocals t') {id : FuncId} {f : FunctionSymbol}
    (hf : t.getFunction? id = some f) :
    ∃ locals, t'.getFunction? id = some { f with locals } := by
  have hid := congrArg (·[id.index]?) h
  simp only [Array.getElem?_map] at hid
  rw [getFunction?] at hf
  rw [hf, Option.map_some, Option.map_eq_some_iff] at hid
  obtain ⟨f', hf', heq⟩ := hid
  refine ⟨f'.locals, hf'.trans (congrArg some ?_)⟩
  calc f' = { { f' with locals := .empty } with locals := f'.locals } := rfl
    _ = _ := by rw [heq]

theorem SameButLocals.findFunction?_eq (h : t.SameButLocals t') (name : String) :
    t'.findFunction? name = t.findFunction? name := by
  have hfind := congrArg (Array.findIdx? fun f => f.name = name) h
  simp only [Array.findIdx?_map, Function.comp_def] at hfind
  rw [findFunction?, hfind, findFunction?]

/-- The first function of a name, if it has a definition. -/
def defined? (t : SymbolTable) (name : String) : Option FunctionSymbol :=
  ((t.findFunction? name).bind t.getFunction?).filter (!·.isDeclaration)

variable {id : FuncId} {f : FunctionSymbol} {name : String}

theorem defined?_of_some (hfind : t.findFunction? name = some id)
    (hf : t.getFunction? id = some f) :
    t.defined? name = if f.isDeclaration then none else some f := by
  cases hd : f.isDeclaration <;> simp [defined?, hfind, hf, hd]

theorem defined?_of_none (hfind : t.findFunction? name = none) : t.defined? name = none := by
  rw [defined?, hfind]
  rfl

theorem defined?_eq_none (h : ∀ id f, t.getFunction? id = some f → f.isDeclaration = true)
    (name : String) : t.defined? name = none := by
  cases hfind : t.findFunction? name with
  | none => exact defined?_of_none hfind
  | some id =>
    obtain ⟨f, hf⟩ := exists_function_of_findIdx? hfind
    rw [defined?_of_some hfind hf, if_pos (h id f hf)]

theorem Sets.defined?_place (h : t.Sets t' (t.place f.name) f) (hroom : t.HasRoom f.name)
    (hfit : t'.FunctionsFit) (hf : f.isDeclaration = false) : t'.defined? f.name = some f := by
  rw [defined?_of_some (h.findFunction?_place hroom hfit) h.1, hf]
  rfl

theorem Sets.defined?_of_ne (h : t.Sets t' (t.place f.name) f) (hroom : t.HasRoom f.name)
    (hfit : t'.FunctionsFit) (hne : name ≠ f.name) : t'.defined? name = t.defined? name := by
  have hfind := h.findFunction?_of_ne hroom hfit hne
  cases hid : t.findFunction? name with
  | none =>
    rw [hid] at hfind
    rw [defined?_of_none hid, defined?_of_none hfind]
  | some id =>
    rw [hid] at hfind
    obtain ⟨⟨g, hg, hname⟩, -⟩ := (findFunction?_eq_some_iff hroom.fits).mp hid
    have hne' : id ≠ t.place f.name := by
      rintro rfl
      exact hne (hname.symm.trans (hroom.name_of_place hg))
    rw [defined?_of_some hid hg, defined?_of_some hfind ((h.2 id hne').trans hg)]

/-- The place of the name of a known definition and its signature. -/
def previous? (t : SymbolTable) (name : String) : Option (Span × String) :=
  (t.defined? name).map fun f => (f.span, f.signature)

theorem SameButLocals.previous?_eq (h : t.SameButLocals t') (name : String) :
    t'.previous? name = t.previous? name := by
  have hfind := h.findFunction?_eq name
  rw [previous?, previous?]
  cases hid : t.findFunction? name with
  | none =>
    rw [hid] at hfind
    rw [defined?_of_none hid, defined?_of_none hfind]
  | some id =>
    rw [hid] at hfind
    obtain ⟨f, hf⟩ := exists_function_of_findIdx? hid
    obtain ⟨locals, hf'⟩ := h.exists_function hf
    rw [defined?_of_some hid hf, defined?_of_some hfind hf']
    cases f.isDeclaration <;> rfl

/-- The table knows just the definitions among those that were met whose return type is known. -/
def Records (types : TypeRegistry) (done : List FunctionDefinition) (t : SymbolTable) : Prop :=
  ∀ name, t.previous? name = ((done.filter (·.returns types)).find? (·.name = name)).map
    fun e => (e.prototype.nameSpan, e.prototype.signature)

variable {types : TypeRegistry} {done : List FunctionDefinition} {d : FunctionDefinition}

theorem Records.sameButLocals (h : t.Records types done) (ht : t.SameButLocals t') :
    t'.Records types done :=
  fun name => (ht.previous?_eq name).trans (h name)

theorem Records.refused (h : t.Records types done)
    (hd : d.returns types = false ∨ t.previous? d.name ≠ none) :
    t.Records types (done ++ [d]) := by
  intro name
  rw [h name]
  rcases hd with hd | hd
  · simp [List.filter_append, hd]
  · by_cases hname : d.name = name
    · subst hname
      rw [h d.name] at hd
      obtain ⟨e, he⟩ : ∃ e, (done.filter (·.returns types)).find? (·.name = d.name) = some e := by
        rw [ne_eq, Option.map_eq_none_iff] at hd
        exact Option.ne_none_iff_exists'.mp hd
      rw [List.filter_append, List.find?_append, he]
      rfl
    · cases hr : d.returns types <;> simp [List.filter_append, hr, hname]

/-- A definition at the place of its name becomes known. -/
theorem Records.entered (h : t.Records types done) (hsets : t.Sets t' (t.place d.name) f)
    (hroom : t.HasRoom d.name) (hfit : t'.FunctionsFit) (hname : f.name = d.name)
    (hf : f.isDeclaration = false) (hspan : f.span = d.prototype.nameSpan)
    (hsignature : f.signature = d.prototype.signature) (hd : d.returns types = true)
    (hprevious : t.previous? d.name = none) : t'.Records types (done ++ [d]) := by
  intro name
  rw [← hname] at hsets hroom
  by_cases hn : name = d.name
  · subst hn
    have hnone := (h d.name).symm.trans hprevious
    rw [Option.map_eq_none_iff] at hnone
    have hdefined := hsets.defined?_place hroom hfit hf
    rw [hname] at hdefined
    rw [previous?, hdefined, List.filter_append, List.find?_append, hnone]
    simp [hd, hspan, hsignature]
  · have hne : name ≠ f.name := fun he => hn (he.trans hname)
    rw [previous?, hsets.defined?_of_ne hroom hfit hne, ← previous?, h name, List.filter_append,
      List.find?_append]
    simp [hd, Ne.symm hn]

theorem Records.redefinition?_eq (h : t.Records types done) (d : FunctionDefinition) :
    d.redefinition? (done.filter (·.returns types)) = (t.previous? d.name).map fun previous =>
      ⟨.duplicateDefinition previous.1 previous.2, d.name, d.prototype.nameSpan⟩ := by
  rw [h, FunctionDefinition.redefinition?, Option.map_map]
  rfl

end SymbolTable

end MiniC
