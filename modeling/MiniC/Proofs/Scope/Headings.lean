import MiniC.Proofs.Scope.Meaning

/-! # Units with the same headings

Two units have the same headings if their items have the same prototypes, one by one; their bodies
can be any. Both tables then give the same functions to the same items, so that the same functions
are found by the same names and numbers of arguments. A definition that the two units share with
its body declares the same variables in both, and its names mean the same there.
-/

namespace MiniC

open Relabelling (unbound)

/-- The items of both units have the same prototypes, apart from handles. -/
structure SourceUnit.SameHeadings (u u' : SourceUnit) : Prop where
  declarations : u.declarations.map (·.prototype.relabel unbound)
    = u'.declarations.map (·.prototype.relabel unbound)
  definitions : u.definitions.map (·.prototype.relabel unbound)
    = u'.definitions.map (·.prototype.relabel unbound)

def SourceUnit.functionNames (u : SourceUnit) : List String :=
  u.declarations.map (·.name) ++ (undeclared u.declarations u.definitions).map (·.name)

theorem map_undeclared (ds : List FunctionDeclaration) (fs : List FunctionDefinition) :
    (undeclared ds fs).map (·.name)
      = (fs.map (·.name)).filter fun name => !(ds.map (·.name)).contains name := by
  rw [undeclared, List.filter_map]
  congr 1
  apply List.filter_congr
  intro d _
  simp [List.any_eq, eq_comm]

theorem Prototype.arity_relabel (p : Prototype) : (p.relabel unbound).arity = p.arity := by
  simp [arity, relabel]

namespace SourceUnit.SameHeadings

variable {u u' : SourceUnit}

theorem symm (h : u.SameHeadings u') : u'.SameHeadings u :=
  ⟨h.declarations.symm, h.definitions.symm⟩

theorem trans {u'' : SourceUnit} (h : u.SameHeadings u') (h' : u'.SameHeadings u'') :
    u.SameHeadings u'' :=
  ⟨h.declarations.trans h'.declarations, h.definitions.trans h'.definitions⟩

theorem of_emptied {p q : Program} (h : q.emptied = p.emptied) :
    q.unit.SameHeadings p.unit := by
  constructor
  · have hget := congrArg (·.unit.declarations.map (·.prototype)) h
    simp only [Program.emptied, List.map_map] at hget
    exact hget
  · have hget := congrArg (·.unit.definitions.map (·.prototype)) h
    simp only [Program.emptied, List.map_map] at hget
    exact hget

theorem names_eq (h : u.SameHeadings u') :
    u.definitions.map (·.name) = u'.definitions.map (·.name) := by
  have hnames := congrArg (List.map (·.name)) h.definitions
  rw [List.map_map, List.map_map] at hnames
  exact hnames

theorem functionNames_eq (h : u.SameHeadings u') : u.functionNames = u'.functionNames := by
  have hdeclarations : u.declarations.map (·.name) = u'.declarations.map (·.name) := by
    have hnames := congrArg (List.map (·.name)) h.declarations
    rw [List.map_map, List.map_map] at hnames
    exact hnames
  rw [functionNames, functionNames, map_undeclared, map_undeclared, hdeclarations, h.names_eq]

theorem exists_declaration (h : u.SameHeadings u') {i : Nat} {d : FunctionDeclaration}
    (hd : u.declarations[i]? = some d) : ∃ d', u'.declarations[i]? = some d' ∧
      d'.prototype.relabel unbound = d.prototype.relabel unbound := by
  have hget := congrArg (·[i]?) h.declarations
  simpa [hd] using hget.symm

theorem exists_definition (h : u.SameHeadings u') {j : Nat} {d : FunctionDefinition}
    (hd : u.definitions[j]? = some d) : ∃ d', u'.definitions[j]? = some d' ∧
      d'.prototype.relabel unbound = d.prototype.relabel unbound := by
  have hget := congrArg (·[j]?) h.definitions
  simpa [hd] using hget.symm

end SourceUnit.SameHeadings

namespace SymbolTable

variable {types types' : TypeRegistry} {u u' : SourceUnit} {t t' : SymbolTable} {id : FuncId}
  {f : FunctionSymbol} {name : String}

theorem Named.unique {name' : String} (h : t.Named name id) (h' : t.Named name' id) :
    name' = name := by
  obtain ⟨f, hf, rfl⟩ := h
  obtain ⟨f', hf', rfl⟩ := h'
  rw [Option.some.inj (hf'.symm.trans hf)]

theorem Lists.exists_name (h : t.Lists types u.declarations u.definitions)
    (hid : id.index < t.functions.size) :
    ∃ name, u.functionNames[id.index]? = some name ∧ t.Named name id := by
  rw [h.size] at hid
  rw [SourceUnit.functionNames]
  rcases Nat.lt_or_ge id.index u.declarations.length with hlt | hge
  · obtain ⟨-, hn⟩ := h.declared id.index _ (List.getElem?_eq_getElem hlt)
    rw [Handle.ofIndex_index] at hn
    refine ⟨_, ?_, hn⟩
    rw [List.getElem?_append_left (by simpa using hlt), List.getElem?_map,
      List.getElem?_eq_getElem hlt, Option.map_some]
  · have hlt : id.index - u.declarations.length
        < (undeclared u.declarations u.definitions).length := by omega
    have hadded := congrArg (·[id.index - u.declarations.length]?) h.added
    have hindex : u.declarations.length + (id.index - u.declarations.length) = id.index := by omega
    have hsymbol : ((undeclared u.declarations u.definitions)[id.index
        - u.declarations.length]).symbol = some id := by
      simpa [hlt, hindex] using hadded
    obtain ⟨hmem, -⟩ := List.mem_filter.mp (List.getElem_mem hlt)
    obtain ⟨j, hj⟩ := List.mem_iff_getElem?.mp hmem
    obtain ⟨id', f, hid', -, hf, hrep⟩ := h.defined j _ hj
    obtain rfl := Option.some.inj (hid'.symm.trans hsymbol)
    refine ⟨_, ?_, f, hf, hrep.name⟩
    rw [List.getElem?_append_right (by simpa using hge), List.length_map, List.getElem?_map,
      List.getElem?_eq_getElem hlt, Option.map_some]
    rfl

theorem Lists.named_iff (h : t.Lists types u.declarations u.definitions) :
    t.Named name id ↔ u.functionNames[id.index]? = some name := by
  have hlength : u.functionNames.length = t.functions.size := by
    simp [SourceUnit.functionNames, h.size]
  constructor
  · rintro ⟨f, hf, rfl⟩
    obtain ⟨name, hname, hn⟩ := h.exists_name (index_lt_iff.mpr ⟨f, hf⟩)
    rw [hname, hn.unique ⟨f, hf, rfl⟩]
  · intro hname
    have hlt := (List.getElem?_eq_some_iff.mp hname).1
    obtain ⟨name', hname', hn⟩ := h.exists_name (hlength ▸ hlt)
    rwa [Option.some.inj (hname'.symm.trans hname)] at hn

/-- The same functions have the same names in both tables. -/
theorem Lists.findFunction?_eq (h : t.Lists types u.declarations u.definitions)
    (h' : t'.Lists types' u'.declarations u'.definitions) (hu : u.SameHeadings u') (name : String) :
    t'.findFunction? name = t.findFunction? name := by
  apply findFunction?_congr h.fits h'.fits
  intro id
  rw [h.named_iff, h'.named_iff, hu.functionNames_eq]

theorem Lists.symbol_eq (h : t.Lists types u.declarations u.definitions)
    (h' : t'.Lists types' u'.declarations u'.definitions) (hu : u.SameHeadings u') {j : Nat}
    {d d' : FunctionDefinition} (hd : u.definitions[j]? = some d)
    (hd' : u'.definitions[j]? = some d') : d'.symbol = d.symbol := by
  obtain ⟨id, -, hid, hfind, -⟩ := h.defined j d hd
  obtain ⟨id', -, hid', hfind', -⟩ := h'.defined j d' hd'
  obtain ⟨e, he, hprototype⟩ := hu.exists_definition hd
  obtain rfl := Option.some.inj (hd'.symm.trans he)
  have hname : d'.name = d.name := congrArg (·.name) hprototype
  rw [hid, hid', ← hfind, ← hfind', hname]
  exact h.findFunction?_eq h' hu d.name

theorem Lists.function_of_definition (h : t.Lists types u.declarations u.definitions)
    (h' : t'.Lists types' u'.declarations u'.definitions) (hu : u.SameHeadings u') {j : Nat}
    {d : FunctionDefinition} (hd : u.definitions[j]? = some d) (hid : d.symbol = some id) :
    ∃ d' f, u'.definitions[j]? = some d' ∧
      d'.prototype.relabel unbound = d.prototype.relabel unbound ∧ t'.getFunction? id = some f ∧
        f.Represents types' d'.prototype (.definition j) false := by
  obtain ⟨d', hd', hprototype⟩ := hu.exists_definition hd
  obtain ⟨id', f, hid', -, hf, hrep⟩ := h'.defined j d' hd'
  rw [h.symbol_eq h' hu hd hd', hid] at hid'
  obtain rfl := Option.some.inj hid'
  exact ⟨d', f, hd', hprototype, hf, hrep⟩

theorem Lists.exists_function (h : t.Lists types u.declarations u.definitions)
    (h' : t'.Lists types' u'.declarations u'.definitions) (hu : u.SameHeadings u')
    (hf : t.getFunction? id = some f) :
    ∃ f', t'.getFunction? id = some f' ∧ f'.name = f.name ∧ f'.arity = f.arity := by
  have hname : t'.Named f.name id := by
    rw [h'.named_iff, ← hu.functionNames_eq, ← h.named_iff]
    exact ⟨f, hf, rfl⟩
  cases h.entry id f hf with
  | defined item symbol represents =>
    obtain ⟨d', f', hd', hprototype, hf', hrep⟩ := h.function_of_definition h' hu item symbol
    have harity := congrArg Prototype.arity hprototype
    rw [Prototype.arity_relabel, Prototype.arity_relabel] at harity
    refine ⟨f', hf', ?_, ?_⟩
    · rw [hrep.name, represents.name]
      exact congrArg (·.name) hprototype
    · rw [hrep.arity_eq, represents.arity_eq, harity]
  | declared item represents =>
    obtain ⟨f', hf', hname⟩ := hname
    refine ⟨f', hf', hname, ?_⟩
    cases h'.entry id f' hf' with
    | declared item' represents' =>
      obtain ⟨d', hd', hprototype⟩ := hu.exists_declaration item
      obtain rfl := Option.some.inj (hd'.symm.trans item')
      have harity := congrArg Prototype.arity hprototype
      rw [Prototype.arity_relabel, Prototype.arity_relabel] at harity
      rw [represents'.arity_eq, represents.arity_eq, harity]
    | defined item' symbol' represents' =>
      -- the function of a definition is that of the definition in both tables
      obtain ⟨d, g, -, -, hg, hrep⟩ := h'.function_of_definition h hu.symm item' symbol'
      obtain rfl := Option.some.inj (hg.symm.trans hf)
      cases represents.isDeclaration.symm.trans hrep.isDeclaration

def Takes (t : SymbolTable) (name : String) (arity : Nat) (id : FuncId) : Prop :=
  ∃ f, t.getFunction? id = some f ∧ f.name = name ∧ f.arity = arity

/-- Tables in which the same functions take so many arguments under a name find the same one. -/
theorem findOverload?_congr {arity : Nat} (hfit : t.FunctionsFit) (hfit' : t'.FunctionsFit)
    (h : ∀ id, t'.Takes name arity id ↔ t.Takes name arity id) :
    t'.findOverload? name arity = t.findOverload? name arity := by
  have hiff : ∀ {t : SymbolTable} {id}, t.FunctionsFit → (t.findOverload? name arity = some id ↔
      t.Takes name arity id ∧ ∀ id' : FuncId, id'.index < id.index → ¬ t.Takes name arity id') := by
    intro t id hfit
    rw [findOverload?_eq_some_iff hfit]
    simp [Takes]
  apply Option.ext
  intro id
  simp only [hiff hfit, hiff hfit', h]

theorem Lists.takes (h : t.Lists types u.declarations u.definitions)
    (h' : t'.Lists types' u'.declarations u'.definitions) (hu : u.SameHeadings u') {arity : Nat}
    (hid : t.Takes name arity id) : t'.Takes name arity id := by
  obtain ⟨f, hf, rfl, rfl⟩ := hid
  exact h.exists_function h' hu hf

theorem Lists.findOverload?_eq (h : t.Lists types u.declarations u.definitions)
    (h' : t'.Lists types' u'.declarations u'.definitions) (hu : u.SameHeadings u') (name : String)
    (arity : Nat) : t'.findOverload? name arity = t.findOverload? name arity :=
  findOverload?_congr h.fits h'.fits fun _ => ⟨h'.takes h hu.symm, h.takes h' hu⟩

end SymbolTable

end MiniC
