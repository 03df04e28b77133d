import MiniC.Proofs.Except
import MiniC.Proofs.Scope.Entering

/-! # The function table

Without errors, the table has a function for each declaration of a unit and, behind them, one for
each definition of a name that no declaration has. A definition is bound to the first function of
its name, and this function has become its own; all other functions are those of declarations.
-/

namespace MiniC

/-- The definitions of names that no declaration has. -/
def undeclared (ds : List FunctionDeclaration) (fs : List FunctionDefinition) :
    List FunctionDefinition :=
  fs.filter fun d => !ds.any (·.name = d.name)

theorem undeclared_concat_of_mem {ds : List FunctionDeclaration} {d : FunctionDefinition}
    {e : FunctionDeclaration} (he : e ∈ ds) (hname : e.name = d.name)
    (fs : List FunctionDefinition) : undeclared ds (fs ++ [d]) = undeclared ds fs := by
  have hany : ∃ x ∈ ds, x.name = d.name := ⟨e, he, hname⟩
  simp [undeclared, List.filter_append, hany]

theorem undeclared_concat_of_not_mem {ds : List FunctionDeclaration} {d : FunctionDefinition}
    (h : ∀ e ∈ ds, e.name ≠ d.name) (fs : List FunctionDefinition) :
    undeclared ds (fs ++ [d]) = undeclared ds fs ++ [d] := by
  simpa [undeclared, List.filter_append] using h

theorem getElem?_concat_eq_some_iff {α : Type} {l : List α} {a b : α} {i : Nat} :
    (l ++ [a])[i]? = some b ↔ l[i]? = some b ∨ i = l.length ∧ a = b := by
  rcases Nat.lt_trichotomy i l.length with hi | rfl | hi
  · have hne : i ≠ l.length := Nat.ne_of_lt hi
    simp [List.getElem?_append_left hi, hne]
  · simp
  · have hne : i ≠ l.length := Nat.ne_of_gt hi
    have hnone : l[i]? = none := List.getElem?_eq_none (Nat.le_of_lt hi)
    have hnone' : (l ++ [a])[i]? = none := List.getElem?_eq_none (by simp; omega)
    simp [hnone, hnone', hne]

namespace SymbolTable

variable {types : TypeRegistry} {ds : List FunctionDeclaration} {fs : List FunctionDefinition}
  {t t' : SymbolTable} {id : FuncId} {f g : FunctionSymbol}

/-- The item that a function of the table stands for. -/
inductive Entry (types : TypeRegistry) (ds : List FunctionDeclaration)
    (fs : List FunctionDefinition) (id : FuncId) (f : FunctionSymbol) : Prop
  | declared {d : FunctionDeclaration} (item : ds[id.index]? = some d)
      (represents : f.Represents types d.prototype (.declaration id.index) true)
  | defined {j : Nat} {d : FunctionDefinition} (item : fs[j]? = some d)
      (symbol : d.symbol = some id)
      (represents : f.Represents types d.prototype (.definition j) false)

/-- A table that fits its handles lists the functions of some declarations and definitions. -/
structure Lists (types : TypeRegistry) (ds : List FunctionDeclaration)
    (fs : List FunctionDefinition) (t : SymbolTable) : Prop where
  fits : t.FunctionsFit
  flat : t.Flat
  size : t.functions.size = ds.length + (undeclared ds fs).length
  entry : ∀ id f, t.getFunction? id = some f → Entry types ds fs id f
  declared : ∀ i d, ds[i]? = some d → d.symbol = some (.ofIndex i) ∧ t.Named d.name (.ofIndex i)
  defined : ∀ j d, fs[j]? = some d → ∃ id f, d.symbol = some id ∧
    t.findFunction? d.name = some id ∧ t.getFunction? id = some f ∧
      f.Represents types d.prototype (.definition j) false
  added : (undeclared ds fs).map (·.symbol)
    = (List.range' ds.length (undeclared ds fs).length).map fun i => some (.ofIndex i)

theorem Entry.concat (h : Entry types ds fs id f) (d : FunctionDefinition) :
    Entry types ds (fs ++ [d]) id f := by
  cases h with
  | declared item represents => exact .declared item represents
  | defined item symbol represents =>
    exact .defined (getElem?_concat_eq_some_iff.mpr (Or.inl item)) symbol represents

theorem lists_empty (types : TypeRegistry) : Lists types [] [] { types } := by
  have hnone : ∀ id f, ({ types } : SymbolTable).getFunction? id ≠ some f := by
    simp [getFunction?]
  exact ⟨Nat.zero_le _, fun id f hf => absurd hf (hnone id f), rfl,
    fun id f hf => absurd hf (hnone id f), by simp, by simp, rfl⟩

theorem Lists.lt_capacity (h : Lists types ds fs t) {i : Nat} {d : FunctionDeclaration}
    (hd : ds[i]? = some d) : i < Handle.capacity := by
  have hlt := (List.getElem?_eq_some_iff.mp hd).1
  have hsize := h.size
  have hfit : t.functions.size ≤ Handle.capacity := h.fits
  omega

theorem Lists.declaration (h : Lists types ds [] t) {d : FunctionDeclaration}
    (hlt : t.functions.size < Handle.capacity) (hfit : t'.FunctionsFit)
    (hsymbol : d.symbol = some (.ofIndex t.functions.size))
    (hrep : f.Represents types d.prototype (.declaration ds.length) true)
    (hsets : t.Sets t' (.ofIndex t.functions.size) f) (henclosing : f.enclosing = .global)
    (hlocals : f.locals = .empty) : Lists types (ds ++ [d]) [] t' := by
  have hsize : t.functions.size = ds.length := h.size
  rw [hsize] at hlt hsets hsymbol
  have hindex : (Handle.ofIndex ds.length : FuncId).index = ds.length := Handle.index_ofIndex hlt
  refine ⟨hfit, hsets.flat h.flat henclosing fun _ => hlocals, ?_, ?_, ?_, by simp, rfl⟩
  · rw [← hsize] at hsets hlt
    rw [hsets.size_functions_succ hlt hfit, hsize, List.length_append]
    rfl
  · intro id g hg
    by_cases hid : id = .ofIndex ds.length
    · subst hid
      obtain rfl := Option.some.inj (hsets.1.symm.trans hg)
      refine .declared (getElem?_concat_eq_some_iff.mpr (Or.inr ⟨hindex, rfl⟩)) ?_
      rwa [hindex]
    · rw [hsets.2 _ hid] at hg
      cases h.entry id g hg with
      | declared item represents =>
        exact .declared (getElem?_concat_eq_some_iff.mpr (Or.inl item)) represents
      | defined item => simp at item
  · intro i e he
    rcases getElem?_concat_eq_some_iff.mp he with he | ⟨rfl, rfl⟩
    · obtain ⟨hs, hn⟩ := h.declared i e he
      have hne : (Handle.ofIndex i : FuncId) ≠ .ofIndex ds.length := by
        intro hi
        have hi := Handle.ofIndex_inj (h.lt_capacity he) hlt hi
        exact absurd (List.getElem?_eq_some_iff.mp he).1 (Nat.not_lt.mpr (Nat.le_of_eq hi.symm))
      exact ⟨hs, (hsets.named_iff hne).mpr hn⟩
    · exact ⟨hsymbol, f, hsets.1, hrep.name⟩

theorem Lists.place_of_defined (h : Lists types ds fs t) {j : Nat} {d : FunctionDefinition}
    (hd : fs[j]? = some d) :
    ∃ f, t.getFunction? (t.place d.name) = some f ∧ f.isDeclaration = false := by
  obtain ⟨id, f, -, hfind, hf, hrep⟩ := h.defined j d hd
  rw [place_of_some hfind]
  exact ⟨f, hf, hrep.isDeclaration⟩

theorem Lists.exists_declaration_iff (h : Lists types ds fs t) {name : String}
    (hundefined : ∀ g, t.getFunction? (t.place name) = some g → g.isDeclaration = true) :
    (∃ e ∈ ds, e.name = name) ↔ ∃ id, t.Named name id := by
  constructor
  · rintro ⟨e, he, rfl⟩
    obtain ⟨i, hi⟩ := List.mem_iff_getElem?.mp he
    exact ⟨_, (h.declared i e hi).2⟩
  · rintro ⟨id, f, hf, rfl⟩
    cases h.entry id f hf with
    | declared item represents => exact ⟨_, List.mem_of_getElem? item, represents.name.symm⟩
    | @defined j d item _ represents =>
      have hname : f.name = d.name := represents.name
      obtain ⟨g, hg, hdefined⟩ := h.place_of_defined item
      rw [← hname] at hg
      cases hdefined.symm.trans (hundefined g hg)

theorem Lists.added_definition (h : Lists types ds fs t) {d : FunctionDefinition}
    (hroom : t.HasRoom d.name) (hfit : t'.FunctionsFit)
    (hsymbol : d.symbol = some (t.place d.name)) (hsets : t.Sets t' (t.place d.name) f)
    (hundefined : ∀ g, t.getFunction? (t.place d.name) = some g → g.isDeclaration = true) :
    t'.functions.size = ds.length + (undeclared ds (fs ++ [d])).length ∧
      (undeclared ds (fs ++ [d])).map (·.symbol)
        = (List.range' ds.length (undeclared ds (fs ++ [d])).length).map
          fun i => some (.ofIndex i) := by
  have hexists := h.exists_declaration_iff hundefined
  cases hfind : t.findFunction? d.name with
  | some id =>
    obtain ⟨hn, -⟩ := (findFunction?_eq_some_iff h.fits).mp hfind
    obtain ⟨e, he, hen⟩ := hexists.mpr ⟨id, hn⟩
    obtain ⟨g, hg, -⟩ := hn
    rw [← place_of_some hfind] at hg
    rw [undeclared_concat_of_mem he hen, hsets.size_functions h.fits hfit hg]
    exact ⟨h.size, h.added⟩
  | none =>
    have hnew : ∀ e ∈ ds, e.name ≠ d.name := by
      intro e he hen
      obtain ⟨id, hn⟩ := hexists.mp ⟨e, he, hen⟩
      exact (findFunction?_eq_none_iff h.fits).mp hfind id hn
    rw [place_of_none hfind] at hsets hsymbol
    rw [undeclared_concat_of_not_mem hnew, List.length_append, List.length_singleton]
    constructor
    · rw [hsets.size_functions_succ (hroom.lt_of_none hfind) hfit, h.size, Nat.add_assoc]
    · rw [List.map_append, List.range'_1_concat, List.map_append, h.added, ← h.size]
      simp [hsymbol]

/-- A table goes on to list definitions. -/
theorem Lists.definition (h : Lists types ds fs t) {d : FunctionDefinition}
    (hroom : t.HasRoom d.name) (hfit : t'.FunctionsFit)
    (hsymbol : d.symbol = some (t.place d.name))
    (hrep : f.Represents types d.prototype (.definition fs.length) false)
    (hsets : t.Sets t' (t.place d.name) f)
    (hundefined : ∀ g, t.getFunction? (t.place d.name) = some g → g.isDeclaration = true)
    (henclosing : f.enclosing = .global) : Lists types ds (fs ++ [d]) t' := by
  have hname : f.name = d.name := hrep.name
  have hplace : t'.findFunction? d.name = some (t.place d.name) := by
    rw [← hname] at hsets hroom ⊢
    exact hsets.findFunction?_place hroom hfit
  obtain ⟨hsize, hadded⟩ := h.added_definition hroom hfit hsymbol hsets hundefined
  refine ⟨hfit, hsets.flat h.flat henclosing fun hf => ?_, hsize, ?_, ?_, ?_, hadded⟩
  · cases hf.symm.trans hrep.isDeclaration
  · intro id g hg
    by_cases hid : id = t.place d.name
    · subst hid
      obtain rfl := Option.some.inj (hsets.1.symm.trans hg)
      exact .defined (getElem?_concat_eq_some_iff.mpr (Or.inr ⟨rfl, rfl⟩)) hsymbol hrep
    · rw [hsets.2 _ hid] at hg
      exact (h.entry id g hg).concat d
  · intro i e he
    obtain ⟨hs, hn⟩ := h.declared i e he
    refine ⟨hs, ?_⟩
    by_cases hi : (Handle.ofIndex i : FuncId) = t.place d.name
    · obtain ⟨g, hg, hgn⟩ := hn
      rw [hi] at hg ⊢
      exact ⟨f, hsets.1, hname.trans ((hroom.name_of_place hg).symm.trans hgn)⟩
    · exact (hsets.named_iff hi).mpr hn
  · intro j e he
    rcases getElem?_concat_eq_some_iff.mp he with he | ⟨rfl, rfl⟩
    · obtain ⟨id, g, hs, hfind, hg, hgrep⟩ := h.defined j e he
      -- an earlier definition of the name would stand at the place, where nothing is defined
      have hne : e.name ≠ f.name := by
        intro hen
        obtain ⟨g', hg', hdefined⟩ := h.place_of_defined he
        rw [hen, hname] at hg'
        cases hdefined.symm.trans (hundefined g' hg')
      rw [← hname] at hsets hroom
      have hid : id ≠ t.place f.name := by
        rintro rfl
        exact hne (hgrep.name.symm.trans (hroom.name_of_place hg))
      exact ⟨id, g, hs, (hsets.findFunction?_of_ne hroom hfit hne).trans hfind,
        (hsets.2 id hid).trans hg, hgrep⟩
    · exact ⟨_, f, hsymbol, hplace, hsets.1, hrep⟩

end SymbolTable

namespace Declaring

open Visitor

variable {types : TypeRegistry} {ds : List FunctionDeclaration} {fs : List FunctionDefinition}
  {s : Declaring}

/-- Without errors, and if its table fits the handles, the walk has listed the declarations and
definitions it met. -/
def Listed (types : TypeRegistry) (ds : List FunctionDeclaration) (fs : List FunctionDefinition)
    (s : Declaring) : Prop :=
  s.Clean → s.table.FunctionsFit →
    s.table.types = types ∧ s.declarations = ds.length ∧ s.definitions = fs.length ∧
      s.table.Lists types ds fs

theorem bindDeclaration_listed (d : FunctionDeclaration) (h : Listed types ds [] s) :
    Listed types (ds ++ [(bindDeclaration d s).1]) [] (bindDeclaration d s).2 := by
  intro hs hfit
  obtain ⟨hgrows, -⟩ := bindDeclaration_grows d s hs
  obtain ⟨rfl, hdeclarations, hdefinitions, hlists⟩ :=
    h hgrows.clean (hgrows.follows.fits hfit)
  obtain ⟨f, hadds⟩ := bindDeclaration_adds hs hfit
  refine ⟨hgrows.fills.types, ?_, hadds.definitions.trans hdefinitions, ?_⟩
  · rw [hadds.declarations, hdeclarations, List.length_append]
    rfl
  · exact hlists.declaration hadds.lt_capacity hfit hadds.symbol
      (hdeclarations ▸ hadds.represents) hadds.sets hadds.enclosing hadds.locals

theorem declareDefinition_listed (d : FunctionDefinition) (h : Listed types ds fs s) :
    Listed types ds (fs ++ [(declareDefinition d s).1]) (declareDefinition d s).2 := by
  intro hs hfit
  obtain ⟨f, henters⟩ := declareDefinition_enters hs hfit
  obtain ⟨rfl, hdeclarations, hdefinitions, hlists⟩ :=
    h (declareDefinition_backward d s hs) henters.room.fits
  obtain ⟨hgrows, -⟩ := declareDefinition_grows d s hs fun _ => hlists.flat
  refine ⟨hgrows.fills.types, henters.declarations.trans hdeclarations, ?_, ?_⟩
  · rw [henters.definitions, hdefinitions, List.length_append]
    rfl
  · have hname : d.name = (declareDefinition d s).1.name := henters.name.symm
    exact hlists.definition (hname ▸ henters.room) hfit (hname ▸ henters.symbol)
      (hdefinitions ▸ henters.represents) (hname ▸ henters.sets) (hname ▸ henters.undefined)
      (henters.enclosing hlists.flat)

end Declaring

open Declaring Visitor

/-- The table of a program that was declared without errors lists its items. -/
theorem Program.declare_lists {p q : Program} {types : TypeRegistry} {t : SymbolTable}
    (h : p.declare types = (q, .ok t)) (hfit : t.FunctionsFit) :
    t.types = types ∧ t.Lists types q.unit.declarations q.unit.definitions := by
  obtain ⟨s, hw, hs, rfl⟩ := Program.declare_eq_ok h
  rw [walk_eq] at hw
  obtain ⟨rfl, rfl⟩ := Prod.mk.inj hw
  have hinit : Listed types [] [] { table := { types } } := fun _ _ =>
    ⟨rfl, rfl, rfl, SymbolTable.lists_empty types⟩
  have hds := walkList_invariant (P := fun ds s => Listed types ds [] s)
    (fun _ d _ => bindDeclaration_listed d) p.unit.declarations hinit
  have hfs := walkList_invariant (P := fun fs s => Listed types (walkList bindDeclaration
      p.unit.declarations { table := { types } }).1 fs s)
    (fun _ d _ => declareDefinition_listed d) p.unit.definitions hds
  obtain ⟨htypes, -, -, hlists⟩ := hfs hs hfit
  exact ⟨htypes, hlists⟩

/-- The functions of a table are those of the items of a unit. -/
structure SymbolTable.FunctionsOf (t : SymbolTable) (types : TypeRegistry) (u : SourceUnit) :
    Prop where
  size : t.functions.size
    = u.declarations.length + (undeclared u.declarations u.definitions).length
  /-- Declarations come first, in their order. -/
  declaration : ∀ (i : Nat) (d : FunctionDeclaration),
    u.declarations[i]? = some d → d.symbol.map (·.index) = some i
  /-- The definitions of other names follow in their order. -/
  added : ∀ (k : Nat) (d : FunctionDefinition),
    (undeclared u.declarations u.definitions)[k]? = some d →
      d.symbol.map (·.index) = some (u.declarations.length + k)
  /-- A definition has the first function of its name. -/
  first : ∀ d ∈ u.definitions, ∃ id, d.symbol = some id ∧ t.Named d.name id ∧
    ∀ id' : FuncId, id'.index < id.index → ¬ t.Named d.name id'
  distinct : (u.definitions.map (·.symbol)).Nodup
  /-- The function of a definition has all that the definition says. -/
  defined : ∀ j d, u.definitions[j]? = some d → ∃ id f, d.symbol = some id ∧
    t.getFunction? id = some f ∧ f.arity = d.prototype.arity ∧
      f.Represents types d.prototype (.definition j) false
  /-- Every other function has all that a declaration says, and nothing else. -/
  declared : ∀ id f, t.getFunction? id = some f → (∀ d ∈ u.definitions, d.symbol ≠ some id) →
    ∃ d, u.declarations[id.index]? = some d ∧ f.arity = d.prototype.arity ∧
      f.Represents types d.prototype (.declaration id.index) true ∧ f.locals = .empty
  enclosing : ∀ id f, t.getFunction? id = some f → f.enclosing = .global

theorem SymbolTable.Lists.nodup {types : TypeRegistry} {ds : List FunctionDeclaration}
    {fs : List FunctionDefinition} {t : SymbolTable} (h : t.Lists types ds fs) :
    (fs.map (·.symbol)).Nodup := by
  refine List.pairwise_iff_getElem.mpr fun i j hi hj hij heq => ?_
  rw [List.getElem_map, List.getElem_map] at heq
  rw [List.length_map] at hi hj
  obtain ⟨id, f, hid, -, hf, hrep⟩ := h.defined i fs[i] (List.getElem?_eq_getElem hi)
  obtain ⟨id', f', hid', -, hf', hrep'⟩ := h.defined j fs[j] (List.getElem?_eq_getElem hj)
  obtain rfl := Option.some.inj (hid.symm.trans (heq.trans hid'))
  obtain rfl := Option.some.inj (hf.symm.trans hf')
  obtain rfl := ItemRef.definition.inj (hrep.item.symm.trans hrep'.item)
  exact Nat.lt_irrefl i hij

/-- After a walk without errors, the function table is that of the unit, if there are no more
functions than handles. -/
theorem Program.functions_of_declare {p q : Program} {types : TypeRegistry} {t : SymbolTable}
    (h : p.declare types = (q, .ok t)) (hfit : t.functions.size ≤ Handle.capacity) :
    t.FunctionsOf types q.unit := by
  obtain ⟨-, hlists⟩ := declare_lists h hfit
  have hsize := hlists.size
  constructor
  · exact hsize
  · intro i d hd
    rw [(hlists.declared i d hd).1, Option.map_some, Handle.index_ofIndex (hlists.lt_capacity hd)]
  · intro k d hd
    obtain ⟨hk, rfl⟩ := List.getElem?_eq_some_iff.mp hd
    have hlt : q.unit.declarations.length + k < Handle.capacity := by omega
    have hget := congrArg (·[k]?) hlists.added
    simpa [hk, Handle.index_ofIndex hlt] using congrArg (Option.map (Option.map Handle.index)) hget
  · intro d hd
    obtain ⟨j, hj⟩ := List.mem_iff_getElem?.mp hd
    obtain ⟨id, f, hid, hfind, -⟩ := hlists.defined j d hj
    exact ⟨id, hid, (SymbolTable.findFunction?_eq_some_iff hfit).mp hfind⟩
  · exact hlists.nodup
  · intro j d hj
    obtain ⟨id, f, hid, -, hf, hrep⟩ := hlists.defined j d hj
    exact ⟨id, f, hid, hf, hrep.arity_eq, hrep⟩
  · intro id f hf hunbound
    cases hlists.entry id f hf with
    | declared item represents =>
      exact ⟨_, item, represents.arity_eq, represents,
        (hlists.flat id f hf).2 represents.isDeclaration⟩
    | defined item symbol => exact absurd symbol (hunbound _ (List.mem_of_getElem? item))
  · intro id f hf
    exact (hlists.flat id f hf).1

def Prototype.ofNames (name : String) (params : List (String × Option VarId)) : Prototype :=
  ⟨⟨"int", .dummy⟩, name, .dummy,
    params.map fun p => ⟨⟨"int", .dummy⟩, p.1, .dummy, .dummy, p.2⟩, .dummy⟩

/-- The declarations `int f(int a); int g();` before the definitions `int h() { return f(1, 2); }`
and `int f(int x, int y) { int z; return z; }`, where all nodes carry the handles that are given
for them. -/
def Program.merging (f g h call : Option FuncId) (a x y z ref : Option VarId) : Program where
  name := "m"
  unit :=
    { declarations := [⟨.ofNames "f" [("a", a)], .dummy, f⟩, ⟨.ofNames "g" [], .dummy, g⟩]
      definitions := [
        ⟨.ofNames "h" [],
          ⟨[], [.ret (.call "f" .dummy [.number 1 .dummy, .number 2 .dummy] .dummy call) .dummy],
            .dummy⟩, .dummy, h⟩,
        ⟨.ofNames "f" [("x", x), ("y", y)],
          ⟨[⟨⟨"int", .dummy⟩, "z", .dummy, .dummy, z⟩], [.ret (.identifier "z" .dummy ref) .dummy],
            .dummy⟩, .dummy, f⟩]
      globalScope := f.map fun _ => .global }

/-- The first declaration is merged with the second definition, which has another parameter list. -/
def SymbolTable.merging : SymbolTable where
  functions := #[
    ⟨"f", .int, [⟨1⟩, ⟨2⟩], ⟨["z"], ⟨[("z", ⟨3⟩)]⟩⟩, false, .global, .definition 1, .dummy,
      "int f(int x, int y)"⟩,
    ⟨"g", .int, [], .empty, true, .global, .declaration 1, .dummy, "int g()"⟩,
    ⟨"h", .int, [], .empty, false, .global, .definition 0, .dummy, "int h()"⟩]
  vars := #[⟨"a", .int, .dummy, ⟨0⟩⟩, ⟨"x", .int, .dummy, ⟨0⟩⟩, ⟨"y", .int, .dummy, ⟨0⟩⟩,
    ⟨"z", .int, .dummy, ⟨0⟩⟩]
  types := .builtin

theorem Program.declare_merging :
    (merging none none none none none none none none none).declare .builtin
      = (merging (some ⟨0⟩) (some ⟨1⟩) (some ⟨2⟩) none (some ⟨0⟩) (some ⟨1⟩) (some ⟨2⟩)
          (some ⟨3⟩) none, .ok .merging) := by
  apply eq_ok_of_toOption
  · simp only [declare, walk_eq]
    decide +kernel
  · simp only [declare, walk_eq]
    decide +kernel

theorem Program.functions_of_declare_merging :
    ∃ q, (merging none none none none none none none none none).declare .builtin
        = (q, .ok .merging) ∧ SymbolTable.merging.FunctionsOf .builtin q.unit :=
  ⟨_, declare_merging, functions_of_declare declare_merging (by decide)⟩

end MiniC
