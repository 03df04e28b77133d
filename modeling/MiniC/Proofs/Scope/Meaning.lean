import Mathlib.Data.List.Forall2
import MiniC.Proofs.Scope.Calls
import MiniC.Proofs.Scope.Handles
import MiniC.Proofs.Scope.Verdict

/-! # What references mean

Which references of a unit are found can be seen from the unit alone. A name is found where the
definition around it declares it. A call is found if an item of its name takes as many arguments,
and stands in the table with a function of its own: all definitions do, and the declarations
except the first one of a name that a definition has, whose function becomes that of the
definition. A program is accepted just if its types are known, its definitions have different
names, and all its references are found.
-/

namespace MiniC

open Relabelling (unbound)

/-- An item of a name and a number of parameters has a function of its own. -/
inductive SourceUnit.Stands (u : SourceUnit) : ItemRef → String → Nat → Prop
  | definition {j : Nat} {d : FunctionDefinition} (item : u.definitions[j]? = some d) :
      Stands u (.definition j) d.name d.prototype.arity
  | declaration {i : Nat} {d : FunctionDeclaration} (item : u.declarations[i]? = some d)
      (kept : (∃ k < i, ∃ e, u.declarations[k]? = some e ∧ e.name = d.name) ∨
        ∀ e ∈ u.definitions, e.name ≠ d.name) :
      Stands u (.declaration i) d.name d.prototype.arity

/-- Some item takes so many arguments under the name. -/
def SourceUnit.Offers (u : SourceUnit) (name : String) (arity : Nat) : Prop :=
  ∃ item, u.Stands item name arity

def FunctionDefinition.Declares (d : FunctionDefinition) (name : String) : Prop :=
  name ∈ d.slots.map (·.name)

/-- In a definition of a unit, a reference means something. -/
def Expr.Resolves (u : SourceUnit) (d : FunctionDefinition) : Expr → Prop
  | .identifier name _ _ => d.Declares name
  | .call callee _ args _ _ => u.Offers callee args.length
  | .number .. | .parameter _ | .binary .. => True

theorem SourceUnit.offers_iff {u : SourceUnit} {name : String} {arity : Nat} :
    u.Offers name arity ↔
      (∃ d ∈ u.definitions, d.name = name ∧ d.prototype.arity = arity) ∨
      ∃ x ∈ u.declarations.zipIdx, x.1.name = name ∧ x.1.prototype.arity = arity ∧
        ((∃ e ∈ u.declarations.take x.2, e.name = name) ∨ ∀ e ∈ u.definitions, e.name ≠ name) := by
  have htake : ∀ i, (∃ e ∈ u.declarations.take i, e.name = name) ↔
      ∃ k < i, ∃ e, u.declarations[k]? = some e ∧ e.name = name := by
    intro i
    simp only [List.mem_take_iff_getElem, List.getElem?_eq_some_iff]
    grind
  constructor
  · rintro ⟨item, @⟨j, d, hd⟩ | @⟨i, d, hd, hkept⟩⟩
    · exact Or.inl ⟨d, List.mem_of_getElem? hd, rfl, rfl⟩
    · rw [← htake] at hkept
      exact Or.inr ⟨(d, i), List.mk_mem_zipIdx_iff_getElem?.mpr hd, rfl, rfl, hkept⟩
  · rintro (⟨d, hd, rfl, rfl⟩ | ⟨⟨d, i⟩, hd, rfl, rfl, hkept⟩)
    · obtain ⟨j, hj⟩ := List.mem_iff_getElem?.mp hd
      exact ⟨_, .definition hj⟩
    · rw [htake] at hkept
      exact ⟨_, .declaration (List.mk_mem_zipIdx_iff_getElem?.mp hd) hkept⟩

instance (u : SourceUnit) (name : String) (arity : Nat) : Decidable (u.Offers name arity) :=
  decidable_of_iff _ SourceUnit.offers_iff.symm

instance (d : FunctionDefinition) (name : String) : Decidable (d.Declares name) :=
  inferInstanceAs (Decidable (name ∈ d.slots.map (·.name)))

def Expr.unresolved? (u : SourceUnit) (d : FunctionDefinition) : Expr → Option SemanticError
  | .identifier name span _ =>
    if d.Declares name then none else some ⟨.undeclaredVariable, name, span⟩
  | .call callee calleeSpan args _ _ =>
    if u.Offers callee args.length then none
    else some ⟨.undeclaredFunction args.length, callee, calleeSpan⟩
  | .number .. | .parameter _ | .binary .. => none

def FunctionDefinition.unresolved (u : SourceUnit) (d : FunctionDefinition) : List SemanticError :=
  d.body.parts.filterMap (·.unresolved? u d)

/-- The references of a unit that mean nothing, in the order of the walk. -/
def SourceUnit.unresolved (u : SourceUnit) : List SemanticError :=
  u.definitions.flatMap (·.unresolved u)

theorem Expr.unresolved?_eq_none_iff {u : SourceUnit} {d : FunctionDefinition} {e : Expr} :
    e.unresolved? u d = none ↔ e.Resolves u d := by
  cases e <;> simp [unresolved?, Resolves]

theorem SourceUnit.unresolved_eq_nil_iff {u : SourceUnit} :
    u.unresolved = [] ↔ ∀ d ∈ u.definitions, ∀ e ∈ d.body.parts, e.Resolves u d := by
  simp [unresolved, FunctionDefinition.unresolved, Expr.unresolved?_eq_none_iff]

theorem SourceUnit.unresolved_ne_nil_iff {u : SourceUnit} :
    u.unresolved ≠ [] ↔ ∃ d ∈ u.definitions, ∃ e ∈ d.body.parts, ¬ e.Resolves u d := by
  rw [ne_eq, unresolved_eq_nil_iff]
  push Not
  rfl

namespace SymbolTable

variable {types : TypeRegistry} {u : SourceUnit} {t : SymbolTable} {id : FuncId}
  {f : FunctionSymbol}

/-- The function of a declared item comes from a declaration that stands. -/
theorem Lists.stands (h : t.Lists types u.declarations u.definitions)
    (hf : t.getFunction? id = some f) : u.Stands f.item f.name f.arity := by
  cases h.entry id f hf with
  | @defined j d item _ represents =>
    rw [represents.item, represents.name, represents.arity_eq]
    exact .definition item
  | @declared d item represents =>
    rw [represents.item, represents.name, represents.arity_eq]
    refine .declaration item ?_
    by_cases hnames : ∃ e ∈ u.definitions, e.name = d.name
    · obtain ⟨e, he, hen⟩ := hnames
      obtain ⟨j, hj⟩ := List.mem_iff_getElem?.mp he
      obtain ⟨id', f', -, hfind, hf', hrep⟩ := h.defined j e hj
      obtain ⟨-, hbefore⟩ := (findFunction?_eq_some_iff h.fits).mp hfind
      -- the function of the definition comes first, and is that of another declaration
      have hle : id'.index ≤ id.index :=
        Nat.le_of_not_lt fun hlt => hbefore _ hlt ⟨f, hf, represents.name.trans hen.symm⟩
      have hne : id'.index ≠ id.index := by
        intro heq
        obtain rfl := Handle.eq_of_index_eq heq
        obtain rfl := Option.some.inj (hf.symm.trans hf')
        cases represents.isDeclaration.symm.trans hrep.isDeclaration
      have hlt := Nat.lt_of_le_of_ne hle hne
      have hlength := (List.getElem?_eq_some_iff.mp item).1
      obtain ⟨e', he'⟩ : ∃ e', u.declarations[id'.index]? = some e' :=
        ⟨_, List.getElem?_eq_getElem (Nat.lt_trans hlt hlength)⟩
      obtain ⟨g, hg, hgn⟩ := (h.declared _ e' he').2
      rw [Handle.ofIndex_index] at hg
      obtain rfl := Option.some.inj (hf'.symm.trans hg)
      exact Or.inl ⟨_, hlt, e', he', hgn.symm.trans (hrep.name.trans hen)⟩
    · exact Or.inr fun e he hen => hnames ⟨e, he, hen⟩

theorem Lists.exists_of_stands (h : t.Lists types u.declarations u.definitions) {item : ItemRef}
    {name : String} {arity : Nat} (hitem : u.Stands item name arity) :
    ∃ id f, t.getFunction? id = some f ∧ f.item = item ∧ f.name = name ∧ f.arity = arity := by
  cases hitem with
  | definition item =>
    obtain ⟨id, f, -, -, hf, hrep⟩ := h.defined _ _ item
    exact ⟨id, f, hf, hrep.item, hrep.name, hrep.arity_eq⟩
  | @declaration i d item kept =>
    obtain ⟨-, f, hf, hname⟩ := h.declared i d item
    have hindex := @Handle.index_ofIndex .function _ (h.lt_capacity item)
    cases h.entry _ f hf with
    | declared item' represents =>
      rw [hindex] at item' represents
      obtain rfl := Option.some.inj (item.symm.trans item')
      exact ⟨_, f, hf, represents.item, represents.name, represents.arity_eq⟩
    | @defined j e item' symbol represents =>
      -- this function was merged, so the declaration is the first one of a defined name
      obtain ⟨id, -, hid, hfind, -, -⟩ := h.defined j e item'
      obtain rfl := Option.some.inj (hid.symm.trans symbol)
      have hen : e.name = d.name := represents.name.symm.trans hname
      rcases kept with ⟨k, hk, e', he', hen'⟩ | hnames
      · refine absurd (h.declared k e' he').2 ?_
        rw [hen', ← hen]
        refine ((findFunction?_eq_some_iff h.fits).mp hfind).2 _ ?_
        rwa [Handle.index_ofIndex (h.lt_capacity he'), hindex]
      · exact absurd hen (hnames e (List.mem_of_getElem? item'))

/-- A call is found just if an item offers it. -/
theorem Lists.findOverload?_ne_none_iff (h : t.Lists types u.declarations u.definitions)
    {name : String} {arity : Nat} : t.findOverload? name arity ≠ none ↔ u.Offers name arity := by
  constructor
  · intro hne
    obtain ⟨id, hid⟩ := Option.ne_none_iff_exists'.mp hne
    obtain ⟨⟨f, hf, rfl, rfl⟩, -⟩ := (findOverload?_eq_some_iff h.fits).mp hid
    exact ⟨_, h.stands hf⟩
  · rintro ⟨item, hitem⟩ hnone
    obtain ⟨id, f, hf, -, hname, harity⟩ := h.exists_of_stands hitem
    rw [findOverload?, Option.map_eq_none_iff, Array.findIdx?_eq_none_iff] at hnone
    have := hnone f (Array.mem_of_getElem? hf)
    simp [hname, harity] at this

end SymbolTable

/-- A name means something in a definition just if the definition declares it. -/
theorem FunctionDefinition.binding?_ne_none_iff {d : FunctionDefinition} {name : String}
    (h : ∀ slot ∈ d.slots, slot.symbol ≠ none) : d.binding? name ≠ none ↔ d.Declares name := by
  constructor
  · intro hne
    obtain ⟨id, hid⟩ := Option.ne_none_iff_exists'.mp hne
    obtain ⟨slot, hslot, -, rfl, -⟩ := exists_slot_of_binding? hid
    exact List.mem_map_of_mem hslot
  · intro hname hnone
    unfold binding? at hnone
    split at hnone
    next v hfind =>
      have hv : v ∈ d.body.variables := by simpa using List.mem_of_find?_eq_some hfind
      exact h _ (d.slot_mem_of_variable hv) hnone
    next hvariables =>
      have hparam : ∃ p ∈ d.prototype.params, p.name = name := by
        have hslot : (∃ p ∈ d.prototype.params, p.name = name) ∨
            ∃ v ∈ d.body.variables, v.name = name := by
          simpa [Declares, slots, Parameter.slot, VariableDeclaration.slot] using hname
        refine hslot.resolve_right ?_
        rintro ⟨v, hv, hvn⟩
        simpa [hvn] using List.find?_eq_none.mp hvariables v (List.mem_reverse.mpr hv)
      cases hfind : d.prototype.params.find? (·.name = name) with
      | none =>
        obtain ⟨p, hp, hpn⟩ := hparam
        simpa [hpn] using List.find?_eq_none.mp hfind p hp
      | some p =>
        rw [hfind, Option.bind_some] at hnone
        exact h _ (d.slot_mem_of_param (List.mem_of_find?_eq_some hfind)) hnone

theorem Stmt.parts_emptied (stmt : Stmt) : stmt.emptied.parts = stmt.parts := by
  cases stmt <;> rfl

theorem Stmt.names_emptied (stmt : Stmt) :
    stmt.emptied.variables.map (·.name) = stmt.variables.map (·.name) := by
  cases stmt <;> rfl

theorem FunctionBody.parts_emptied (b : FunctionBody) : b.emptied.parts = b.parts := by
  simp [parts, emptied, List.flatMap_map, Stmt.parts_emptied]

namespace FunctionDefinition

variable {d d' : FunctionDefinition}

theorem slots_names (d : FunctionDefinition) : d.slots.map (·.name)
    = d.prototype.params.map (·.name) ++ d.body.variables.map (·.name) := by
  simp [slots, Parameter.slot, VariableDeclaration.slot, Function.comp_def]

theorem slots_names_emptied (d : FunctionDefinition) :
    d.emptied.slots.map (·.name) = d.slots.map (·.name) := by
  rw [slots_names, slots_names]
  simp [emptied, bare, Prototype.relabel, FunctionBody.emptied, FunctionBody.variables,
    Parameter.relabel, VariableDeclaration.relabel, List.map_flatMap, List.flatMap_map,
    Stmt.names_emptied, Function.comp_def]

theorem name_eq_of_emptied (h : d.emptied = d'.emptied) : d.name = d'.name :=
  congrArg (·.prototype.name) h

theorem arity_eq_of_emptied (h : d.emptied = d'.emptied) :
    d.prototype.arity = d'.prototype.arity := by
  simpa [Prototype.arity, emptied, bare, Prototype.relabel]
    using congrArg (·.prototype.params.length) h

theorem parts_eq_of_emptied (h : d.emptied = d'.emptied) : d.body.parts = d'.body.parts := by
  rw [← d.body.parts_emptied, ← d'.body.parts_emptied]
  exact congrArg (·.body.parts) h

theorem declares_iff_of_emptied (h : d.emptied = d'.emptied) (name : String) :
    d.Declares name ↔ d'.Declares name := by
  rw [Declares, Declares, ← slots_names_emptied, h, slots_names_emptied]

theorem unresolved_eq_of_emptied (h : d.emptied = d'.emptied) (u : SourceUnit) :
    d.unresolved u = d'.unresolved u := by
  have hreference : (Expr.unresolved? u d) = Expr.unresolved? u d' := by
    funext e
    cases e <;> simp only [Expr.unresolved?, declares_iff_of_emptied h]
  rw [unresolved, unresolved, parts_eq_of_emptied h, hreference]

end FunctionDefinition

namespace Program

variable {p q : Program}

theorem definition_of_emptied (h : q.emptied = p.emptied) {j : Nat} {d : FunctionDefinition}
    (hd : q.unit.definitions[j]? = some d) :
    ∃ d', p.unit.definitions[j]? = some d' ∧ d'.emptied = d.emptied := by
  have hget := congrArg (·.unit.definitions[j]?) h
  simpa [emptied, hd] using hget.symm

theorem declaration_of_emptied (h : q.emptied = p.emptied) {i : Nat} {d : FunctionDeclaration}
    (hd : q.unit.declarations[i]? = some d) :
    ∃ d', p.unit.declarations[i]? = some d' ∧ d'.relabel unbound = d.relabel unbound := by
  have hget := congrArg (·.unit.declarations[i]?) h
  simpa [emptied, hd] using hget.symm

theorem map_definitions_of_emptied {α : Type} {f : FunctionDefinition → α}
    (h : q.emptied = p.emptied) (hf : ∀ d d', d.emptied = d'.emptied → f d = f d') :
    q.unit.definitions.map f = p.unit.definitions.map f := by
  have hmap : q.unit.definitions.map (·.emptied) = p.unit.definitions.map (·.emptied) :=
    congrArg (·.unit.definitions) h
  rw [← List.forall₂_eq_eq_eq, List.forall₂_map_left_iff, List.forall₂_map_right_iff] at hmap ⊢
  exact hmap.imp hf

theorem stands_of_emptied (h : q.emptied = p.emptied) {item : ItemRef} {name : String}
    {arity : Nat} (hitem : q.unit.Stands item name arity) : p.unit.Stands item name arity := by
  cases hitem with
  | definition item =>
    obtain ⟨d', hd', heq⟩ := definition_of_emptied h item
    rw [← FunctionDefinition.name_eq_of_emptied heq, ← FunctionDefinition.arity_eq_of_emptied heq]
    exact .definition hd'
  | @declaration i d item kept =>
    obtain ⟨d', hd', heq⟩ := declaration_of_emptied h item
    have hname : d'.name = d.name := congrArg (·.prototype.name) heq
    have harity : d'.prototype.arity = d.prototype.arity := by
      simpa [Prototype.arity, FunctionDeclaration.relabel, Prototype.relabel]
        using congrArg (·.prototype.params.length) heq
    rw [← hname, ← harity]
    refine .declaration hd' ?_
    rw [hname]
    rcases kept with ⟨k, hk, e, he, hen⟩ | hnames
    · obtain ⟨e', he', heq'⟩ := declaration_of_emptied h he
      exact Or.inl ⟨k, hk, e', he', (congrArg (·.prototype.name) heq').trans hen⟩
    · refine Or.inr fun e he => ?_
      obtain ⟨j, hj⟩ := List.mem_iff_getElem?.mp he
      obtain ⟨e', he', heq'⟩ := definition_of_emptied h.symm hj
      rw [← FunctionDefinition.name_eq_of_emptied heq']
      exact hnames e' (List.mem_of_getElem? he')

theorem offers_iff_of_emptied (h : q.emptied = p.emptied) (name : String) (arity : Nat) :
    q.unit.Offers name arity ↔ p.unit.Offers name arity :=
  ⟨fun ⟨item, hitem⟩ => ⟨item, stands_of_emptied h hitem⟩,
    fun ⟨item, hitem⟩ => ⟨item, stands_of_emptied h.symm hitem⟩⟩

variable {types : TypeRegistry} {t : SymbolTable}

theorem names_slots_emptied (p : Program) :
    p.emptied.unit.slots.map (·.name) = p.unit.slots.map (·.name) := by
  have hdeclaration : ∀ d : FunctionDeclaration,
      (d.relabel unbound).slots.map (·.name) = d.slots.map (·.name) := by
    intro d
    simp [FunctionDeclaration.slots, FunctionDeclaration.relabel, Prototype.relabel,
      Parameter.relabel, Parameter.slot, Function.comp_def]
  simp [emptied, SourceUnit.slots, List.map_flatMap, List.flatMap_map, hdeclaration,
    FunctionDefinition.slots_names_emptied]

theorem length_slots_of_declare (h : p.declare types = (q, .ok t)) :
    q.unit.slots.length = p.unit.slots.length := by
  have hnames := congrArg (·.unit.slots.map (·.name)) (emptied_of_declare h)
  simp only [names_slots_emptied] at hnames
  simpa using congrArg List.length hnames

/-- The table of a unit whose items and slots have handles has handles for all its symbols. -/
theorem fits_of_declare (h : p.declare types = (q, .ok t)) (hp : p.unit.Fits) : t.Fits := by
  refine ⟨Nat.le_trans (size_functions_of_declare h hp.items) hp.items, ?_⟩
  obtain ⟨hfills, -, -⟩ := declare_ok h
  rw [hfills.size_vars, length_slots_of_declare h]
  simpa using hp.slots

theorem missing?_eq (h : p.declare types = (q, .ok t)) (hp : p.unit.Fits)
    {d : FunctionDefinition} (hd : d ∈ q.unit.definitions) (e : Expr) :
    e.missing? t d.scope = e.unresolved? p.unit d := by
  have hfit := fits_of_declare h hp
  obtain ⟨hfills, -, hregistered⟩ := declare_ok h
  have hdefined := (hregistered d hd).defined hfit.functions
  cases e with
  | identifier name span symbol =>
    have hslots : ∀ slot ∈ d.slots, slot ∈ q.unit.slots := fun _ hslot =>
      List.mem_append_right _ (List.mem_flatMap.mpr ⟨d, hd, hslot⟩)
    have hbound : ∀ slot ∈ d.slots, slot.symbol ≠ none := fun slot hslot =>
      hfills.symbol_ne_none (hslots slot hslot)
    have hfound : t.resolveVariable? d.scope name = none ↔ ¬ d.Declares name := by
      rw [hdefined.resolveVariable?_eq hfills hfit.vars hslots,
        ← FunctionDefinition.binding?_ne_none_iff hbound, not_not]
    simp only [Expr.missing?, Expr.unresolved?, hfound, ite_not]
  | call callee calleeSpan args span symbol =>
    obtain ⟨id, f, hk⟩ := hdefined
    have hfound : t.resolveFunction? d.scope callee args.length = none ↔
        ¬ p.unit.Offers callee args.length := by
      obtain ⟨-, hlists⟩ := declare_lists h hfit.functions
      rw [hk.resolveFunction?_eq, ← offers_iff_of_emptied (emptied_of_declare h),
        ← hlists.findOverload?_ne_none_iff, not_not]
    simp only [Expr.missing?, Expr.unresolved?, hfound, ite_not]
  | number => rfl
  | parameter => rfl
  | binary => rfl

theorem scopeless?_eq_none (h : p.declare types = (q, .ok t)) {d : FunctionDefinition}
    (hd : d ∈ q.unit.definitions) : d.scopeless? = none := by
  obtain ⟨-, -, hregistered⟩ := declare_ok h
  obtain ⟨id, f, hid, -⟩ := (hregistered d hd).function
  rw [FunctionDefinition.scopeless?, hid]
  rfl

/-- The errors of the second walk can be told from the program as it was. -/
theorem missing_eq_unresolved (h : p.declare types = (q, .ok t)) (hp : p.unit.Fits) :
    q.unit.definitions.flatMap (·.missing t) = p.unit.unresolved := by
  have hmissing : ∀ d ∈ q.unit.definitions, d.missing t = d.unresolved p.unit := by
    intro d hd
    have hreference : (Expr.missing? t d.scope) = Expr.unresolved? p.unit d :=
      funext (missing?_eq h hp hd)
    rw [FunctionDefinition.missing, scopeless?_eq_none h hd, hreference]
    rfl
  have hunits : q.unit.definitions.map (·.unresolved p.unit)
      = p.unit.definitions.map (·.unresolved p.unit) :=
    map_definitions_of_emptied (emptied_of_declare h) fun _ _ heq =>
      FunctionDefinition.unresolved_eq_of_emptied heq p.unit
  rw [SourceUnit.unresolved, List.flatMap_def, List.flatMap_def, List.map_congr_left hmissing,
    hunits]

theorem missing_eq_nil_iff (h : p.declare types = (q, .ok t)) (hp : p.unit.Fits) :
    q.unit.definitions.flatMap (·.missing t) = [] ↔
      ∀ d ∈ p.unit.definitions, ∀ e ∈ d.body.parts, e.Resolves p.unit d := by
  rw [missing_eq_unresolved h hp, SourceUnit.unresolved_eq_nil_iff]

/-- A program is accepted just if its types are known, its definitions have different names, and
its references mean something. -/
theorem exists_analyzeWith_eq_ok_iff (hp : p.unit.Fits) :
    (∃ q t, p.analyzeWith types = (q, .ok t)) ↔
      (∀ type ∈ p.unit.typeNames, type.Known types) ∧ (p.unit.definitions.map (·.name)).Nodup ∧
        ∀ d ∈ p.unit.definitions, ∀ e ∈ d.body.parts, e.Resolves p.unit d := by
  rw [← and_assoc, ← SourceUnit.faults_eq_nil_iff, ← exists_declare_eq_ok_iff hp.items]
  constructor
  · rintro ⟨q, t, h⟩
    obtain ⟨r, hr, -, hmissing⟩ := analyzeWith_eq_ok h
    exact ⟨⟨t, congrArg Prod.snd hr⟩,
      (missing_eq_nil_iff hr hp).mp (List.flatMap_eq_nil_iff.mpr hmissing)⟩
  · rintro ⟨⟨t, ht⟩, hresolves⟩
    have hr : p.declare types = ((p.declare types).1, .ok t) := Prod.ext rfl ht
    have h := analyzeWith_of_declare_ok hr
    rw [resolve_eq, if_pos ((missing_eq_nil_iff hr hp).mpr hresolves)] at h
    exact ⟨_, t, h⟩

end Program

end MiniC
