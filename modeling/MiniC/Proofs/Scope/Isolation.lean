import MiniC.Proofs.Scope.Headings
import MiniC.Proofs.Scope.Reordering

/-! # Bodies do not interfere

A program is analyzed twice, the second time with another body of one of its definitions. All
other definitions then get the same errors, their calls get the same handles, and their names
either mean variables that agree in all but their numbers, or are found in neither run.
-/

namespace MiniC

open Relabelling (unbound)

def Slot.bare (slot : Slot) : Slot := { slot with symbol := none }

theorem Slot.varSymbol?_bare (types : TypeRegistry) (slot : Slot) :
    slot.bare.varSymbol? types = slot.varSymbol? types := rfl

namespace FunctionDefinition

variable {d d' : FunctionDefinition}

theorem slots_bare (d : FunctionDefinition) :
    d.slots.map (·.bare) = d.emptied.slots.map ({ · with owner := d.symbol }) := by
  have hstmt : ∀ stmt : Stmt, stmt.emptied.variables = stmt.variables.map (·.relabel unbound) := by
    intro stmt
    cases stmt <;> rfl
  simp [slots, emptied, FunctionDefinition.bare, Prototype.relabel, FunctionBody.emptied,
    FunctionBody.variables, Slot.bare, Parameter.slot, VariableDeclaration.slot, Parameter.relabel,
    VariableDeclaration.relabel, TypeName.relabel, List.map_flatMap, List.flatMap_map, hstmt,
    Function.comp_def]

theorem slots_bare_eq (h : d.emptied = d'.emptied) (hsymbol : d'.symbol = d.symbol) :
    d.slots.map (·.bare) = d'.slots.map (·.bare) := by
  rw [slots_bare, slots_bare, h, hsymbol]

theorem relabel_eq_of_emptied (h : d.emptied = d'.emptied) :
    d.relabel unbound = d'.relabel unbound := by
  rw [relabel_unbound, relabel_unbound, h]

end FunctionDefinition

/-- Two handles of variables that agree in all but their numbers. -/
def SymbolTable.SameVariable (t t' : SymbolTable) (id id' : VarId) : Prop :=
  ∃ x, t.getVariable? id = some x ∧ t'.getVariable? id' = some x

/-- A definition after one analysis and the same definition after another one. -/
structure FunctionDefinition.SameMeaning (t t' : SymbolTable) (d d' : FunctionDefinition) :
    Prop where
  relabel : d'.relabel unbound = d.relabel unbound
  symbol : d'.symbol = d.symbol
  missing : d'.missing t' = d.missing t
  call : ∀ (i : Nat) (callee : String) (calleeSpan : Span) (args : List Expr) (span : Span)
    (symbol : Option FuncId), d.body.parts[i]? = some (.call callee calleeSpan args span symbol) →
      ∃ args', d'.body.parts[i]? = some (.call callee calleeSpan args' span symbol)
  identifier : ∀ (i : Nat) (name : String) (span : Span) (symbol : Option VarId),
    d.body.parts[i]? = some (.identifier name span symbol) →
      ∃ symbol', d'.body.parts[i]? = some (.identifier name span symbol') ∧
        ((∃ id id', symbol = some id ∧ symbol' = some id' ∧ t.SameVariable t' id id') ∨
          t.resolveVariable? d.scope name = none ∧ t'.resolveVariable? d'.scope name = none ∧
            symbol' = symbol)

namespace Program

variable {p p' r r' : Program} {types : TypeRegistry} {t t' : SymbolTable} {j : Nat}
  {e e' : FunctionDefinition}

section Shared

-- two programs with the same headings are declared, and share a definition with its body
variable (h : p.declare types = (r, .ok t)) (h' : p'.declare types = (r', .ok t'))
  (hu : r.unit.SameHeadings r'.unit) (he : r.unit.definitions[j]? = some e)
  (he' : r'.unit.definitions[j]? = some e') (heq : e.emptied = e'.emptied)
  (hp : p.unit.Fits) (hp' : p'.unit.Fits)

include h h' hu he he' hp hp'

theorem symbol_eq_of_declare : e'.symbol = e.symbol := by
  obtain ⟨-, hlists⟩ := declare_lists h (fits_of_declare h hp).functions
  obtain ⟨-, hlists'⟩ := declare_lists h' (fits_of_declare h' hp').functions
  exact hlists.symbol_eq hlists' hu he he'

theorem resolveFunction?_eq_of_declare (name : String) (arity : Nat) :
    t'.resolveFunction? e'.scope name arity = t.resolveFunction? e.scope name arity := by
  obtain ⟨-, hlists⟩ := declare_lists h (fits_of_declare h hp).functions
  obtain ⟨-, hlists'⟩ := declare_lists h' (fits_of_declare h' hp').functions
  obtain ⟨-, -, hdefined⟩ := declare_ok h
  obtain ⟨-, -, hdefined'⟩ := declare_ok h'
  obtain ⟨_, _, hk⟩ := (hdefined e (List.mem_of_getElem? he)).defined hlists.fits
  obtain ⟨_, _, hk'⟩ := (hdefined' e' (List.mem_of_getElem? he')).defined hlists'.fits
  rw [hk.resolveFunction?_eq, hk'.resolveFunction?_eq]
  exact hlists.findOverload?_eq hlists' hu name arity

include heq

theorem resolveVariable?_of_declare (name : String) :
    (∃ id id', t.resolveVariable? e.scope name = some id ∧
      t'.resolveVariable? e'.scope name = some id' ∧ t.SameVariable t' id id') ∨
    t.resolveVariable? e.scope name = none ∧ t'.resolveVariable? e'.scope name = none := by
  obtain ⟨hfunctions, hvars⟩ := fits_of_declare h hp
  obtain ⟨hfunctions', hvars'⟩ := fits_of_declare h' hp'
  obtain ⟨hfills, -, hregistered⟩ := declare_ok h
  obtain ⟨hfills', -, hregistered'⟩ := declare_ok h'
  have hdefined := (hregistered e (List.mem_of_getElem? he)).defined hfunctions
  have hdefined' := (hregistered' e' (List.mem_of_getElem? he')).defined hfunctions'
  have hslots : ∀ slot ∈ e.slots, slot ∈ r.unit.slots := fun _ =>
    SourceUnit.slot_mem_of_definition he
  have hslots' : ∀ slot ∈ e'.slots, slot ∈ r'.unit.slots := fun _ =>
    SourceUnit.slot_mem_of_definition he'
  have hsymbol := symbol_eq_of_declare h h' hu he he' hp hp'
  rw [hdefined.resolveVariable?_eq hfills hvars hslots,
    hdefined'.resolveVariable?_eq hfills' hvars' hslots']
  by_cases hname : e.Declares name
  · left
    obtain ⟨m, slot, slot', hm, hm', hbinding, hbinding'⟩ :=
      FunctionDefinition.exists_slot_pair (FunctionDefinition.relabel_eq_of_emptied heq) hname
    obtain ⟨id, x, hid, hx, hslot⟩ :=
      hfills.exists_variable hvars (hslots slot (List.mem_of_getElem? hm))
    obtain ⟨id', x', hid', hx', hslot'⟩ :=
      hfills'.exists_variable hvars' (hslots' slot' (List.mem_of_getElem? hm'))
    have hbare : slot.bare = slot'.bare := by
      have hget := congrArg (·[m]?) (FunctionDefinition.slots_bare_eq heq hsymbol)
      simpa [hm, hm'] using hget
    rw [← Slot.varSymbol?_bare, ← hbare, Slot.varSymbol?_bare] at hslot'
    obtain rfl := Option.some.inj (hslot.symm.trans hslot')
    exact ⟨id, id', hbinding.trans hid, hbinding'.trans hid', x, hx, hx'⟩
  · right
    have hbound : ∀ slot ∈ e.slots, slot.symbol ≠ none := fun slot hslot =>
      hfills.symbol_ne_none (hslots slot hslot)
    have hbound' : ∀ slot ∈ e'.slots, slot.symbol ≠ none := fun slot hslot =>
      hfills'.symbol_ne_none (hslots' slot hslot)
    have hname' : ¬ e'.Declares name :=
      fun hn => hname ((FunctionDefinition.declares_iff_of_emptied heq name).mpr hn)
    rw [← FunctionDefinition.binding?_ne_none_iff hbound, not_not] at hname
    rw [← FunctionDefinition.binding?_ne_none_iff hbound', not_not] at hname'
    exact ⟨hname, hname'⟩

theorem missing?_eq_of_declare (x : Expr) : x.missing? t' e'.scope = x.missing? t e.scope := by
  cases x with
  | identifier name span symbol =>
    rw [Expr.missing?, Expr.missing?]
    rcases resolveVariable?_of_declare h h' hu he he' heq hp hp' name with
      ⟨id, id', hid, hid', -⟩ | ⟨hnone, hnone'⟩
    · rw [hid, hid']
      simp
    · rw [hnone, hnone']
  | call callee calleeSpan args span symbol =>
    rw [Expr.missing?, Expr.missing?, resolveFunction?_eq_of_declare h h' hu he he' hp hp']
  | number => rfl
  | parameter => rfl
  | binary => rfl

theorem missing_eq_of_declare : e'.missing t' = e.missing t := by
  have hmissing : (fun x : Expr => x.missing? t' e'.scope) = fun x => x.missing? t e.scope :=
    funext (missing?_eq_of_declare h h' hu he he' heq hp hp')
  rw [FunctionDefinition.missing, FunctionDefinition.missing,
    scopeless?_eq_none h (List.mem_of_getElem? he),
    scopeless?_eq_none h' (List.mem_of_getElem? he'), FunctionDefinition.parts_eq_of_emptied heq,
    hmissing]

/-- Once its references are bound, the shared definition means the same in both programs. -/
theorem sameMeaning_of_declare : (e.resolved t).SameMeaning t t' (e'.resolved t') := by
  have hsymbol := symbol_eq_of_declare h h' hu he he' hp hp'
  have hparts := FunctionDefinition.parts_eq_of_emptied heq
  have hpart : ∀ (i : Nat) (y : Expr), (e.resolved t).body.parts[i]? = some y →
      ∃ x : Expr, y = x.resolved t e.scope ∧ x.relabel unbound = y.relabel unbound ∧
        (e'.resolved t').body.parts[i]? = some (x.resolved t' e'.scope) := by
    intro i y hy
    rw [FunctionDefinition.resolved, FunctionBody.parts_resolved, List.getElem?_map,
      Option.map_eq_some_iff] at hy
    obtain ⟨x, hx, rfl⟩ := hy
    refine ⟨x, rfl, (x.relabel_resolved t e.scope).symm, ?_⟩
    rw [FunctionDefinition.resolved, FunctionBody.parts_resolved, List.getElem?_map, ← hparts, hx,
      Option.map_some]
  constructor
  · rw [FunctionDefinition.relabel_resolved, FunctionDefinition.relabel_resolved,
      FunctionDefinition.relabel_eq_of_emptied heq]
  · exact hsymbol
  · rw [FunctionDefinition.missing_resolved, FunctionDefinition.missing_resolved]
    exact missing_eq_of_declare h h' hu he he' heq hp hp'
  · intro i callee calleeSpan args span symbol hy
    obtain ⟨x, hx, hrelabel, hx'⟩ := hpart i _ hy
    obtain ⟨args', symbol', rfl, -⟩ := Expr.exists_call hrelabel
    rw [Expr.resolved] at hx hx'
    obtain ⟨-, -, -, -, rfl⟩ := Expr.call.inj hx
    rw [resolveFunction?_eq_of_declare h h' hu he he' hp hp'] at hx'
    exact ⟨_, hx'⟩
  · intro i name span symbol hy
    obtain ⟨x, hx, hrelabel, hx'⟩ := hpart i _ hy
    obtain ⟨symbol', rfl⟩ := Expr.exists_identifier hrelabel
    rw [Expr.resolved] at hx hx'
    obtain ⟨-, -, rfl⟩ := Expr.identifier.inj hx
    refine ⟨_, hx', ?_⟩
    rcases resolveVariable?_of_declare h h' hu he he' heq hp hp' name with
      ⟨id, id', hid, hid', hsame⟩ | ⟨hnone, hnone'⟩
    · rw [hid, hid']
      exact Or.inl ⟨id, id', rfl, rfl, hsame⟩
    · rw [hnone, hnone']
      exact Or.inr ⟨hnone, hnone', rfl⟩

end Shared

def withBody (p : Program) (k : Nat) (b : FunctionBody) : Program :=
  p.withDefinitions (p.unit.definitions.modify k ({ · with body := b }))

theorem withBody_sameHeadings (p : Program) (k : Nat) (b : FunctionBody) :
    p.unit.SameHeadings (p.withBody k b).unit := by
  refine ⟨rfl, List.ext_getElem? fun j => ?_⟩
  simp only [withBody, withDefinitions, List.getElem?_map, List.getElem?_modify]
  cases p.unit.definitions[j]? with
  | none => rfl
  | some d => by_cases hk : k = j <;> simp [hk]

theorem withBody_definition (p : Program) {j k : Nat} (hj : j ≠ k) (b : FunctionBody) :
    (p.withBody k b).unit.definitions[j]? = p.unit.definitions[j]? := by
  simp [withBody, withDefinitions, hj.symm]

/-- Analysis got to a table, and ended with the errors of all definitions in their order. -/
structure Analyzed (p : Program) (types : TypeRegistry) (q : Program) (t : SymbolTable) : Prop where
  declared : (p.declare types).2 = .ok t
  analyzed : p.analyzeWith types = (q,
    if q.unit.definitions.flatMap (·.missing t) = [] then .ok t
    else .error (.resolving (q.unit.definitions.flatMap (·.missing t))))

theorem analyzed_of_declare (h : p.declare types = (r, .ok t)) :
    p.Analyzed types (r.withDefinitions (r.unit.definitions.map (·.resolved t))) t := by
  refine ⟨congrArg Prod.snd h, ?_⟩
  rw [analyzeWith_of_declare_ok h, resolve_eq]
  simp [withDefinitions, List.flatMap_map, FunctionDefinition.missing_resolved]

theorem exists_declare (hsize : p.unit.size ≤ Handle.capacity)
    (hknown : ∀ type ∈ p.unit.typeNames, type.Known types)
    (hnames : (p.unit.definitions.map (·.name)).Nodup) : ∃ r t, p.declare types = (r, .ok t) := by
  obtain ⟨t, ht⟩ := (exists_declare_eq_ok_iff hsize).mpr
    (SourceUnit.faults_eq_nil_iff.mpr ⟨hknown, hnames⟩)
  exact ⟨_, t, Prod.ext rfl ht⟩

/-- Another body of one definition does not change what analysis makes of the others. Both programs
must have handles for all their functions and variables. -/
theorem bodies_isolated {p : Program} {types : TypeRegistry} (k : Nat) (b : FunctionBody)
    (hp : p.unit.Fits) (hp' : (p.withBody k b).unit.Fits)
    (hknown : ∀ type ∈ p.unit.typeNames, type.Known types)
    (hknown' : ∀ type ∈ (p.withBody k b).unit.typeNames, type.Known types)
    (hnames : (p.unit.definitions.map (·.name)).Nodup) :
    ∃ q t q' t', p.Analyzed types q t ∧ (p.withBody k b).Analyzed types q' t' ∧
      ∀ j ≠ k, ∀ e, p.unit.definitions[j]? = some e → ∃ d d', q.unit.definitions[j]? = some d ∧
        q'.unit.definitions[j]? = some d' ∧ d.relabel unbound = e.relabel unbound ∧
          d.SameMeaning t t' d' := by
  have hnames' : ((p.withBody k b).unit.definitions.map (·.name)).Nodup := by
    rwa [← (p.withBody_sameHeadings k b).names_eq]
  obtain ⟨r, t, h⟩ := exists_declare hp.items hknown hnames
  obtain ⟨r', t', h'⟩ := exists_declare hp'.items hknown' hnames'
  have hempty := emptied_of_declare h
  have hempty' := emptied_of_declare h'
  have hu : r.unit.SameHeadings r'.unit :=
    (SourceUnit.SameHeadings.of_emptied hempty).trans
      ((p.withBody_sameHeadings k b).trans (SourceUnit.SameHeadings.of_emptied hempty'.symm))
  refine ⟨_, t, _, t', analyzed_of_declare h, analyzed_of_declare h', fun j hj e he => ?_⟩
  obtain ⟨d, hd, heq⟩ := definition_of_emptied hempty.symm he
  obtain ⟨d', hd', heq'⟩ := definition_of_emptied hempty'.symm
    ((p.withBody_definition hj b).trans he)
  refine ⟨d.resolved t, d'.resolved t', by simp [withDefinitions, hd],
    by simp [withDefinitions, hd'], ?_, ?_⟩
  · rw [FunctionDefinition.relabel_resolved, FunctionDefinition.relabel_eq_of_emptied heq]
  · exact sameMeaning_of_declare h h' hu hd hd' (heq.trans heq'.symm) hp hp'

/-- The body `{ int z; z; w; }`, which is right but for the name `w`. -/
def strayBody : FunctionBody :=
  ⟨[⟨⟨"int", .dummy⟩, "z", .dummy, .dummy, none⟩],
    [.expr (.identifier "z" .dummy none), .expr (.identifier "w" .dummy none)], .dummy⟩

/-- The function `h` gets a variable `z` of its own, which shifts that of `f`, and an error. -/
theorem bodies_isolated_merging :
    ∃ (t : SymbolTable) (q' : Program) (t' : SymbolTable) (d d' : FunctionDefinition),
      (merging none none none none none none none none none).Analyzed .builtin
        (merging (some ⟨0⟩) (some ⟨1⟩) (some ⟨2⟩) (some ⟨0⟩) (some ⟨0⟩) (some ⟨1⟩) (some ⟨2⟩)
          (some ⟨3⟩) (some ⟨3⟩)) t ∧
      ((merging none none none none none none none none none).withBody 0 strayBody).Analyzed
        .builtin q' t' ∧
      d.body.parts = [.identifier "z" .dummy (some ⟨3⟩)] ∧ q'.unit.definitions[1]? = some d' ∧
      d.SameMeaning t t' d' := by
  have hknown : ∀ type ∈ (merging none none none none none none none none none).unit.typeNames,
      type.Known .builtin := by
    unfold TypeName.Known
    decide
  have hknown' : ∀ type ∈ ((merging none none none none none none none none none).withBody 0
      strayBody).unit.typeNames, type.Known .builtin := by
    unfold TypeName.Known
    decide
  obtain ⟨q, t, q', t', h, h', hsame⟩ := bodies_isolated 0 strayBody
    ⟨by decide, by decide⟩ ⟨by decide, by decide⟩ hknown hknown' (by decide)
  obtain ⟨rfl, -⟩ := Prod.mk.inj (h.analyzed.symm.trans analyze_merging)
  obtain ⟨d, d', hd, hd', -, hmeaning⟩ := hsame 1 (by decide) _ rfl
  obtain rfl := Option.some.inj hd
  exact ⟨t, q', t', _, d', h, h', rfl, hd', hmeaning⟩

end Program

end MiniC
