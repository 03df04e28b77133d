import MiniC.Proofs.Scope.Finding

/-! # Definitions that are refused

A definition is refused if its name has a definition already, or if its return type is not known.
The walk then passes over the whole of it, body included, and leaves one error behind and nothing
else. This depends on two things that hold between any two items: no scope is entered, and a
function that has a definition is the first of its name, so that the search by name finds it.
-/

namespace MiniC

namespace SymbolTable

variable {t t' : SymbolTable} {f : FunctionSymbol}

/-- The functions that have a definition are the first of their names. -/
def DefinedFirst (t : SymbolTable) : Prop :=
  ∀ id f, t.getFunction? id = some f → f.isDeclaration = false →
    t.findFunction? f.name = some id

theorem definedFirst_empty (types : TypeRegistry) : ({ types } : SymbolTable).DefinedFirst := by
  intro id f hf
  simp [getFunction?] at hf

theorem DefinedFirst.sameButLocals (h : t.DefinedFirst) (ht : t.SameButLocals t') :
    t'.DefinedFirst := by
  intro id f hf hd
  obtain ⟨locals, hf'⟩ := ht.symm.exists_function hf
  have hfind := h id { f with locals } hf' hd
  rwa [← ht.findFunction?_eq] at hfind

theorem DefinedFirst.added (h : t.DefinedFirst) (happends : t.Appends t' f) (hfit : t'.FunctionsFit)
    (hf : f.isDeclaration = true) : t'.DefinedFirst := by
  have hsets := happends.sets hfit
  have hlt := happends.lt_capacity hfit
  intro id g hg hd
  have hne : id ≠ .ofIndex t.functions.size := by
    rintro rfl
    obtain rfl := Option.some.inj (hg.symm.trans hsets.1)
    cases hd.symm.trans hf
  rw [hsets.2 id hne] at hg
  obtain ⟨hnamed, hbefore⟩ := (findFunction?_eq_some_iff (Nat.le_of_lt hlt)).mp (h id g hg hd)
  refine (findFunction?_eq_some_iff hfit).mpr ⟨(hsets.named_iff hne).mpr hnamed, fun id' hid => ?_⟩
  have hid' : id' ≠ .ofIndex t.functions.size := by
    rintro rfl
    rw [Handle.index_ofIndex hlt] at hid
    exact Nat.lt_asymm hid (index_lt_iff.mpr ⟨g, hg⟩)
  rw [hsets.named_iff hid']
  exact hbefore id' hid

/-- What is put at the place of its name is the first of its name. -/
theorem DefinedFirst.entered (h : t.DefinedFirst) (hroom : t.HasRoom f.name)
    (hfit : t'.FunctionsFit) (hsets : t.Sets t' (t.place f.name) f) : t'.DefinedFirst := by
  intro id g hg hd
  by_cases hid : id = t.place f.name
  · subst hid
    obtain rfl := Option.some.inj (hg.symm.trans hsets.1)
    exact hsets.findFunction?_place hroom hfit
  · rw [hsets.2 id hid] at hg
    have hfind := h id g hg hd
    have hne : g.name ≠ f.name := by
      intro hname
      rw [hname] at hfind
      exact hid (place_of_some hfind).symm
    rw [hsets.findFunction?_of_ne hroom hfit hne, hfind]

end SymbolTable

namespace Declaring

open Visitor

variable {types : TypeRegistry} {s : Declaring}

/-- A state of the walk between two items. Here items can come in any order. -/
inductive Reached (types : TypeRegistry) : Declaring → Prop
  | start : Reached types { table := { types } }
  | declaration {s : Declaring} (d : FunctionDeclaration) (h : Reached types s) :
      Reached types (visitor.walkDeclaration d s).2
  | definition {s : Declaring} (d : FunctionDefinition) (h : Reached types s) :
      Reached types (visitor.walkDefinition d s).2

/-- No scope is entered, and in a table that fits its handles the functions with a definition are
the first of their names. -/
structure Between (s : Declaring) : Prop where
  scope : s.scope = .global
  definedFirst : s.table.FunctionsFit → s.table.DefinedFirst

theorem bindDeclaration_between (d : FunctionDeclaration) (h : s.Between) :
    (bindDeclaration d s).2.Between := by
  rcases addItem_next { s with declarations := s.declarations + 1 } d.prototype
      (.declaration s.declarations) true with
    ⟨-, hadd⟩ | ⟨returnType, params, ids, t', -, hadd, -, happends⟩
  · simp only [bindDeclaration, hadd]
    exact ⟨h.scope, h.definedFirst⟩
  · simp only [bindDeclaration, hadd]
    refine ⟨h.scope, fun hfit => (h.definedFirst ?_).added happends hfit rfl⟩
    exact Nat.le_of_lt (happends.lt_capacity hfit)

theorem declareDefinition_between (d : FunctionDefinition) (h : s.Between) :
    (declareDefinition d s).2.Between := by
  unfold declareDefinition
  dsimp only
  cases bindDefinition_outcome d s with
  | refused _ _ heq =>
    rw [bindBody_global _ (by rw [heq]; exact h.scope), heq]
    exact ⟨rfl, h.definedFirst⟩
  | untyped _ _ _ heq =>
    rw [bindBody_global _ (by rw [heq]; exact h.scope), heq]
    exact ⟨rfl, h.definedFirst⟩
  | entered _ _ _ heq _ hle _ hsets _ _ _ =>
    obtain ⟨b', t'', hb, ht⟩ := bindBody_next (bindDefinition d s).1.body
      (s := (bindDefinition d s).2) (by rw [heq])
    rw [heq] at ht
    rw [hb]
    refine ⟨rfl, fun hfit => ?_⟩
    have hfit' := Nat.le_trans (Nat.le_of_eq ht.functions.size_eq.symm) hfit
    obtain ⟨hroom, hset, hname⟩ := hsets hfit'
    rw [← hname] at hroom hset
    exact ((h.definedFirst hroom.fits).entered hroom hfit' hset).sameButLocals ht.functions

theorem Reached.between (h : Reached types s) : s.Between := by
  induction h with
  | start => exact ⟨rfl, fun _ => SymbolTable.definedFirst_empty types⟩
  | declaration d _ ih =>
    rw [walkDeclaration_eq]
    exact bindDeclaration_between d ih
  | definition d _ ih =>
    rw [walkDefinition_eq]
    exact declareDefinition_between d ih

/-- Another definition was met, and nothing came of it but an error. -/
def refused (s : Declaring) (e : SemanticError) : Declaring :=
  { s with scope := .global, definitions := s.definitions + 1, errors := s.errors.push e }

/-- Outside of all functions, the walk over a definition whose body it does not enter ends as the
definition was bound. -/
theorem declareDefinition_of_global {d : FunctionDefinition}
    (h : (bindDefinition d s).2.scope = .global) :
    declareDefinition d s
      = ((bindDefinition d s).1, { (bindDefinition d s).2 with scope := .global }) := by
  rw [declareDefinition, bindBody_global _ h]

theorem bindDefinition_of_defined {d : FunctionDefinition} {id : FuncId} {f : FunctionSymbol}
    (h : s.table.DefinedFirst) (hf : s.table.getFunction? id = some f) (hname : f.name = d.name)
    (hd : f.isDeclaration = false) :
    bindDefinition d s = (d, { s with definitions := s.definitions + 1 }.report
      (.duplicateDefinition f.span f.signature) d.name d.prototype.nameSpan) := by
  have hfind : s.table.findFunction? d.name = some id := hname ▸ h id f hf hd
  simp [bindDefinition, hfind, hf, hd]

theorem bindDefinition_of_unknown {d : FunctionDefinition}
    (h : s.table.types.get? d.prototype.returnType.name = none) :
    ∃ symbol kind name span, bindDefinition d s
      = ({ d with symbol }, { s with definitions := s.definitions + 1 }.report kind name span) := by
  have htype := typeOf_cases { s with definitions := s.definitions + 1 } d.prototype.returnType
  obtain ⟨_, ht, -⟩ | ⟨-, ht⟩ := htype
  · cases ht.symm.trans h
  cases bindDefinition_step d s with
  | refused _ _ _ heq => exact ⟨d.symbol, _, _, _, heq⟩
  | added _ heq =>
    refine ⟨none, .unknownType, d.prototype.returnType.name, d.prototype.returnType.span, ?_⟩
    simp only [heq, addDefinition, addItem, ht]
  | merged _ _ _ heq =>
    refine ⟨d.symbol, .unknownType, d.prototype.returnType.name, d.prototype.returnType.span, ?_⟩
    simp only [heq, mergeDefinition, ht]

/-- Wherever the walk arrives at a definition, a definition of a name that has one already stays
as it is, with all that is in it, and adds an error and nothing else to the state, outside of all
functions. The same goes for a definition of an unknown return type, but for its own handle,
whatever is known of its name. The names of the functions are looked up through their handles, so
the former needs that there are no more functions than handles. -/
theorem Reached.walkDefinition_refused (h : Reached types s) (d : FunctionDefinition) :
    (s.table.functions.size ≤ Handle.capacity →
      ∀ id f, s.table.getFunction? id = some f → f.name = d.name → f.isDeclaration = false →
      visitor.walkDefinition d s = (d, s.refused
        ⟨.duplicateDefinition f.span f.signature, d.name, d.prototype.nameSpan⟩)) ∧
    (s.table.types.get? d.prototype.returnType.name = none →
      ∃ symbol error, visitor.walkDefinition d s = ({ d with symbol }, s.refused error)) := by
  obtain ⟨hscope, hfirst⟩ := h.between
  rw [walkDefinition_eq]
  refine ⟨fun hfit id f hf hname hd => ?_, fun hunknown => ?_⟩
  · have hbind := bindDefinition_of_defined (hfirst hfit) hf hname hd
    rw [declareDefinition_of_global (by rw [hbind]; exact hscope), hbind]
    rfl
  · obtain ⟨symbol, kind, name, span, hbind⟩ := bindDefinition_of_unknown hunknown
    refine ⟨symbol, ⟨kind, name, span⟩, ?_⟩
    rw [declareDefinition_of_global (by rw [hbind]; exact hscope), hbind]
    rfl

def withLocal (returnType name : String) (symbol : Option VarId) : FunctionDefinition where
  prototype := ⟨⟨returnType, .dummy⟩, name, .dummy, [], .dummy⟩
  body := ⟨[], [.decl ⟨⟨"int", .dummy⟩, "x", .dummy, .dummy, symbol⟩], .dummy⟩
  span := .dummy

/-- Behind a definition of `f`, the locals of a second one and of a `float g` are passed over. -/
theorem walkDefinition_refused_withLocal :
    let s :=
      (visitor.walkDefinition (withLocal "int" "f" none) { table := { types := .builtin } }).2
    visitor.walkDefinition (withLocal "int" "f" (some ⟨5⟩)) s = (withLocal "int" "f" (some ⟨5⟩),
        s.refused ⟨.duplicateDefinition .dummy "int f()", "f", .dummy⟩) ∧
      ∃ symbol error, visitor.walkDefinition (withLocal "float" "g" (some ⟨5⟩)) s
        = ({ withLocal "float" "g" (some ⟨5⟩) with symbol }, s.refused error) := by
  intro s
  have hs : Reached .builtin s := .definition _ .start
  have hf : s.table.getFunction? ⟨0⟩ = some ⟨"f", .int, [], ⟨["x"], ⟨[("x", ⟨0⟩)]⟩⟩, false,
      .global, .definition 0, .dummy, "int f()"⟩ := by decide +kernel
  exact ⟨(hs.walkDefinition_refused (withLocal "int" "f" (some ⟨5⟩))).1 (by decide +kernel) ⟨0⟩ _
      hf rfl rfl,
    (hs.walkDefinition_refused (withLocal "float" "g" (some ⟨5⟩))).2 (by decide +kernel)⟩

end Declaring

end MiniC
