import MiniC.Proofs.Scope.Declared
import MiniC.Proofs.Scope.Lookup
import MiniC.Proofs.Tree.Relabel

/-! # How items enter the table

A definition goes to the place of its name. It is refused if a definition stands there; otherwise
its function is added, or merged into the function of a declaration. Nothing of an item changes
but its handles, and an item that was entered without errors has the function which its prototype
describes.
-/

namespace MiniC

open Relabelling (unbound)

theorem Parameter.text_relabel (r : Relabelling) (p : Parameter) : (p.relabel r).text = p.text :=
  rfl

theorem Prototype.signature_relabel (r : Relabelling) (p : Prototype) :
    (p.relabel r).signature = p.signature := by
  simp [signature, relabel, TypeName.relabel, Function.comp_def, Parameter.text_relabel]

/-- A function has what the prototype of an item says. -/
structure FunctionSymbol.Represents (f : FunctionSymbol) (types : TypeRegistry) (p : Prototype)
    (item : ItemRef) (isDeclaration : Bool) : Prop where
  name : f.name = p.name
  returnType : types.get? p.returnType.name = some f.returnType
  params : f.params.map some = p.params.map (·.symbol)
  span : f.span = p.nameSpan
  signature : f.signature = p.signature
  item : f.item = item
  isDeclaration : f.isDeclaration = isDeclaration

theorem FunctionSymbol.Represents.arity_eq {f : FunctionSymbol} {types : TypeRegistry}
    {p : Prototype} {item : ItemRef} {isDeclaration : Bool}
    (h : f.Represents types p item isDeclaration) : f.arity = p.arity := by
  simpa [arity, Prototype.arity] using congrArg List.length h.params

theorem FunctionSymbol.Represents.withLocals {f : FunctionSymbol} {types : TypeRegistry}
    {p : Prototype} {item : ItemRef} {isDeclaration : Bool}
    (h : f.Represents types p item isDeclaration) (locals : LocalTable) :
    { f with locals }.Represents types p item isDeclaration :=
  ⟨h.name, h.returnType, h.params, h.span, h.signature, h.item, h.isDeclaration⟩

theorem Prototype.represents_functionSymbol {types : TypeRegistry} {p : Prototype}
    {params : List Parameter} {item : ItemRef} {isDeclaration : Bool} {returnType : BuiltinType}
    {ids : List VarId} (ht : types.get? p.returnType.name = some returnType)
    (hids : ids.map some = params.map (·.symbol))
    (hp : { p with params }.relabel unbound = p.relabel unbound) :
    (p.functionSymbol item isDeclaration returnType ids).Represents types { p with params } item
      isDeclaration := by
  have hsignature := congrArg (·.signature) hp
  simp only [signature_relabel] at hsignature
  exact ⟨rfl, ht, hids, rfl, hsignature.symm, rfl, rfl⟩

namespace Declaring

open Visitor

theorem bindParameter_relabel (owner : FuncId) (p : Parameter) (s : List VarId × Declaring) :
    (bindParameter owner p s).1.relabel unbound = p.relabel unbound := by
  unfold bindParameter
  split <;> rfl

theorem bindParameters_relabel (s : Declaring) (owner : FuncId) (p : Prototype) :
    (s.bindParameters owner p).1.relabel unbound = p.relabel unbound := by
  have hparams := map_walkList (·.relabel unbound) (bindParameter_relabel owner) p.params ([], s)
  simp only [bindParameters, Prototype.relabel]
  rw [hparams]

theorem addItem_relabel (s : Declaring) (p : Prototype) (item : ItemRef) (isDeclaration : Bool) :
    (s.addItem p item isDeclaration).1.2.relabel unbound = p.relabel unbound := by
  unfold addItem
  split
  · rfl
  · exact bindParameters_relabel ..

theorem mergeDefinition_relabel (s : Declaring) (id : FuncId) (d : FunctionDefinition)
    (item : ItemRef) :
    (s.mergeDefinition id d item).1.prototype.relabel unbound = d.prototype.relabel unbound := by
  unfold mergeDefinition
  split
  · rfl
  · exact bindParameters_relabel ..

variable {s : Declaring}

theorem addDefinition_represents {d : FunctionDefinition} {item : ItemRef}
    (h : (s.addDefinition d item).2.Clean)
    (hfit : (s.addDefinition d item).2.table.FunctionsFit)
    (hfind : s.table.findFunction? d.name = none) :
    s.table.HasRoom d.name ∧
      (s.addDefinition d item).1.symbol = some (s.table.place d.name) ∧
      ∃ f, (s.addDefinition d item).2.table.getFunction? (s.table.place d.name) = some f ∧
        f.Represents s.table.types (s.addDefinition d item).1.prototype item false := by
  obtain ⟨returnType, params, ids, t', hr, ht, hb, happends⟩ := addItem_clean h
  have hrelabel := addItem_relabel s d.prototype item false
  rw [hr] at hrelabel
  rw [addDefinition, hr] at hfit ⊢
  have hlt := happends.lt_capacity hfit
  rw [SymbolTable.place_of_none hfind]
  exact ⟨⟨Nat.le_of_lt hlt, fun _ => hlt⟩, rfl, _, (happends.sets hfit).1,
    d.prototype.represents_functionSymbol ht hb.handles hrelabel⟩

theorem mergeDefinition_represents {id : FuncId} {d : FunctionDefinition} {item : ItemRef}
    {g : FunctionSymbol} (h : (s.mergeDefinition id d item).2.Clean)
    (hfit : (s.mergeDefinition id d item).2.table.FunctionsFit)
    (hfind : s.table.findFunction? d.name = some id) (hg : s.table.getFunction? id = some g) :
    s.table.HasRoom d.name ∧
      (s.mergeDefinition id d item).1.symbol = some (s.table.place d.name) ∧
      ∃ f, (s.mergeDefinition id d item).2.table.getFunction? (s.table.place d.name) = some f ∧
        f.Represents s.table.types (s.mergeDefinition id d item).1.prototype item false := by
  obtain ⟨returnType, params, ids, t', hr, ht, hb, hfunctions⟩ := mergeDefinition_clean h
  have hrelabel := mergeDefinition_relabel s id d item
  rw [hr] at hrelabel hfit
  have hplace := SymbolTable.place_of_some hfind
  have hroom : s.table.HasRoom d.name := by
    refine .of_some ?_ hfind
    rwa [SymbolTable.FunctionsFit, hfunctions, Array.size_modify] at hfit
  have hname : g.name = d.name := hroom.name_of_place (hplace ▸ hg)
  have hf : (d.prototype.functionSymbol item false returnType ids).Represents s.table.types
      { d.prototype with params } item false :=
    d.prototype.represents_functionSymbol ht hb.handles hrelabel
  rw [hr, hplace]
  exact ⟨hroom, rfl, _, (SymbolTable.sets_of_functions_modify hfunctions hg).1,
    { hf with name := hname }⟩

theorem bindDefinition_represents {d : FunctionDefinition} (h : (bindDefinition d s).2.Clean)
    (hfit : (bindDefinition d s).2.table.FunctionsFit) :
    s.table.HasRoom d.name ∧
      (bindDefinition d s).1.symbol = some (s.table.place d.name) ∧
      ∃ f, (bindDefinition d s).2.table.getFunction? (s.table.place d.name) = some f ∧
        f.Represents s.table.types (bindDefinition d s).1.prototype (.definition s.definitions)
          false := by
  cases bindDefinition_step d s with
  | refused _ _ _ heq =>
    rw [heq] at h
    exact absurd h (not_clean_report _ _ _ _)
  | added hfind heq =>
    rw [heq] at h hfit ⊢
    exact addDefinition_represents h hfit hfind
  | merged hfind hf _ heq =>
    rw [heq] at h hfit ⊢
    exact mergeDefinition_represents h hfit hfind hf

/-- A definition that was entered as the function `f`, at the place of its name, where nothing was
defined before. -/
structure Enters (d : FunctionDefinition) (s : Declaring) (r : FunctionDefinition × Declaring)
    (f : FunctionSymbol) : Prop where
  name : r.1.name = d.name
  room : s.table.HasRoom d.name
  symbol : r.1.symbol = some (s.table.place d.name)
  represents : f.Represents s.table.types r.1.prototype (.definition s.definitions) false
  sets : s.table.Sets r.2.table (s.table.place d.name) f
  undefined : ∀ g, s.table.getFunction? (s.table.place d.name) = some g → g.isDeclaration = true
  enclosing : s.table.Flat → f.enclosing = .global
  declarations : r.2.declarations = s.declarations
  definitions : r.2.definitions = s.definitions + 1

/-- The walk over a whole definition enters it: its body only adds locals to the function. -/
theorem declareDefinition_enters {d : FunctionDefinition} (h : (declareDefinition d s).2.Clean)
    (hfit : (declareDefinition d s).2.table.FunctionsFit) :
    ∃ f, Enters d s (declareDefinition d s) f := by
  have hfit' := bindDefinition_fits h hfit
  unfold declareDefinition at h ⊢
  have hbind := bindBody_backward _ _ h
  obtain ⟨id, f, params, hd⟩ := bindDefinition_defines hbind hfit'
  obtain ⟨hroom, hsymbol, f', hf', hrep⟩ := bindDefinition_represents hbind hfit'
  have hscope : (bindDefinition d s).2.scope = .function id := by rw [hd.eq]
  have hid : (bindDefinition d s).1.symbol = some id := by rw [hd.eq]
  obtain rfl : id = s.table.place d.name := Option.some.inj (hid.symm.trans hsymbol)
  obtain rfl : f' = f := Option.some.inj (hf'.symm.trans hd.sets.1)
  have hb := bindBody_declares hscope hd.sets.1 h
  have hname : (bindDefinition d s).1.name = d.name := by
    rw [hd.eq]
    rfl
  have hcounts : (bindBody (bindDefinition d s).1.body (bindDefinition d s).2).2.declarations
        = s.declarations ∧
      (bindBody (bindDefinition d s).1.body (bindDefinition d s).2).2.definitions
        = s.definitions + 1 := by
    rw [hb.eq, hd.eq]
    exact ⟨rfl, rfl⟩
  exact ⟨_, hname, hroom, hsymbol, hrep.withLocals _, hd.sets.trans hb.sets, hd.undefined,
    fun hflat => (hd.flat hflat).1, hcounts.1, hcounts.2⟩

/-- A declaration that was entered as the function `f`, behind all functions. -/
structure Adds (d : FunctionDeclaration) (s : Declaring) (r : FunctionDeclaration × Declaring)
    (f : FunctionSymbol) : Prop where
  symbol : r.1.symbol = some (.ofIndex s.table.functions.size)
  lt_capacity : s.table.functions.size < Handle.capacity
  represents : f.Represents s.table.types r.1.prototype (.declaration s.declarations) true
  sets : s.table.Sets r.2.table (.ofIndex s.table.functions.size) f
  enclosing : f.enclosing = .global
  locals : f.locals = .empty
  declarations : r.2.declarations = s.declarations + 1
  definitions : r.2.definitions = s.definitions

theorem bindDeclaration_adds {d : FunctionDeclaration} (h : (bindDeclaration d s).2.Clean)
    (hfit : (bindDeclaration d s).2.table.FunctionsFit) :
    ∃ f, Adds d s (bindDeclaration d s) f := by
  obtain ⟨returnType, params, ids, t', hr, ht, hb, happends⟩ := bindDeclaration_clean h
  have hrelabel : (bindDeclaration d s).1.prototype.relabel unbound
      = d.prototype.relabel unbound :=
    addItem_relabel { s with declarations := s.declarations + 1 } d.prototype _ true
  rw [hr] at hrelabel hfit ⊢
  exact ⟨_, rfl, happends.lt_capacity hfit,
    d.prototype.represents_functionSymbol ht hb.handles hrelabel, happends.sets hfit, rfl, rfl, rfl,
    rfl⟩

end Declaring

end MiniC
