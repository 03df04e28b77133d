import MiniC.Proofs.Scope.Declaring

/-! # What is declared

A run of the declaring walk without errors fills all slots of the unit in the order of the walk,
and binds every item to a function of the table. The function of a definition has the parameters
of this definition, and of its variables the last one of each name. All items before only add to
the table what the items behind them keep.
-/

namespace MiniC

/-- The function of a definition has what the definition says. -/
structure SymbolTable.Knows (t : SymbolTable) (d : FunctionDefinition) (id : FuncId)
    (f : FunctionSymbol) : Prop where
  symbol : d.symbol = some id
  function : t.getFunction? id = some f
  isDeclaration : f.isDeclaration = false
  enclosing : f.enclosing = .global
  params : f.params.map some = d.prototype.params.map (·.symbol)
  locals : f.locals = d.body.variables.foldl Declaring.declareLocal .empty

def SymbolTable.Defined (t : SymbolTable) (d : FunctionDefinition) : Prop :=
  ∃ id f, t.Knows d id f

/-- A definition has a function, which is its own in a table that fits its handles. -/
structure SymbolTable.Registers (t : SymbolTable) (d : FunctionDefinition) : Prop where
  function : t.HasFunction d.symbol
  defined : t.FunctionsFit → t.Defined d

theorem SymbolTable.Keeps.defined_of {t t' : SymbolTable} {d : FunctionDefinition}
    (h : t.Keeps t') (hd : t.Defined d) : t'.Defined d := by
  obtain ⟨id, f, hk⟩ := hd
  exact ⟨id, f, { hk with function := h.defined id f hk.function hk.isDeclaration }⟩

theorem SymbolTable.Follows.registers {t t' : SymbolTable} {d : FunctionDefinition}
    (h : t.Follows t') (hd : t.Registers d) : t'.Registers d :=
  ⟨h.hasFunction hd.function, fun hfit => (h.keeps hfit).defined_of (hd.defined (h.fits hfit))⟩

namespace Declaring

open Visitor

variable {s s' s'' : Declaring} {slots slots' : List Slot}

/-- The walk went on without errors, and filled the slots. -/
structure Grows (s s' : Declaring) (slots : List Slot) : Prop where
  clean : s.Clean
  fills : s.table.Fills s'.table slots
  follows : s.table.Follows s'.table

theorem Grows.append (h : Grows s s' slots) (h' : Grows s' s'' slots') :
    Grows s s'' (slots ++ slots') :=
  ⟨h.clean, h.fills.append h'.fills, h.follows.trans h'.follows⟩

/-- What holds for each item, and is kept by those behind it, holds for all items of a list. -/
theorem walkList_grows {α : Type} {walk : α → Declaring → α × Declaring} (slots : α → List Slot)
    (Q : SymbolTable → α → Prop) (keeps : ∀ {t t' a}, t.Follows t' → Q t a → Q t' a)
    (backward : ∀ a s, (walk a s).2.Clean → s.Clean)
    (step : ∀ a s, (walk a s).2.Clean → (s.table.FunctionsFit → s.table.Flat) →
      Grows s (walk a s).2 (slots (walk a s).1) ∧ Q (walk a s).2.table (walk a s).1)
    (as : List α) (h : (walkList walk as s).2.Clean)
    (hflat : s.table.FunctionsFit → s.table.Flat) :
    Grows s (walkList walk as s).2 ((walkList walk as s).1.flatMap slots) ∧
      ∀ a ∈ (walkList walk as s).1, Q (walkList walk as s).2.table a := by
  induction as generalizing s with
  | nil => exact ⟨⟨h, .nil _, .refl _⟩, by simp⟩
  | cons a as ih =>
    rw [walkList_cons] at h ⊢
    obtain ⟨hgrows, hq⟩ := step a s (walkList_backward backward as _ h) hflat
    obtain ⟨hgrows', hq'⟩ := ih h fun hfit =>
      hgrows.follows.flat hfit (hflat (hgrows.follows.fits hfit))
    exact ⟨hgrows.append hgrows', List.forall_mem_cons.mpr ⟨keeps hgrows'.follows hq, hq'⟩⟩

theorem bindDeclaration_backward (d : FunctionDeclaration) (s : Declaring)
    (h : (bindDeclaration d s).2.Clean) : s.Clean := by
  obtain ⟨_, _, _, _, _, _, hb, _⟩ := bindDeclaration_clean h
  exact hb.clean

theorem bindDeclaration_follows {d : FunctionDeclaration} (h : (bindDeclaration d s).2.Clean) :
    s.table.Follows (bindDeclaration d s).2.table := by
  obtain ⟨returnType, params, ids, t', hr, -, -, happends⟩ := bindDeclaration_clean h
  rw [hr]
  refine ⟨happends.size ▸ Nat.le_succ _, fun hfit => (happends.sets hfit).keeps fun g hg => ?_,
    fun hfit ht => (happends.sets hfit).flat ht rfl fun _ => rfl⟩
  simp [SymbolTable.getFunction?_ofIndex (happends.lt_capacity hfit)] at hg

theorem bindDeclaration_grows (d : FunctionDeclaration) (s : Declaring)
    (h : (bindDeclaration d s).2.Clean) :
    Grows s (bindDeclaration d s).2 (bindDeclaration d s).1.slots ∧
      (bindDeclaration d s).2.table.HasFunction (bindDeclaration d s).1.symbol := by
  have hfollows := bindDeclaration_follows h
  obtain ⟨returnType, params, ids, t', hr, -, hb, happends⟩ := bindDeclaration_clean h
  obtain ⟨g, hg⟩ := happends.exists_function
  rw [hr] at hfollows ⊢
  exact ⟨⟨hb.clean, hb.fills, hfollows⟩, _, g, rfl, hg⟩

theorem bindBody_backward (b : FunctionBody) (s : Declaring) (h : (bindBody b s).2.Clean) :
    s.Clean :=
  walkList_backward bindVariable_backward b.locals s
    (walkList_backward bindStmt_backward b.statements _ h)

theorem declareDefinition_backward (d : FunctionDefinition) (s : Declaring)
    (h : (declareDefinition d s).2.Clean) : s.Clean := by
  obtain ⟨id, params, hd⟩ := bindDefinition_binds (bindBody_backward _ _ h)
  exact hd.clean

theorem bindDefinition_fits {d : FunctionDefinition} (h : (declareDefinition d s).2.Clean)
    (hfit : (declareDefinition d s).2.table.FunctionsFit) :
    (bindDefinition d s).2.table.FunctionsFit := by
  unfold declareDefinition at h hfit
  obtain ⟨id, params, hd⟩ := bindDefinition_binds (bindBody_backward _ _ h)
  obtain ⟨f, hf⟩ := hd.function
  have hb := bindBody_declares (by rw [hd.eq]) hf h
  exact Nat.le_trans (Nat.le_of_eq hb.size.symm) hfit

theorem declareDefinition_sets {d : FunctionDefinition} (h : (declareDefinition d s).2.Clean)
    (hfit : (declareDefinition d s).2.table.FunctionsFit) :
    ∃ id f, s.table.FunctionsFit ∧ s.table.Sets (declareDefinition d s).2.table id f ∧
      (∀ g, s.table.getFunction? id = some g → g.isDeclaration = true) ∧
      (s.table.Flat → (declareDefinition d s).2.table.Knows (declareDefinition d s).1 id f) := by
  have hfit' := bindDefinition_fits h hfit
  unfold declareDefinition at h ⊢
  obtain ⟨id, f, params, hd⟩ := bindDefinition_defines (bindBody_backward _ _ h) hfit'
  have hb := bindBody_declares (by rw [hd.eq]) hd.sets.1 h
  have hsets := hd.sets.trans hb.sets
  refine ⟨id, _, hd.fits, hsets, hd.undefined, fun ht => ?_⟩
  obtain ⟨he, hl⟩ := hd.flat ht
  refine ⟨by rw [hd.eq], hsets.1, hd.isDeclaration, he, ?_, by rw [hl]⟩
  rw [hd.eq]
  exact hd.handles

theorem declareDefinition_follows {d : FunctionDefinition} (h : (declareDefinition d s).2.Clean)
    (hle : s.table.functions.size ≤ (declareDefinition d s).2.table.functions.size) :
    s.table.Follows (declareDefinition d s).2.table := by
  refine ⟨hle, fun hfit => ?_, fun hfit ht => ?_⟩
  · obtain ⟨id, f, -, hsets, hundefined, -⟩ := declareDefinition_sets h hfit
    exact hsets.keeps hundefined
  · obtain ⟨id, f, -, hsets, -, hknows⟩ := declareDefinition_sets h hfit
    refine hsets.flat ht (hknows ht).enclosing fun hf => ?_
    cases (hknows ht).isDeclaration.symm.trans hf

theorem declareDefinition_grows (d : FunctionDefinition) (s : Declaring)
    (h : (declareDefinition d s).2.Clean) (hflat : s.table.FunctionsFit → s.table.Flat) :
    Grows s (declareDefinition d s).2 (declareDefinition d s).1.slots ∧
      (declareDefinition d s).2.table.Registers (declareDefinition d s).1 := by
  have hdefined : (declareDefinition d s).2.table.FunctionsFit →
      (declareDefinition d s).2.table.Defined (declareDefinition d s).1 := by
    intro hfit
    obtain ⟨id, f, hfit', -, -, hknows⟩ := declareDefinition_sets h hfit
    exact ⟨id, f, hknows (hflat hfit')⟩
  have hfollows := declareDefinition_follows (s := s) h
  unfold declareDefinition at h hdefined hfollows ⊢
  obtain ⟨id, params, hd⟩ := bindDefinition_binds (bindBody_backward _ _ h)
  obtain ⟨f, hf⟩ := hd.function
  have hsymbol : (bindDefinition d s).1.symbol = some id := by rw [hd.eq]
  have hparams : (bindDefinition d s).1.prototype.params = params := by rw [hd.eq]
  have hb := bindBody_declares (by rw [hd.eq]) hf h
  refine ⟨⟨hd.clean, ?_, hfollows (Nat.le_trans hd.le (Nat.le_of_eq hb.size.symm))⟩,
    ⟨id, _, hsymbol, hb.sets.1⟩, hdefined⟩
  simp only [FunctionDefinition.slots, hsymbol, hparams]
  exact hd.fills.append hb.fills

end Declaring

open Declaring Visitor

theorem Program.declare_eq_ok {p q : Program} {types : TypeRegistry} {t : SymbolTable}
    (h : p.declare types = (q, .ok t)) :
    ∃ s, Declaring.visitor.walk p { table := { types } } = (q, s) ∧ s.Clean ∧ s.table = t := by
  unfold Program.declare at h
  obtain ⟨rfl, ht⟩ := Prod.mk.inj h
  refine ⟨_, rfl, ?_⟩
  split at ht
  next he => exact ⟨Array.isEmpty_iff.mp he, Except.ok.inj ht⟩
  · cases ht

/-- After a walk without errors, all slots of the program are filled, and all items are known. -/
theorem Program.declare_ok {p q : Program} {types : TypeRegistry} {t : SymbolTable}
    (h : p.declare types = (q, .ok t)) :
    ({ types } : SymbolTable).Fills t q.unit.slots ∧
      (∀ d ∈ q.unit.declarations, t.HasFunction d.symbol) ∧
      ∀ d ∈ q.unit.definitions, t.Registers d := by
  obtain ⟨s, hw, hs, rfl⟩ := Program.declare_eq_ok h
  rw [walk_eq] at hw
  obtain ⟨rfl, rfl⟩ := Prod.mk.inj hw
  have hflat : ({ types } : SymbolTable).Flat := by
    intro id f hf
    simp [SymbolTable.getFunction?] at hf
  have hds := walkList_grows (·.slots) (fun t d => t.HasFunction d.symbol)
    (fun {_ _ d} h (hd : SymbolTable.HasFunction _ d.symbol) => h.hasFunction hd)
    bindDeclaration_backward (fun d s h _ => bindDeclaration_grows d s h) p.unit.declarations
    (walkList_backward declareDefinition_backward _ _ hs) fun _ => hflat
  have hfs := walkList_grows (·.slots) SymbolTable.Registers SymbolTable.Follows.registers
    declareDefinition_backward declareDefinition_grows p.unit.definitions hs
    fun hfit => hds.1.follows.flat hfit hflat
  refine ⟨hds.1.fills.append hfs.1.fills, fun d hd => ?_, hfs.2⟩
  exact hfs.1.follows.hasFunction (hds.2 d hd)

end MiniC
