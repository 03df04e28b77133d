import MiniC.Proofs.Scope.Calls
import MiniC.Proofs.Scope.Overwriting

/-! # Handles do not matter

Analysis gives the same answer for a program whatever handles it comes with: no handles, those of
an analysis before, or any others. A program that is accepted ends up with the same handles, apart
from the parameters that stand in the place of expressions, which no walk binds. Analysis of its
own result changes nothing.
-/

namespace MiniC

open Relabelling (unbound)

theorem Expr.missing?_unbound (t : SymbolTable) (scope : ScopeId) (e : Expr) :
    (e.relabel unbound).missing? t scope = e.missing? t scope := by
  cases e <;> simp [missing?, relabel, relabelAll_eq_map]

theorem Expr.missing?_resolved (t : SymbolTable) (scope : ScopeId) (e : Expr) :
    (e.resolved t scope).missing? t scope = e.missing? t scope := by
  cases e <;> simp [missing?, resolved, length_resolvedAll]

mutual

theorem Expr.resolved_unbound {t : SymbolTable} {scope : ScopeId} (e : Expr)
    (h : ∀ x ∈ e.parts, x.missing? t scope = none) :
    (e.relabel unbound).resolved t scope = (e.resolved t scope).unbindParameters := by
  match e with
  | .identifier name span symbol =>
    have hv := resolveVariable?_ne_none (h (.identifier name span symbol) (by simp [parts]))
    simp [relabel, resolved, unbindParameters, orElse_of_ne_none hv]
  | .number value span => simp [relabel, resolved, unbindParameters]
  | .parameter p => simp [relabel, resolved, unbindParameters]
  | .binary op lhs rhs span =>
    have hl := resolved_unbound lhs fun x hx => h x (by simp [parts, hx])
    have hr := resolved_unbound rhs fun x hx => h x (by simp [parts, hx])
    simp [relabel, resolved, unbindParameters, hl, hr]
  | .call callee calleeSpan args span symbol =>
    have hf := resolveFunction?_ne_none
      (h (.call callee calleeSpan args span symbol) (by simp [parts]))
    have hargs := resolvedAll_unbound args fun x hx => h x (by simp [parts, hx])
    have hlength : (Expr.relabelAll unbound args).length = args.length := by
      simp [relabelAll_eq_map]
    rw [relabel, resolved, resolved, unbindParameters, hargs, hlength, orElse_of_ne_none hf,
      orElse_of_ne_none hf]
    rfl

theorem Expr.resolvedAll_unbound {t : SymbolTable} {scope : ScopeId} (es : List Expr)
    (h : ∀ x ∈ Expr.partsAll es, x.missing? t scope = none) :
    Expr.resolvedAll t scope (Expr.relabelAll unbound es)
      = Expr.unbindAllParameters (Expr.resolvedAll t scope es) := by
  match es with
  | [] => simp [relabelAll, resolvedAll, unbindAllParameters]
  | e :: es =>
    have he := resolved_unbound e fun x hx => h x (by simp [partsAll, hx])
    have hes := resolvedAll_unbound es fun x hx => h x (by simp [partsAll, hx])
    simp [relabelAll, resolvedAll, unbindAllParameters, he, hes]

end

mutual

theorem Expr.resolved_resolved (t : SymbolTable) (scope : ScopeId) (e : Expr) :
    (e.resolved t scope).resolved t scope = e.resolved t scope := by
  match e with
  | .identifier name span symbol =>
    cases h : t.resolveVariable? scope name <;> simp [resolved, h]
  | .number value span => simp [resolved]
  | .parameter p => simp [resolved]
  | .binary op lhs rhs span =>
    simp [resolved, resolved_resolved t scope lhs, resolved_resolved t scope rhs]
  | .call callee calleeSpan args span symbol =>
    cases h : t.resolveFunction? scope callee args.length <;>
      simp [resolved, length_resolvedAll, resolvedAll_resolvedAll t scope args, h]

theorem Expr.resolvedAll_resolvedAll (t : SymbolTable) (scope : ScopeId) (es : List Expr) :
    Expr.resolvedAll t scope (Expr.resolvedAll t scope es) = Expr.resolvedAll t scope es := by
  match es with
  | [] => simp [resolvedAll]
  | e :: es =>
    simp [resolvedAll, resolved_resolved t scope e, resolvedAll_resolvedAll t scope es]

end

mutual

theorem Expr.relabel_resolved (t : SymbolTable) (scope : ScopeId) (e : Expr) :
    (e.resolved t scope).relabel unbound = e.relabel unbound := by
  match e with
  | .identifier name span symbol => simp [resolved]
  | .number value span => simp [resolved]
  | .parameter p => simp [resolved]
  | .binary op lhs rhs span =>
    simp [resolved, relabel_resolved t scope lhs, relabel_resolved t scope rhs]
  | .call callee calleeSpan args span symbol =>
    rw [resolved, relabel, relabel, relabelAll_resolvedAll t scope args]
    rfl

theorem Expr.relabelAll_resolvedAll (t : SymbolTable) (scope : ScopeId) (es : List Expr) :
    Expr.relabelAll unbound (Expr.resolvedAll t scope es) = Expr.relabelAll unbound es := by
  match es with
  | [] => simp [resolvedAll]
  | e :: es =>
    simp [resolvedAll, relabelAll, relabel_resolved t scope e, relabelAll_resolvedAll t scope es]

end

namespace FunctionDefinition

theorem resolved_eq_mapExprs (t : SymbolTable) (d : FunctionDefinition) :
    d.resolved t = d.mapExprs (·.resolved t d.scope) := by
  have hstmt : ∀ stmt : Stmt,
      stmt.resolved t d.scope = stmt.mapExprs (·.resolved t d.scope) := by
    intro stmt
    cases stmt <;> rfl
  rw [resolved, mapExprs, FunctionBody.resolved, FunctionBody.mapExprs, funext hstmt]

theorem relabel_resolved (t : SymbolTable) (d : FunctionDefinition) :
    (d.resolved t).relabel unbound = d.relabel unbound := by
  rw [resolved_eq_mapExprs, relabel_unbound, emptied_mapExprs, mapExprs_mapExprs,
    d.relabel_unbound]
  simp only [Expr.relabel_resolved]

/-- Changes that keep what is missing in every part of an expression keep it in a definition. -/
theorem missing_mapExprs {t : SymbolTable} {f : Expr → Expr} {d : FunctionDefinition}
    (hparts : ∀ e, (f e).parts = e.parts.map f)
    (h : ∀ e, (f e).missing? t d.scope = e.missing? t d.scope) :
    (d.mapExprs f).missing t = d.missing t := by
  have hbody : (d.mapExprs f).body.parts = d.body.parts.map f :=
    d.body.parts_mapExprs hparts
  have hscope : (d.mapExprs f).scope = d.scope := rfl
  rw [missing, missing, hbody, hscope, List.filterMap_map]
  exact congrArg (_ ++ List.filterMap · d.body.parts) (funext h)

theorem missing_unbound (t : SymbolTable) (d : FunctionDefinition) :
    (d.mapExprs (·.relabel unbound)).missing t = d.missing t :=
  missing_mapExprs (Expr.parts_relabel unbound) (Expr.missing?_unbound t d.scope)

theorem missing_resolved (t : SymbolTable) (d : FunctionDefinition) :
    (d.resolved t).missing t = d.missing t := by
  rw [resolved_eq_mapExprs]
  exact missing_mapExprs (Expr.parts_resolved t d.scope) (Expr.missing?_resolved t d.scope)

theorem resolved_unbound {t : SymbolTable} {d : FunctionDefinition} (h : d.missing t = []) :
    (d.mapExprs (·.relabel unbound)).resolved t = (d.resolved t).mapExprs (·.unbindParameters) := by
  have hfound : ∀ e ∈ d.body.parts, e.missing? t d.scope = none :=
    List.filterMap_eq_nil_iff.mp (List.append_eq_nil_iff.mp h).2
  have hscope : (d.mapExprs (·.relabel unbound)).scope = d.scope := rfl
  rw [resolved_eq_mapExprs, resolved_eq_mapExprs, hscope, mapExprs_mapExprs, mapExprs_mapExprs]
  exact mapExprs_congr Expr.resolved_unbound hfound

theorem resolved_resolved (t : SymbolTable) (d : FunctionDefinition) :
    (d.resolved t).resolved t = d.resolved t := by
  have hscope : (d.mapExprs (·.resolved t d.scope)).scope = d.scope := rfl
  rw [resolved_eq_mapExprs, resolved_eq_mapExprs, hscope, mapExprs_mapExprs]
  simp only [Expr.resolved_resolved]

end FunctionDefinition

/-- A program loses all handles but those of its expressions. -/
def Program.emptied (p : Program) : Program where
  name := p.name
  unit :=
    { declarations := p.unit.declarations.map (·.relabel unbound)
      definitions := p.unit.definitions.map (·.emptied) }

theorem Program.relabel_unbound (p : Program) :
    p.relabel unbound = p.emptied.mapExprs (·.relabel unbound) := by
  simp [relabel, SourceUnit.relabel, emptied, mapExprs, withDefinitions,
    FunctionDefinition.relabel_unbound]

namespace Declaring

open Visitor

theorem walk_overwrites : Overwrites Clean Program.emptied visitor.walk where
  state := by
    intro p s
    have hdeclarations := bindDeclaration_overwrites.walkList bindDeclaration_backward
    have hdefinitions := declareDefinition_overwrites.walkList declareDefinition_backward
    simp only [walk_eq, Program.emptied]
    rw [hdeclarations.state, hdefinitions.state]
  answer := by
    intro p s h
    have hdeclarations := bindDeclaration_overwrites.walkList bindDeclaration_backward
    have hdefinitions := declareDefinition_overwrites.walkList declareDefinition_backward
    simp only [walk_eq, Program.emptied] at h ⊢
    rw [hdeclarations.state, hdefinitions.answer _ _ h,
      hdeclarations.answer _ _ (walkList_backward declareDefinition_backward _ _ h)]
  kept := by
    intro p s
    have hdeclarations := bindDeclaration_overwrites.walkList bindDeclaration_backward
    have hdefinitions := declareDefinition_overwrites.walkList declareDefinition_backward
    simp only [walk_eq, Program.emptied]
    rw [hdeclarations.kept, hdefinitions.kept]

theorem walk_mapExprs (f : Expr → Expr) (p : Program) (s : Declaring) :
    visitor.walk (p.mapExprs f) s = ((visitor.walk p s).1.mapExprs f, (visitor.walk p s).2) := by
  have hdefinitions := walkList_map (·.mapExprs f) id (declareDefinition_mapExprs f)
    p.unit.definitions (walkList bindDeclaration p.unit.declarations s).2
  simp only [id_eq] at hdefinitions
  simp only [walk_eq, Program.mapExprs, Program.withDefinitions]
  rw [hdefinitions]

theorem declareDefinition_resolved (t : SymbolTable) (d : FunctionDefinition) (s : Declaring)
    (h : (declareDefinition d s).2.Clean) :
    declareDefinition ((declareDefinition d s).1.resolved t) s
      = ((declareDefinition d s).1.resolved t, (declareDefinition d s).2) := by
  rw [FunctionDefinition.resolved_eq_mapExprs, declareDefinition_mapExprs,
    declareDefinition_overwrites.rerun h]

/-- The walk repeats its result also if the references in it were bound since. -/
theorem walk_resolved {p q : Program} {s s' : Declaring} (t : SymbolTable)
    (h : visitor.walk p s = (q, s')) (hs : s'.Clean) :
    visitor.walk (q.withDefinitions (q.unit.definitions.map (·.resolved t))) s
      = (q.withDefinitions (q.unit.definitions.map (·.resolved t)), s') := by
  rw [walk_eq] at h
  obtain ⟨rfl, rfl⟩ := Prod.mk.inj h
  have hdeclarations := (bindDeclaration_overwrites.walkList bindDeclaration_backward).rerun
    (walkList_backward declareDefinition_backward _ _ hs)
  have hdefinitions := walkList_rerun (declareDefinition_resolved t) declareDefinition_backward
    p.unit.definitions hs
  rw [walk_eq]
  simp only [Program.withDefinitions]
  rw [hdeclarations, hdefinitions]

end Declaring

namespace Program

open Declaring

variable {p q : Program} {types : TypeRegistry} {t : SymbolTable}

theorem declare_of_walk {s : Declaring} (h : visitor.walk p { table := { types } } = (q, s))
    (hs : s.Clean) : p.declare types = (q, .ok s.table) := by
  rw [declare, h, hs]
  rfl

theorem emptied_of_declare (h : p.declare types = (q, .ok t)) : q.emptied = p.emptied := by
  obtain ⟨s, hw, -, -⟩ := declare_eq_ok h
  have hkept := walk_overwrites.kept p { table := { types } }
  rwa [hw] at hkept

theorem declare_unbound (p : Program) (types : TypeRegistry) :
    ((p.relabel unbound).declare types).2 = (p.declare types).2 := by
  rw [relabel_unbound, declare, declare, walk_mapExprs, walk_overwrites.state]

theorem declare_unbound_ok (h : p.declare types = (q, .ok t)) :
    (p.relabel unbound).declare types = (q.mapExprs (·.relabel unbound), .ok t) := by
  obtain ⟨s, hw, hs, rfl⟩ := declare_eq_ok h
  have hempty : visitor.walk p.emptied { table := { types } } = (q, s) := by
    have hover := walk_overwrites
    rw [← hw]
    exact Prod.ext (hover.answer p _ (hw ▸ hs)) (hover.state p _)
  refine declare_of_walk ?_ hs
  rw [relabel_unbound, walk_mapExprs, hempty]

theorem declare_resolved (h : p.declare types = (q, .ok t)) :
    (q.withDefinitions (q.unit.definitions.map (·.resolved t))).declare types
      = (q.withDefinitions (q.unit.definitions.map (·.resolved t)), .ok t) := by
  obtain ⟨s, hw, hs, rfl⟩ := declare_eq_ok h
  exact declare_of_walk (walk_resolved s.table hw hs) hs

theorem resolve_unbound (p : Program) (t : SymbolTable) :
    ((p.mapExprs (·.relabel unbound)).resolve t).2 = (p.resolve t).2 ∧
      ((p.resolve t).2 = [] →
        ((p.mapExprs (·.relabel unbound)).resolve t).1 = (p.resolve t).1.unbindParameters) := by
  rw [resolve_eq, resolve_eq]
  simp only [mapExprs, withDefinitions, List.flatMap_map, FunctionDefinition.missing_unbound,
    true_and]
  intro h
  have hresolved : ∀ d ∈ p.unit.definitions, (d.mapExprs (·.relabel unbound)).resolved t
      = (d.resolved t).mapExprs (·.unbindParameters) := fun d hd =>
    FunctionDefinition.resolved_unbound (List.flatMap_eq_nil_iff.mp h d hd)
  simp only [unbindParameters, mapExprs, withDefinitions, List.map_map, Function.comp_def]
  rw [List.map_congr_left hresolved]

theorem resolve_resolved (p : Program) (t : SymbolTable) :
    (p.resolve t).1.resolve t = p.resolve t := by
  rw [resolve_eq, resolve_eq]
  simp only [withDefinitions, List.flatMap_map, List.map_map, Function.comp_def,
    FunctionDefinition.missing_resolved, FunctionDefinition.resolved_resolved]

theorem relabel_resolved (p : Program) (t : SymbolTable) :
    (p.withDefinitions (p.unit.definitions.map (·.resolved t))).relabel unbound
      = p.relabel unbound := by
  simp [relabel, SourceUnit.relabel, withDefinitions, FunctionDefinition.relabel_resolved]

theorem relabel_of_analyzeWith (h : p.analyzeWith types = (q, .ok t)) :
    q.relabel unbound = p.relabel unbound := by
  obtain ⟨r, hr, rfl, -⟩ := analyzeWith_eq_ok h
  rw [relabel_resolved, relabel_unbound, emptied_of_declare hr, p.relabel_unbound]

/-- Without its handles, a program is analyzed with the same result. -/
theorem analyzeWith_unbound (p : Program) (types : TypeRegistry) :
    ((p.relabel unbound).analyzeWith types).2 = (p.analyzeWith types).2 ∧
      ∀ q t, p.analyzeWith types = (q, .ok t) →
        ((p.relabel unbound).analyzeWith types).1 = q.unbindParameters := by
  have hanswer := p.declare_unbound types
  rcases hr : p.declare types with ⟨r, errors | t⟩
  · rw [hr] at hanswer
    have hdeclare : (p.relabel unbound).declare types
        = (((p.relabel unbound).declare types).1, .error errors) := Prod.ext rfl hanswer
    rw [analyzeWith_of_declare_error hdeclare, analyzeWith_of_declare_error hr]
    exact ⟨rfl, nofun⟩
  · obtain ⟨hmissing, hresolved⟩ := r.resolve_unbound t
    rw [analyzeWith_of_declare_ok (declare_unbound_ok hr), analyzeWith_of_declare_ok hr, hmissing]
    refine ⟨rfl, fun q t' h => ?_⟩
    obtain ⟨rfl, ht⟩ := Prod.mk.inj h
    split at ht
    next hnil => exact hresolved hnil
    · cases ht

theorem analyzeWith_again (h : p.analyzeWith types = (q, .ok t)) :
    q.analyzeWith types = (q, .ok t) := by
  obtain ⟨r, hr, hq, hmissing⟩ := analyzeWith_eq_ok h
  have hresolve : r.resolve t = (q, []) := by
    rw [resolve_eq, hq, List.flatMap_eq_nil_iff.mpr hmissing]
  have hagain : q.resolve t = (q, []) := by
    rw [← hresolve, ← r.resolve_resolved t, hresolve]
  have hdeclare := declare_resolved hr
  rw [← hq] at hdeclare
  rw [analyzeWith_of_declare_ok hdeclare, hagain]
  rfl

/-- Programs that differ in nothing but their handles are analyzed with one result: the same
table, or the same errors. Where they are accepted, all their nodes end up with the same handles,
apart from parameters in the place of expressions; and an accepted program is accepted again, with
an equal table, and stays as it is. -/
theorem analyzeWith_congr {p p' : Program} (types : TypeRegistry)
    (h : p.relabel unbound = p'.relabel unbound) :
    (p.analyzeWith types).2 = (p'.analyzeWith types).2 ∧
      (∀ q q' t, p.analyzeWith types = (q, .ok t) → p'.analyzeWith types = (q', .ok t) →
        q.unbindParameters = q'.unbindParameters) ∧
      ∀ q t, p.analyzeWith types = (q, .ok t) → q.analyzeWith types = (q, .ok t) := by
  obtain ⟨hanswer, hprogram⟩ := p.analyzeWith_unbound types
  obtain ⟨hanswer', hprogram'⟩ := p'.analyzeWith_unbound types
  rw [← h] at hanswer' hprogram'
  refine ⟨hanswer.symm.trans hanswer', fun q q' t hq hq' => ?_, fun q t => analyzeWith_again⟩
  rw [← hprogram q t hq, ← hprogram' q' t hq']

/-- Handles of other functions and variables, or of none at all, do not change the result. -/
theorem analyze_merging_congr :
    let fresh := merging none none none none none none none none none
    let stale := merging (some ⟨2⟩) none (some ⟨7⟩) (some ⟨1⟩) (some ⟨3⟩) none (some ⟨0⟩)
      (some ⟨9⟩) (some ⟨8⟩)
    ∃ q, fresh.analyzeWith .builtin = (q, .ok .merging) ∧
      (stale.analyzeWith .builtin).2 = .ok .merging ∧
      q.analyzeWith .builtin = (q, .ok .merging) := by
  intro fresh stale
  have h : fresh.relabel unbound = stale.relabel unbound := rfl
  obtain ⟨hanswer, -, hagain⟩ := analyzeWith_congr .builtin h
  exact ⟨_, analyze_merging, hanswer.symm.trans (congrArg Prod.snd analyze_merging),
    hagain _ _ analyze_merging⟩

end Program

end MiniC
