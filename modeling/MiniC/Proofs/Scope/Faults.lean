import MiniC.Scope.Error
import MiniC.Proofs.Tree.Walk
import MiniC.Scope.Table
import MiniC.Tree.Describe

/-! # What is wrong with declarations

A type name that the registry does not know is a fault. A prototype with an unknown return type
has this fault alone, and nothing else of its item is looked at. A definition of a name that was
defined before has no other fault than this; the earlier definition is the first one of the name
whose return type is known. A unit has no fault just if all its types are known and no name is
defined twice, and if all types are known, its faults are its redefinitions.
-/

namespace MiniC

def TypeName.faults (types : TypeRegistry) (type : TypeName) : List SemanticError :=
  match types.get? type.name with
  | some _ => []
  | none => [⟨.unknownType, type.name, type.span⟩]

/-- The faults of a prototype and of the variables that its body declares. -/
def Prototype.faults (types : TypeRegistry) (p : Prototype) (vs : List VariableDeclaration) :
    List SemanticError :=
  match types.get? p.returnType.name with
  | none => p.returnType.faults types
  | some _ => p.params.flatMap (·.type.faults types) ++ vs.flatMap (·.type.faults types)

def FunctionDeclaration.faults (types : TypeRegistry) (d : FunctionDeclaration) :
    List SemanticError :=
  d.prototype.faults types []

/-- The error for a definition behind earlier ones of which one has its name. -/
def FunctionDefinition.redefinition? (earlier : List FunctionDefinition)
    (d : FunctionDefinition) : Option SemanticError :=
  (earlier.find? (·.name = d.name)).map fun e =>
    ⟨.duplicateDefinition e.prototype.nameSpan e.prototype.signature, d.name, d.prototype.nameSpan⟩

/-- A definition whose return type is not known is no definition for those behind it. -/
def FunctionDefinition.returns (types : TypeRegistry) (d : FunctionDefinition) : Bool :=
  (types.get? d.prototype.returnType.name).isSome

def FunctionDefinition.faults (types : TypeRegistry) (earlier : List FunctionDefinition)
    (d : FunctionDefinition) : List SemanticError :=
  match d.redefinition? (earlier.filter (·.returns types)) with
  | some e => [e]
  | none => d.prototype.faults types d.body.variables

def definitionFaults (types : TypeRegistry) (earlier : List FunctionDefinition) :
    List FunctionDefinition → List SemanticError
  | [] => []
  | d :: ds => d.faults types earlier ++ definitionFaults types (earlier ++ [d]) ds

def SourceUnit.faults (types : TypeRegistry) (u : SourceUnit) : List SemanticError :=
  u.declarations.flatMap (·.faults types) ++ definitionFaults types [] u.definitions

def TypeName.Known (types : TypeRegistry) (type : TypeName) : Prop :=
  types.get? type.name ≠ none

def Prototype.typeNames (p : Prototype) : List TypeName :=
  p.returnType :: p.params.map (·.type)

def FunctionDefinition.typeNames (d : FunctionDefinition) : List TypeName :=
  d.prototype.typeNames ++ d.body.variables.map (·.type)

def SourceUnit.typeNames (u : SourceUnit) : List TypeName :=
  u.declarations.flatMap (·.prototype.typeNames) ++ u.definitions.flatMap (·.typeNames)

/-- The errors for the definitions behind earlier ones whose names were defined before. -/
def redefinitions (earlier : List FunctionDefinition) :
    List FunctionDefinition → List SemanticError
  | [] => []
  | d :: ds => (d.redefinition? earlier).toList ++ redefinitions (earlier ++ [d]) ds

variable {types : TypeRegistry} {earlier ds : List FunctionDefinition}

theorem TypeName.faults_eq_nil_iff {type : TypeName} :
    type.faults types = [] ↔ type.Known types := by
  rw [TypeName.faults, TypeName.Known]
  cases types.get? type.name <;> simp

theorem Prototype.faults_eq_nil_iff {p : Prototype} {vs : List VariableDeclaration} :
    p.faults types vs = [] ↔
      ∀ type ∈ p.typeNames ++ vs.map (·.type), type.Known types := by
  have hreturn : types.get? p.returnType.name ≠ none ↔ p.returnType.Known types := Iff.rfl
  rw [Prototype.faults, Prototype.typeNames, List.cons_append, List.forall_mem_cons, ← hreturn]
  split
  next hnone => simp [TypeName.faults, hnone]
  next t hsome => simp [hsome, TypeName.faults_eq_nil_iff, or_imp, forall_and]

theorem FunctionDeclaration.faults_eq_nil_iff {d : FunctionDeclaration} :
    d.faults types = [] ↔ ∀ type ∈ d.prototype.typeNames, type.Known types := by
  rw [FunctionDeclaration.faults, Prototype.faults_eq_nil_iff, List.map_nil, List.append_nil]

theorem flatMap_faults_eq_nil_iff {ds : List FunctionDeclaration} :
    ds.flatMap (·.faults types) = [] ↔
      ∀ type ∈ ds.flatMap (·.prototype.typeNames), type.Known types := by
  rw [List.flatMap_eq_nil_iff, List.forall_mem_flatMap]
  exact forall₂_congr fun _ _ => FunctionDeclaration.faults_eq_nil_iff

theorem FunctionDefinition.redefinition?_eq_none_iff {d : FunctionDefinition} :
    d.redefinition? earlier = none ↔ ∀ e ∈ earlier, e.name ≠ d.name := by
  simp [FunctionDefinition.redefinition?]

theorem FunctionDefinition.returns_of_known {d : FunctionDefinition}
    (h : ∀ type ∈ d.typeNames, type.Known types) : d.returns types = true :=
  Option.isSome_iff_ne_none.mpr
    (h d.prototype.returnType (by simp [typeNames, Prototype.typeNames]))

theorem FunctionDefinition.known_of_faults_eq_nil {d : FunctionDefinition}
    (h : d.faults types earlier = []) : ∀ type ∈ d.typeNames, type.Known types := by
  rw [FunctionDefinition.faults] at h
  split at h
  next e _ => cases h
  next => exact Prototype.faults_eq_nil_iff.mp h

theorem known_of_definitionFaults_eq_nil (h : definitionFaults types earlier ds = []) :
    ∀ type ∈ ds.flatMap (·.typeNames), type.Known types := by
  induction ds generalizing earlier with
  | nil => simp
  | cons d ds ih =>
    obtain ⟨hd, hds⟩ := List.append_eq_nil_iff.mp h
    rw [List.flatMap_cons, List.forall_mem_append]
    exact ⟨FunctionDefinition.known_of_faults_eq_nil hd, ih hds⟩

/-- Among known types, a redefinition is the only fault that a definition can have. -/
theorem FunctionDefinition.faults_eq_redefinition? {d : FunctionDefinition}
    (hearlier : ∀ e ∈ earlier, e.returns types = true)
    (h : ∀ type ∈ d.typeNames, type.Known types) :
    d.faults types earlier = (d.redefinition? earlier).toList := by
  rw [FunctionDefinition.faults, List.filter_eq_self.mpr hearlier]
  cases d.redefinition? earlier with
  | some e => rfl
  | none => exact Prototype.faults_eq_nil_iff.mpr h

theorem definitionFaults_eq_redefinitions (hearlier : ∀ e ∈ earlier, e.returns types = true)
    (h : ∀ type ∈ ds.flatMap (·.typeNames), type.Known types) :
    definitionFaults types earlier ds = redefinitions earlier ds := by
  induction ds generalizing earlier with
  | nil => rfl
  | cons d ds ih =>
    rw [List.flatMap_cons, List.forall_mem_append] at h
    -- no definition is left out for those behind it, as all return types are known
    have hearlier' : ∀ e ∈ earlier ++ [d], e.returns types = true := by
      rw [List.forall_mem_append]
      exact ⟨hearlier, by simpa using FunctionDefinition.returns_of_known h.1⟩
    rw [definitionFaults, redefinitions, FunctionDefinition.faults_eq_redefinition? hearlier h.1,
      ih hearlier' h.2]

theorem redefinitions_eq_nil_iff : redefinitions earlier ds = [] ↔
    (ds.map (·.name)).Nodup ∧ ∀ d ∈ ds, ∀ e ∈ earlier, e.name ≠ d.name := by
  induction ds generalizing earlier with
  | nil => simp [redefinitions]
  | cons d ds ih =>
    rw [redefinitions, List.append_eq_nil_iff, Option.toList_eq_nil_iff,
      FunctionDefinition.redefinition?_eq_none_iff, ih, List.map_cons, List.nodup_cons,
      List.forall_mem_cons]
    simp only [List.mem_map, List.forall_mem_append, List.mem_singleton, forall_eq]
    constructor
    · rintro ⟨hd, hds, hrest⟩
      refine ⟨⟨?_, hds⟩, hd, fun e he => (hrest e he).1⟩
      rintro ⟨e, he, hname⟩
      exact (hrest e he).2 hname.symm
    · rintro ⟨⟨hmem, hds⟩, hd, hrest⟩
      exact ⟨hd, hds, fun e he => ⟨hrest e he, fun hname => hmem ⟨e, he, hname.symm⟩⟩⟩

theorem SourceUnit.faults_eq_redefinitions {u : SourceUnit}
    (h : ∀ type ∈ u.typeNames, type.Known types) :
    u.faults types = redefinitions [] u.definitions := by
  rw [SourceUnit.typeNames, List.forall_mem_append] at h
  rw [SourceUnit.faults, flatMap_faults_eq_nil_iff.mpr h.1, List.nil_append,
    definitionFaults_eq_redefinitions (by simp) h.2]

theorem SourceUnit.known_of_faults_eq_nil {u : SourceUnit} (h : u.faults types = []) :
    ∀ type ∈ u.typeNames, type.Known types := by
  obtain ⟨hdeclarations, hdefinitions⟩ := List.append_eq_nil_iff.mp h
  rw [SourceUnit.typeNames, List.forall_mem_append]
  exact ⟨flatMap_faults_eq_nil_iff.mp hdeclarations, known_of_definitionFaults_eq_nil hdefinitions⟩

theorem SourceUnit.faults_eq_nil_iff {u : SourceUnit} : u.faults types = [] ↔
    (∀ type ∈ u.typeNames, type.Known types) ∧ (u.definitions.map (·.name)).Nodup := by
  have hredefinitions : redefinitions [] u.definitions = [] ↔
      (u.definitions.map (·.name)).Nodup := by
    simp [redefinitions_eq_nil_iff]
  rw [← hredefinitions]
  constructor
  · intro h
    have hknown := known_of_faults_eq_nil h
    exact ⟨hknown, (faults_eq_redefinitions hknown).symm.trans h⟩
  · rintro ⟨hknown, hnil⟩
    exact (faults_eq_redefinitions hknown).trans hnil

end MiniC
