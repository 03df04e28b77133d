import MiniC.Proofs.Scope.Finding
import MiniC.Proofs.Scope.Functions

/-! # The verdict of declaring

A program can be declared just if it has no faults, and otherwise the errors are its faults.
-/

namespace MiniC

namespace Program

variable {p : Program} {types : TypeRegistry}

theorem declare_eq_error_iff_walk {errors : List SemanticError} :
    (p.declare types).2 = .error errors ↔
      errors = (Declaring.visitor.walk p { table := { types } }).2.errors.toList ∧ errors ≠ [] := by
  simp only [declare]
  split
  next he =>
    rw [Array.isEmpty_iff.mp he]
    simp
  next he =>
    constructor
    · intro h
      obtain rfl := Except.error.inj h
      exact ⟨rfl, by simpa using he⟩
    · rintro ⟨rfl, -⟩
      rfl

theorem declare_eq_error_iff (hsize : p.unit.size ≤ Handle.capacity) {errors : List SemanticError} :
    (p.declare types).2 = .error errors ↔ errors = p.unit.faults types ∧ errors ≠ [] := by
  rw [declare_eq_error_iff_walk, p.walk_errors types hsize]

theorem exists_declare_eq_ok_iff (hsize : p.unit.size ≤ Handle.capacity) :
    (∃ t, (p.declare types).2 = .ok t) ↔ p.unit.faults types = [] := by
  rcases hr : (p.declare types).2 with errors | t
  · obtain ⟨rfl, hne⟩ := (declare_eq_error_iff hsize).mp hr
    exact iff_of_false (by simp) hne
  · -- faults would have been errors
    refine iff_of_true ⟨t, rfl⟩ (Classical.byContradiction fun hne => ?_)
    cases hr.symm.trans ((declare_eq_error_iff hsize).mpr ⟨rfl, hne⟩)

/-- A program can be declared just if all its types are known and no two of its definitions have
one name. If only the latter fails, each definition whose name was defined before is an error,
which shows the first definition of the name. -/
theorem declare_verdict (p : Program) (types : TypeRegistry)
    (hsize : p.unit.size ≤ Handle.capacity) :
    ((∃ t, (p.declare types).2 = .ok t) ↔
      (∀ type ∈ p.unit.typeNames, type.Known types) ∧ (p.unit.definitions.map (·.name)).Nodup) ∧
    ∀ errors, (p.declare types).2 = .error errors →
      (∀ type ∈ p.unit.typeNames, type.Known types) →
        errors = redefinitions [] p.unit.definitions := by
  constructor
  · rw [exists_declare_eq_ok_iff hsize, SourceUnit.faults_eq_nil_iff]
  · intro errors herrors hknown
    obtain ⟨rfl, -⟩ := (declare_eq_error_iff hsize).mp herrors
    exact SourceUnit.faults_eq_redefinitions hknown

/-- The name of a function in some line. -/
def nameAt (line : Nat) : Span := ⟨⟨line, 5⟩, ⟨line, 6⟩⟩

/-- The declaration `int f();` before two definitions `int f(int a) {}` and `int f() {}`, each in
a line of its own. -/
def redefining : Program where
  name := "m"
  unit :=
    { declarations := [⟨{ Prototype.ofNames "f" [] with nameSpan := nameAt 1 }, .dummy, none⟩]
      definitions := [
        ⟨{ Prototype.ofNames "f" [("a", none)] with nameSpan := nameAt 2 }, ⟨[], [], .dummy⟩,
          .dummy, none⟩,
        ⟨{ Prototype.ofNames "f" [] with nameSpan := nameAt 3 }, ⟨[], [], .dummy⟩, .dummy,
          none⟩] }

/-- The error shows the place and the parameters of the first definition, not those of the
declaration that it was merged with. -/
theorem declare_redefining :
    (redefining.declare .builtin).2
      = .error [⟨.duplicateDefinition (nameAt 2) "int f(int a)", "f", nameAt 3⟩] := by
  obtain ⟨hok, herror⟩ := declare_verdict redefining .builtin (by decide)
  have hknown : ∀ type ∈ redefining.unit.typeNames, type.Known .builtin := by
    unfold TypeName.Known
    decide
  have hnodup : ¬ (redefining.unit.definitions.map (·.name)).Nodup := by decide
  rcases hr : (redefining.declare .builtin).2 with errors | t
  · have hfaults : redefinitions [] redefining.unit.definitions
        = [⟨.duplicateDefinition (nameAt 2) "int f(int a)", "f", nameAt 3⟩] := by decide
    rw [herror errors hr hknown, hfaults]
  · exact absurd (hok.mp ⟨t, hr⟩).2 hnodup

end Program

end MiniC
