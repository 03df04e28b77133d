import MiniC.Proofs.Scope.Bound
import MiniC.Proofs.Scope.Handles

/-! # What analysis leaves alone

Analysis writes handles and nothing else, whether it accepts a program or not. The declaring walk
writes those of items, parameters and variables; the references inside expressions are left to the
resolving walk. So a program that fails to declare keeps all its references as they were.
-/

namespace MiniC

open Relabelling (unbound)

namespace Program

def parts (p : Program) : List (List Expr) := p.unit.definitions.map (·.body.parts)

/-- Declaring changes no handles but those of items, parameters and variables. -/
theorem emptied_declare (p : Program) (types : TypeRegistry) :
    (p.declare types).1.emptied = p.emptied :=
  Declaring.walk_overwrites.kept p { table := { types } }

theorem relabel_declare (p : Program) (types : TypeRegistry) :
    (p.declare types).1.relabel unbound = p.relabel unbound := by
  rw [relabel_unbound, emptied_declare, p.relabel_unbound]

theorem parts_declare (p : Program) (types : TypeRegistry) :
    (p.declare types).1.parts = p.parts := by
  simp only [declare, parts, Declaring.walk_eq]
  exact Visitor.map_walkList _ Declaring.declareDefinition_parts _ _

theorem relabel_resolve (p : Program) (t : SymbolTable) :
    (p.resolve t).1.relabel unbound = p.relabel unbound := by
  rw [resolve_eq]
  exact p.relabel_resolved t

/-- After analysis, a program equals the program before once all handles are dropped from both,
whatever the answer. If declaring fails, all expressions are as they were, with the handles of
their references. -/
theorem analyzeWith_frame (p : Program) (types : TypeRegistry) :
    (p.analyzeWith types).1.relabel unbound = p.relabel unbound ∧
      ∀ errors, (p.analyzeWith types).2 = .error (.declaring errors) →
        (p.analyzeWith types).1.parts = p.parts := by
  have hrelabel := p.relabel_declare types
  have hparts := p.parts_declare types
  rcases hdeclare : p.declare types with ⟨q, errors | t⟩
  · rw [hdeclare] at hrelabel hparts
    rw [analyzeWith_of_declare_error hdeclare]
    exact ⟨hrelabel, fun _ _ => hparts⟩
  · rw [hdeclare] at hrelabel
    rw [analyzeWith_of_declare_ok hdeclare]
    refine ⟨(q.relabel_resolve t).trans hrelabel, fun errors h => ?_⟩
    -- behind a walk without errors, only resolving can fail
    split at h
    · cases h
    · cases h

/-- A call of a function whose type is not known, with the handles that some run before left. -/
def recalling (var : Option VarId) (func : Option FuncId) : Program where
  name := "m"
  unit :=
    { definitions := [{
        prototype := ⟨⟨"float", .dummy⟩, "f", .dummy,
          [⟨⟨"int", .dummy⟩, "a", .dummy, .dummy, none⟩], .dummy⟩
        body := ⟨[], [.ret (.call "f" .dummy [.identifier "a" .dummy var] .dummy func) .dummy],
          .dummy⟩
        span := .dummy }] }

theorem analyze_recalling_frame :
    ∃ q, (recalling (some ⟨4⟩) (some ⟨2⟩)).analyzeWith .builtin
        = (q, .error (.declaring [⟨.unknownType, "float", .dummy⟩])) ∧
      q.relabel unbound = recalling none none ∧
      q.parts = [[.call "f" .dummy [.identifier "a" .dummy (some ⟨4⟩)] .dummy (some ⟨2⟩),
        .identifier "a" .dummy (some ⟨4⟩)]] := by
  have h : ((recalling (some ⟨4⟩) (some ⟨2⟩)).analyzeWith .builtin).2
      = .error (.declaring [⟨.unknownType, "float", .dummy⟩]) := by
    simp only [analyzeWith, declare, Declaring.walk_eq, resolve_eq]
    with_unfolding_all rfl
  obtain ⟨hrelabel, hparts⟩ := analyzeWith_frame (recalling (some ⟨4⟩) (some ⟨2⟩)) .builtin
  exact ⟨_, Prod.ext rfl h, hrelabel, hparts _ h⟩

end Program

end MiniC
