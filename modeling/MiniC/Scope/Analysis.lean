import MiniC.Scope.Declare
import MiniC.Scope.Resolve

/-! # Analysis

Analysis declares what a program declares and then resolves its references. References are looked
up only if nothing was wrong with the declarations, so the errors of the two walks never mix.
-/

namespace MiniC

/-- The walk that failed, with all its errors. -/
inductive AnalysisError
  | declaring (errors : List SemanticError)
  | resolving (errors : List SemanticError)
  deriving DecidableEq, Repr

namespace AnalysisError

def errors : AnalysisError → List SemanticError
  | declaring errors => errors
  | resolving errors => errors

def message : AnalysisError → String
  | declaring errors => "scope building failed with " ++ toString errors.length ++ " error(s)"
  | resolving errors => "symbol resolution failed with " ++ toString errors.length ++ " error(s)"

def toDiagnostics (e : AnalysisError) : List Diagnostic := e.errors.map (·.toDiagnostic)

end AnalysisError

namespace Program

/-- Analyze a program against a registry of types. The program comes back with the handles that
were attached, also after a failure. -/
def analyzeWith (p : Program) (types : TypeRegistry) :
    Program × Except AnalysisError SymbolTable :=
  match p.declare types with
  | (p, .error errors) => (p, .error (.declaring errors))
  | (p, .ok table) =>
    match p.resolve table with
    | (p, []) => (p, .ok table)
    | (p, errors) => (p, .error (.resolving errors))

def analyze (p : Program) : Program × Except AnalysisError SymbolTable := p.analyzeWith .builtin

end Program

end MiniC
