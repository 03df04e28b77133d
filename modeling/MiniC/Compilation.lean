import MiniC.Grammar.Program
import MiniC.Path
import MiniC.Scope.Analysis

/-! # Compiling a source

A source is cut into tokens, parsed and analyzed, and the first of these steps that fails gives
the diagnostics: one for a parse error, and all that a walk of analysis reports.
-/

namespace MiniC

structure Compilation where
  program : Program
  symbols : SymbolTable

namespace Failure

def toDiagnostics (f : Failure) : List Diagnostic := f.error?.toList.map (·.toDiagnostic)

end Failure

namespace Compilation

def ofProgram (p : Program) : Except (List Diagnostic) Compilation :=
  match p.analyze with
  | (program, .ok symbols) => .ok { program, symbols }
  | (_, .error e) => .error e.toDiagnostics

def ofSource (source name : String) : Except (List Diagnostic) Compilation :=
  match Program.ofSource source name with
  | .ok p => ofProgram p
  | .error f => .error f.toDiagnostics

/-- The name of the program in a file: the stem of its path, or the path if it has none. -/
def nameOfPath (path : String) : String := (Path.stem? path).getD path

end Compilation

end MiniC
