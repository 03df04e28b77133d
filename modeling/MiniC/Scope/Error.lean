import MiniC.Diagnostic.Basic

/-! # Semantic errors

What analysis can find wrong with a program: the kind of error, the name it is about and where
that name stands. Errors are collected, so a program can have many.
-/

namespace MiniC

inductive SemanticErrorKind
  /-- A second body for a function, with the place and the signature of the first. -/
  | duplicateDefinition (previousSpan : Span) (previousSignature : String)
  | undeclaredVariable
  /-- No function of the name takes so many arguments. -/
  | undeclaredFunction (arity : Nat)
  | unknownType
  | internal (message : String)
  deriving DecidableEq, Repr

structure SemanticError where
  kind : SemanticErrorKind
  name : String
  span : Span
  deriving DecidableEq, Repr

namespace SemanticError

def code (e : SemanticError) : Code :=
  match e.kind with
  | .duplicateDefinition _ _ => .duplicateDefinition
  | .undeclaredVariable => .undeclaredVariable
  | .undeclaredFunction _ => .undeclaredFunction
  | .unknownType => .unknownType
  | .internal _ => .internalError

def message (e : SemanticError) : String :=
  match e.kind with
  | .duplicateDefinition _ _ => "function `" ++ e.name ++ "` is already defined"
  | .undeclaredVariable => "use of undeclared variable `" ++ e.name ++ "`"
  | .undeclaredFunction arity =>
    "no function `" ++ e.name ++ "` taking " ++ toString arity ++ " argument"
      ++ (if arity = 1 then "" else "s")
  | .unknownType => "unknown type `" ++ e.name ++ "`"
  | .internal message => message

def text (e : SemanticError) : String :=
  e.span.text ++ ": " ++ e.message ++ " [" ++ e.code.text ++ "]"

def toDiagnostic (e : SemanticError) : Diagnostic :=
  match e.kind with
  | .duplicateDefinition previousSpan previousSignature =>
    { code := e.code, message := e.message
      labels := [⟨true, e.span, "redefined here"⟩,
        ⟨false, previousSpan, "previous definition is here"⟩]
      notes := ["previous definition `" ++ previousSignature ++ "` at " ++ previousSpan.text] }
  | .undeclaredVariable =>
    { code := e.code, message := e.message
      labels := [⟨true, e.span, "not found in this scope"⟩]
      suggestions := ["declare it at the top of the function body: `int " ++ e.name ++ ";`"] }
  | .undeclaredFunction arity =>
    { code := e.code, message := e.message
      labels := [⟨true, e.span, "called with " ++ toString arity ++ " argument(s)"⟩]
      notes := ["calls resolve by name and argument count"] }
  | .unknownType =>
    { code := e.code, message := e.message
      labels := [⟨true, e.span, "not a known type"⟩]
      notes := ["the only builtin type is `int`"] }
  | .internal message => .internalError e.span message

end SemanticError

end MiniC
