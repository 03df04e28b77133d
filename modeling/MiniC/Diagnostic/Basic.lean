import MiniC.Span
import MiniC.Diagnostic.Code

/-! # Diagnostics

A diagnostic has a code, a severity and a message, labels that point at places in the source,
notes, and suggestions how to mend it. Its place is the span of its first primary label.
`Diagnostic.text` writes the whole diagnostic as one block of lines.
-/

namespace MiniC

inductive Severity
  | error
  | warning
  | note
  deriving DecidableEq, Repr

def Severity.text : Severity → String
  | error => "error"
  | warning => "warning"
  | note => "note"

structure Label where
  isPrimary : Bool
  span : Span
  message : String
  deriving DecidableEq, Repr

def Label.marker (l : Label) : String := if l.isPrimary then "-->" else "   "

structure Diagnostic where
  code : Code
  severity : Severity := .error
  message : String := ""
  labels : List Label := []
  notes : List String := []
  suggestions : List String := []
  deriving DecidableEq, Repr

namespace Diagnostic

def addLabel (d : Diagnostic) (span : Span) (message : String) : Diagnostic :=
  { d with labels := d.labels ++ [⟨true, span, message⟩] }

def addSecondary (d : Diagnostic) (span : Span) (message : String) : Diagnostic :=
  { d with labels := d.labels ++ [⟨false, span, message⟩] }

def addNote (d : Diagnostic) (note : String) : Diagnostic := { d with notes := d.notes ++ [note] }

def addSuggestion (d : Diagnostic) (suggestion : String) : Diagnostic :=
  { d with suggestions := d.suggestions ++ [suggestion] }

def primarySpan? (d : Diagnostic) : Option Span := (d.labels.find? (·.isPrimary)).map (·.span)

def isError (d : Diagnostic) : Bool := d.severity = .error

def text (d : Diagnostic) : String :=
  d.severity.text ++ " [" ++ d.code.text ++ "]: " ++ d.message
    ++ String.join (d.labels.map fun l =>
      "\n  " ++ l.marker ++ " " ++ l.span.text ++ ": " ++ l.message)
    ++ String.join (d.notes.map ("\n  = note: " ++ ·))
    ++ String.join (d.suggestions.map ("\n  = help: " ++ ·))

def unexpectedToken (span : Span) (expected found : String) : Diagnostic where
  code := .unexpectedToken
  message := "unexpected token: expected " ++ expected ++ ", found `" ++ found ++ "`"
  labels := [⟨true, span, "expected " ++ expected⟩]

def expectedExpression (span : Span) (found : String) : Diagnostic where
  code := .expectedExpression
  message := "expected expression, found `" ++ found ++ "`"
  labels := [⟨true, span, "expected expression here"⟩]

def internalError (span : Span) (message : String) : Diagnostic where
  code := .internalError
  message := "internal compiler error: " ++ message
  labels := [⟨true, span, "while analyzing this"⟩]
  notes := ["this is a bug in the compiler, please report it"]

end Diagnostic

end MiniC
