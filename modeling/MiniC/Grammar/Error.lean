import MiniC.Diagnostic.Basic
import MiniC.Token

/-! # Parse errors

Parsing stops at the first error, which names what was expected and what was found. A token that
the lexer could not form is reported for what it is, whatever was expected in its place.
-/

namespace MiniC

structure ParseError where
  code : Code
  message : String
  span : Span
  context : Option String := none
  help : List String := []
  deriving DecidableEq, Repr

namespace ParseError

def withContext (e : ParseError) (context : String) : ParseError := { e with context := context }

def addHelp (e : ParseError) (help : String) : ParseError := { e with help := e.help ++ [help] }

def ofLexError (cause : LexError) (span : Span) : ParseError where
  code := match cause with
    | .invalidCharacter => .invalidCharacter
    | .invalidInteger => .invalidInteger
    | .unterminatedComment => .unterminatedComment
  message := cause.message
  span := span
  help := match cause with
    | .invalidCharacter => []
    | .invalidInteger => ["integer literals must fit in a 32-bit signed integer"]
    | .unterminatedComment => ["close the comment with `*/`"]

def unexpected (code : Code) (expected : String) (found : TokenKind) (span : Span) : ParseError :=
  match found.lexError? with
  | some cause => ofLexError cause span
  | none =>
    { code, message := "expected " ++ expected ++ ", found " ++ found.displayName, span
      context := "expected " ++ expected }

def text (e : ParseError) : String :=
  e.span.text ++ ": " ++ e.message ++ " [" ++ e.code.text ++ "]"

def toDiagnostic (e : ParseError) : Diagnostic where
  code := e.code
  message := e.message
  labels := [⟨true, e.span, e.context.getD "here"⟩]
  suggestions := e.help

end ParseError

/-- Why a token list gives no program. -/
inductive Failure
  | refused (error : ParseError)
  /-- The list ends where the grammar would read its last token again and again. -/
  | endless
  deriving DecidableEq, Repr

namespace Failure

/-- A failure seen through its error; an endless list has none. -/
def error? : Failure → Option ParseError
  | refused e => some e
  | endless => none

def addHelp (help : String) : Failure → Failure
  | refused e => refused (e.addHelp help)
  | endless => endless

end Failure

end MiniC
