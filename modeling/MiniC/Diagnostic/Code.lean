/-! # Diagnostic codes

Every problem that a source can have carries a code. The first digit of a code tells the phase
that reports it, `Code.text` and `Code.ofText?` write and read it, and `Code.all` lists the codes
in the order of their numbers.
-/

namespace MiniC

inductive Phase
  | lexer
  | parser
  | semantic
  | internal
  deriving DecidableEq, Repr

inductive Code
  | invalidCharacter
  | invalidInteger
  | unterminatedComment
  | unexpectedToken
  | expectedExpression
  | expectedIdentifier
  | expectedType
  | duplicateDefinition
  | undeclaredVariable
  | undeclaredFunction
  | unknownType
  | internalError
  deriving DecidableEq, Repr

namespace Code

def all : List Code :=
  [invalidCharacter, invalidInteger, unterminatedComment, unexpectedToken, expectedExpression,
   expectedIdentifier, expectedType, duplicateDefinition, undeclaredVariable, undeclaredFunction,
   unknownType, internalError]

def text : Code → String
  | invalidCharacter => "E0001"
  | invalidInteger => "E0002"
  | unterminatedComment => "E0003"
  | unexpectedToken => "E1001"
  | expectedExpression => "E1002"
  | expectedIdentifier => "E1003"
  | expectedType => "E1004"
  | duplicateDefinition => "E2001"
  | undeclaredVariable => "E2002"
  | undeclaredFunction => "E2003"
  | unknownType => "E2004"
  | internalError => "E9001"

def title : Code → String
  | invalidCharacter => "invalid character"
  | invalidInteger => "invalid integer literal"
  | unterminatedComment => "unterminated block comment"
  | unexpectedToken => "unexpected token"
  | expectedExpression => "expected expression"
  | expectedIdentifier => "expected identifier"
  | expectedType => "expected type"
  | duplicateDefinition => "duplicate function definition"
  | undeclaredVariable => "undeclared variable"
  | undeclaredFunction => "undeclared function"
  | unknownType => "unknown type"
  | internalError => "internal compiler error"

def phase : Code → Phase
  | invalidCharacter | invalidInteger | unterminatedComment => .lexer
  | unexpectedToken | expectedExpression | expectedIdentifier | expectedType => .parser
  | duplicateDefinition | undeclaredVariable | undeclaredFunction | unknownType => .semantic
  | internalError => .internal

/-- Read a code, in upper or lower case. ASCII case is enough: no other character has the
capital form of a character that occurs in a code. -/
def ofText? (text : String) : Option Code :=
  all.find? fun code => code.text.toList = text.toList.map Char.toUpper

theorem mem_all (code : Code) : code ∈ all := by cases code <;> decide

theorem ofText?_text (code : Code) : ofText? code.text = some code := by
  cases code <;> decide

end Code

end MiniC
