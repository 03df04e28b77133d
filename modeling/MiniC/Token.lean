import MiniC.Span
import MiniC.Text.Quoted

/-! # Tokens

A token is a kind with the span of its text. A stretch of source that forms no token is kept as
an `error` token with its cause, and a token list made from a source closes with `eof`.
`TokenKind.text` writes a kind as it stands in a source, `TokenKind.displayName` names it in
messages, and `Token.listing` writes a line of a token listing.
-/

namespace MiniC

inductive LexError
  | invalidCharacter
  | invalidInteger
  | unterminatedComment
  deriving DecidableEq, Repr

namespace LexError

def name : LexError → String
  | invalidCharacter => "InvalidCharacter"
  | invalidInteger => "InvalidInteger"
  | unterminatedComment => "UnterminatedComment"

def message : LexError → String
  | invalidCharacter => "invalid character"
  | invalidInteger => "integer literal out of range"
  | unterminatedComment => "unterminated block comment"

end LexError

inductive TokenKind
  | intWord
  | returnWord
  | ident (name : String)
  | number (value : Int32)
  | equals
  | plus
  | minus
  | star
  | slash
  | lparen
  | rparen
  | lbrace
  | rbrace
  | comma
  | semicolon
  | error (cause : LexError)
  | eof
  deriving DecidableEq, Repr

namespace TokenKind

def displayName : TokenKind → String
  | intWord => "`int`"
  | returnWord => "`return`"
  | ident _ => "identifier"
  | number _ => "number"
  | equals => "`=`"
  | plus => "`+`"
  | minus => "`-`"
  | star => "`*`"
  | slash => "`/`"
  | lparen => "`(`"
  | rparen => "`)`"
  | lbrace => "`\x7b`"
  | rbrace => "`\x7d`"
  | comma => "`,`"
  | semicolon => "`;`"
  | error _ => "invalid token"
  | eof => "end of file"

def text : TokenKind → String
  | intWord => "int"
  | returnWord => "return"
  | ident name => name
  | number value => toString value.toInt
  | equals => "="
  | plus => "+"
  | minus => "-"
  | star => "*"
  | slash => "/"
  | lparen => "("
  | rparen => ")"
  | lbrace => "\x7b"
  | rbrace => "\x7d"
  | comma => ","
  | semicolon => ";"
  | error cause => cause.message
  | eof => "<eof>"

def listing : TokenKind → String
  | intWord => "Int"
  | returnWord => "Return"
  | ident name => "Ident(" ++ Text.quote name ++ ")"
  | number value => "Number(" ++ toString value.toInt ++ ")"
  | equals => "Eq"
  | plus => "Plus"
  | minus => "Minus"
  | star => "Star"
  | slash => "Slash"
  | lparen => "LParen"
  | rparen => "RParen"
  | lbrace => "LBrace"
  | rbrace => "RBrace"
  | comma => "Comma"
  | semicolon => "Semicolon"
  | error cause => "Error(" ++ cause.name ++ ")"
  | eof => "Eof"

def isIdent : TokenKind → Bool
  | ident _ => true
  | _ => false

def canStartExpr : TokenKind → Bool
  | ident _ | number _ | lparen => true
  | _ => false

def lexError? : TokenKind → Option LexError
  | error cause => some cause
  | _ => none

end TokenKind

structure Token where
  kind : TokenKind
  span : Span
  deriving DecidableEq, Repr

namespace Token

/-- What is read from an empty token list. -/
def endMark : Token := ⟨.eof, .dummy⟩

def listing (t : Token) : String := t.kind.listing ++ " @ " ++ t.span.text

def firstError (tokens : List Token) : Option (LexError × Span) :=
  tokens.findSome? fun t => t.kind.lexError?.map fun cause => (cause, t.span)

end Token

end MiniC
