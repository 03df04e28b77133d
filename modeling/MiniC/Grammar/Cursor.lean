import MiniC.Grammar.Error

/-! # The cursor

A cursor stands at a token of a list and sees one more token ahead. It never moves past `eof`. In
a list without `eof` it can move past the end, and there it sees the last token again and again,
with `eof` ahead of it.
-/

namespace MiniC

structure Cursor where
  tokens : Array Token
  position : Nat := 0
  deriving DecidableEq, Repr

namespace Cursor

def ofTokens (tokens : List Token) : Cursor := { tokens := tokens.toArray }

def current (c : Cursor) : Token :=
  match c.tokens[c.position]? with
  | some token => token
  | none => c.tokens.back?.getD .endMark

def kind (c : Cursor) : TokenKind := c.current.kind

def span (c : Cursor) : Span := c.current.span

def nextKind (c : Cursor) : TokenKind := (c.tokens[c.position + 1]?.map (·.kind)).getD .eof

/-- The span of the token before the current one, as far as the list has both. -/
def previousSpan (c : Cursor) : Span :=
  match c.position with
  | 0 => .dummy
  | before + 1 => (c.tokens[before]?.map (·.span)).getD .dummy

def rest (c : Cursor) : List Token := c.tokens.toList.drop c.position

def remaining (c : Cursor) : Nat := c.tokens.size - c.position

def atEnd (c : Cursor) : Bool := c.kind = .eof

def check (c : Cursor) (kind : TokenKind) : Bool := c.kind = kind

def checkIdent (c : Cursor) : Bool := c.kind.isIdent

def advance (c : Cursor) : Cursor := if c.atEnd then c else { c with position := c.position + 1 }

/-- The error for the current token where something else is expected. -/
def unexpected (c : Cursor) (code : Code) (expected : String) : ParseError :=
  .unexpected code expected c.kind c.span

/-- The error where a name is expected; a reserved word is pointed out. -/
def unexpectedName (c : Cursor) : ParseError :=
  let error := c.unexpected .expectedIdentifier "identifier"
  match c.kind with
  | .intWord | .returnWord =>
    error.addHelp ("`" ++ c.kind.text ++ "` is a reserved word and cannot be used as a name")
  | _ => error

/-- Read a token of the given kind. The cursor behind is answered whether it is there or not. -/
def accept (c : Cursor) (kind : TokenKind) : Except Failure Token × Cursor :=
  if c.check kind then (.ok c.current, c.advance)
  else (.error (.refused (c.unexpected .unexpectedToken kind.displayName)), c)

def acceptIdent (c : Cursor) : Except Failure (String × Span) × Cursor :=
  match c.kind with
  | .ident name => (.ok (name, c.span), c.advance)
  | _ => (.error (.refused c.unexpectedName), c)

/-- Go on with what was read, or end with the failure. -/
def settle {α : Type} (r : Except Failure α × Cursor) : Except Failure (α × Cursor) :=
  r.1.map (·, r.2)

def expect (c : Cursor) (kind : TokenKind) : Except Failure (Token × Cursor) :=
  settle (c.accept kind)

def expectIdent (c : Cursor) : Except Failure ((String × Span) × Cursor) := settle c.acceptIdent

theorem expect_eq (c : Cursor) (kind : TokenKind) :
    c.expect kind = if c.check kind then .ok (c.current, c.advance)
      else .error (.refused (c.unexpected .unexpectedToken kind.displayName)) := by
  unfold expect accept
  split <;> rfl

theorem expectIdent_eq (c : Cursor) :
    c.expectIdent = match c.kind with
      | .ident name => .ok ((name, c.span), c.advance)
      | _ => .error (.refused c.unexpectedName) := by
  unfold expectIdent acceptIdent
  split <;> rfl

/-- Whether something of the list was read on the way from one cursor to another. -/
def Before (c d : Cursor) : Prop := d.remaining < c.remaining

instance (c d : Cursor) : Decidable (c.Before d) :=
  inferInstanceAs (Decidable (d.remaining < c.remaining))

theorem length_rest (c : Cursor) : c.rest.length = c.remaining := by simp [rest, remaining]

theorem tokens_advance (c : Cursor) : c.advance.tokens = c.tokens := by
  unfold advance
  split <;> rfl

end Cursor

end MiniC
