import MiniC.Grammar.Expression
import MiniC.Token.Lexer

/-! # Reading programs

    unit        = { declaration | definition } EOF
    declaration = prototype ";"
    definition  = prototype body
    prototype   = "int" IDENT "(" [ parameter { "," parameter } ] ")"
    parameter   = "int" IDENT
    body        = "{" { variable } { statement } "}"
    variable    = "int" IDENT ";"
    statement   = "return" assignment ";" | assignment ";"

Repetitions read on as long as they use up tokens of the list. `Program.parse` reads a token list
and `Program.ofSource` a text.
-/

namespace MiniC

namespace Grammar

/-- The only type is `int`. -/
def typeName (c : Cursor) : Except Failure (TypeName × Cursor) :=
  if c.check .intWord then .ok (⟨BuiltinType.int.name, c.span⟩, c.advance)
  else .error (.refused (c.unexpected .expectedType "type `int`"))

def parameter (c : Cursor) : Except Failure (Parameter × Cursor) := do
  let (type, c) ← typeName c
  let ((name, nameSpan), c) ← c.expectIdent
  return (.ofName type name nameSpan, c)

/-- Read parameters as long as a comma follows, behind those already `done`, held last first. -/
def parameters (done : List Parameter) (c : Cursor) : Except Failure (List Parameter × Cursor) :=
  match parameter c with
  | .error failure => .error failure
  | .ok (p, c') =>
    if c'.check .comma then
      if c.Before c'.advance then parameters (p :: done) c'.advance else .error .endless
    else .ok ((p :: done).reverse, c')
termination_by c.remaining

def prototype (c : Cursor) : Except Failure (Prototype × Cursor) := do
  let (returnType, c) ← typeName c
  let ((name, nameSpan), c) ← c.expectIdent
  let (_, c) ← c.expect .lparen
  let (params, c) ← if c.check .rparen then .ok ([], c) else parameters [] c
  let (close, c) ← c.expect .rparen
  return ({ returnType, name, nameSpan, params, span := returnType.span.merge close.span }, c)

def variableDeclaration (c : Cursor) : Except Failure (VariableDeclaration × Cursor) := do
  let (type, c) ← typeName c
  let ((name, nameSpan), c) ← c.expectIdent
  let (close, c) ← c.expect .semicolon
  return ({ type, name, nameSpan, span := type.span.merge close.span }, c)

def variableDeclarations (done : List VariableDeclaration) (c : Cursor) :
    Except Failure (List VariableDeclaration × Cursor) :=
  if c.check .intWord then
    match variableDeclaration c with
    | .error failure => .error failure
    | .ok (d, c') =>
      if c.Before c' then variableDeclarations (d :: done) c' else .error .endless
  else .ok (done.reverse, c)
termination_by c.remaining

/-- Where an expression statement begins, for one that lacks its semicolon. -/
def missingSemicolon (e : Expr) : String :=
  "the expression starting at " ++ e.span.text ++ " needs a terminating `;`"

def statement (c : Cursor) : Except Failure (Stmt × Cursor) :=
  if c.check .returnWord then do
    let (value, c') ← expression c.advance
    let (close, c') ← c'.expect .semicolon
    return (.ret value (c.span.merge close.span), c')
  else do
    let (value, c) ← expression c
    let (_, c) ← (c.expect .semicolon).mapError (·.addHelp (missingSemicolon value))
    return (.expr value, c)

def statements (done : List Stmt) (c : Cursor) : Except Failure (List Stmt × Cursor) :=
  if c.check .rbrace then .ok (done.reverse, c)
  else
    match statement c with
    | .error failure => .error failure
    | .ok (s, c') => if c.Before c' then statements (s :: done) c' else .error .endless
termination_by c.remaining

def body (c : Cursor) : Except Failure (FunctionBody × Cursor) := do
  let (opening, c) ← c.expect .lbrace
  let (locals, c) ← variableDeclarations [] c
  let (statements, c) ← statements [] c
  let (close, c) ← c.expect .rbrace
  return ({ locals, statements, span := opening.span.merge close.span }, c)

inductive Item
  | declaration (d : FunctionDeclaration)
  | definition (d : FunctionDefinition)

def item (c : Cursor) : Except Failure (Item × Cursor) := do
  let (prototype, c) ← prototype c
  match c.kind with
  | .semicolon =>
    return (.declaration { prototype, span := prototype.span.merge c.span }, c.advance)
  | .lbrace =>
    let (body, c) ← body c
    return (.definition { prototype, body, span := prototype.span.merge body.span }, c)
  | _ =>
    let error := c.unexpected .unexpectedToken "`;` or `\x7b`"
    .error (.refused (error.addHelp "end a declaration with `;` or give the function a body"))

/-- Read items up to the end; those already read are held last first. -/
def items (declarations : List FunctionDeclaration) (definitions : List FunctionDefinition)
    (c : Cursor) : Except Failure SourceUnit :=
  if c.atEnd then
    .ok { declarations := declarations.reverse, definitions := definitions.reverse }
  else
    match item c with
    | .error failure => .error failure
    | .ok (i, c') =>
      if c.Before c' then
        match i with
        | .declaration d => items (d :: declarations) definitions c'
        | .definition d => items declarations (d :: definitions) c'
      else .error .endless
termination_by c.remaining

end Grammar

namespace Program

def parse (tokens : List Token) (name : String) : Except Failure Program := do
  let unit ← Grammar.items [] [] (.ofTokens tokens)
  return { name, unit }

def ofSource (source name : String) : Except Failure Program := parse (Token.lex source) name

end Program

end MiniC
