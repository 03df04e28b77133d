import MiniC.Tree.Basic

/-! # Descriptions of nodes

Every node has a one-line summary, its kind and what tells it from others of its kind. A
description is the place of the node and its summary.
-/

namespace MiniC

/-- A summary behind the place it speaks of. -/
def describeAt (span : Span) (summary : String) : String := span.text ++ " " ++ summary

def TypeName.listing (t : TypeName) : String :=
  "TypeName(" ++ t.name ++ " @ " ++ t.span.fullText ++ ")"

namespace Parameter

def text (p : Parameter) : String := p.type.name ++ " " ++ p.name

def summary (p : Parameter) : String := "parameter `" ++ p.text ++ "`"

end Parameter

namespace Prototype

def signature (p : Prototype) : String :=
  let params := String.intercalate ", " (p.params.map (·.text))
  p.returnType.name ++ " " ++ p.name ++ "(" ++ params ++ ")"

def summary (p : Prototype) : String := "prototype `" ++ p.signature ++ "`"

def describe (p : Prototype) : String := describeAt p.span p.summary

end Prototype

def VariableDeclaration.summary (d : VariableDeclaration) : String :=
  "variable declaration `" ++ d.type.name ++ " " ++ d.name ++ "`"

namespace Expr

def summary : Expr → String
  | identifier name _ _ => "identifier `" ++ name ++ "`"
  | number value _ => "number `" ++ toString value.toInt ++ "`"
  | parameter param => param.summary
  | binary op _ _ _ => "binary expression `" ++ op.text ++ "`"
  | call callee _ args _ _ =>
    "call `" ++ callee ++ "` with " ++ toString args.length ++ " argument(s)"

def describe (e : Expr) : String := describeAt e.span e.summary

end Expr

namespace Stmt

def summary : Stmt → String
  | decl d => d.summary
  | ret _ _ => "return statement"
  | expr e => e.summary

def describe (s : Stmt) : String := describeAt s.span s.summary

def listing (s : Stmt) : String := s.span.fullText ++ " " ++ s.summary

end Stmt

namespace FunctionBody

def summary (b : FunctionBody) : String :=
  "function body with " ++ toString b.locals.length ++ " local(s) and "
    ++ toString b.statements.length ++ " statement(s)"

def describe (b : FunctionBody) : String := describeAt b.span b.summary

end FunctionBody

namespace FunctionDeclaration

def name (d : FunctionDeclaration) : String := d.prototype.name

def summary (d : FunctionDeclaration) : String :=
  "function declaration `" ++ d.prototype.signature ++ "`"

def describe (d : FunctionDeclaration) : String := describeAt d.span d.summary

end FunctionDeclaration

namespace FunctionDefinition

def name (d : FunctionDefinition) : String := d.prototype.name

def summary (d : FunctionDefinition) : String :=
  "function definition `" ++ d.prototype.signature ++ "`"

def describe (d : FunctionDefinition) : String := describeAt d.span d.summary

end FunctionDefinition

namespace Program

def summary (p : Program) : String := "module `" ++ p.name ++ "`"

def describe (p : Program) : String := describeAt p.span p.summary

/-- The descriptions of a program and its items, without any expression below a statement. -/
def overview (p : Program) : List String :=
  p.describe :: p.unit.declarations.flatMap (fun d =>
      [d.describe, d.prototype.describe, d.prototype.returnType.listing])
    ++ p.unit.definitions.flatMap (fun d =>
      d.describe :: d.prototype.describe :: d.body.describe :: d.body.statements.map (·.listing))

end Program

end MiniC
