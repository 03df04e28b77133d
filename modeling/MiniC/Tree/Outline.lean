import MiniC.Tree.Describe
import MiniC.Tree.Walk

/-! # Outlines and traces

The outline of a program has one row per node below the source unit, in the order of the
walk, with the depth of the node and what it is bound to. The trace of a program has one line for
everything that a visitor is told. Both are visitors that bind nothing.
-/

namespace MiniC

structure OutlineRow where
  depth : Nat
  text : String
  span : Span
  nameSpan : Option Span := none
  typeSpan : Option Span := none
  symbol : Option Nat := none
  deriving DecidableEq, Repr

namespace Node

/-- The row of a node; the program and its unit have none. -/
def outlineRow? (depth : Nat) : Node → Option OutlineRow
  | program _ | unit _ => none
  | declaration d =>
    some { depth, text := d.describe, span := d.span, symbol := d.symbol.map (·.index) }
  | definition d =>
    some { depth, text := d.describe, span := d.span, symbol := d.symbol.map (·.index) }
  | prototype p =>
    some { depth, text := p.describe, span := p.span, nameSpan := p.nameSpan
           typeSpan := p.returnType.span }
  | body b => some { depth, text := b.describe, span := b.span }
  | ret value span => some { depth, text := (Stmt.ret value span).describe, span }
  | decl d =>
    some { depth, text := (Stmt.decl d).describe, span := d.span, nameSpan := d.nameSpan
           typeSpan := d.type.span, symbol := d.symbol.map (·.index) }
  | parameter p =>
    some { depth, text := (Expr.parameter p).describe, span := p.span, nameSpan := p.nameSpan
           typeSpan := p.type.span, symbol := p.symbol.map (·.index) }
  | expr e =>
    let row : OutlineRow := { depth, text := e.describe, span := e.span }
    match e with
    | .identifier _ _ symbol => some { row with symbol := symbol.map (·.index) }
    | .call _ calleeSpan _ _ symbol =>
      some { row with nameSpan := calleeSpan, symbol := symbol.map (·.index) }
    | _ => some row

/-- Whether a walk only visits the node, without entering it. -/
def isLeaf : Node → Bool
  | decl _ | parameter _ => true
  | expr (.binary _ _ _ _) | expr (.call _ _ _ _ _) => false
  | expr _ => true
  | _ => false

/-- Whether the children of the node are one level deeper than the node. -/
def isLevel : Node → Bool
  | program _ | unit _ => false
  | n => !n.isLeaf

end Node

/-- The rows so far and the depth of the node to come. -/
structure Outline where
  depth : Nat := 0
  rows : Array OutlineRow := #[]

namespace Outline

def add (n : Node) (o : Outline) : Outline :=
  match n.outlineRow? o.depth with
  | some row => { o with rows := o.rows.push row }
  | none => o

def visitor : Visitor Outline where
  visit n o :=
    let o := o.add n
    if n.isLevel then { o with depth := o.depth + 1 } else o
  exit n o := if n.isLevel then { o with depth := o.depth - 1 } else o

end Outline

def Program.outline (p : Program) : List OutlineRow :=
  (Outline.visitor.walk p {}).2.rows.toList

/-- The size of an outline: its rows, its largest depth, and its rows that are bound. -/
structure OutlineCounts where
  rows : Nat
  maxDepth : Nat
  bound : Nat
  deriving DecidableEq, Repr

def OutlineCounts.ofRows (rows : List OutlineRow) : OutlineCounts where
  rows := rows.length
  maxDepth := rows.foldl (fun depth row => max depth row.depth) 0
  bound := (rows.filter (·.symbol.isSome)).length

namespace Trace

def isBlank (c : Char) : Bool :=
  [' ', '\t', '\n', '\x0b', '\x0c', '\r', '\u0085', '\u00a0', '\u1680', '\u2028', '\u2029',
   '\u202f', '\u205f', '\u3000'].contains c || '\u2000' ≤ c && c ≤ '\u200a'

def trimEnd (line : String) : String :=
  String.ofList (line.toList.reverse.dropWhile isBlank).reverse

def kind : Node → String
  | .program _ => "module"
  | .unit _ => "translation_unit"
  | .declaration _ => "function_declaration"
  | .definition _ => "function_definition"
  | .prototype _ => "prototype"
  | .body _ => "function_statement"
  | .ret _ _ => "jump_statement"
  | .decl _ => "variable_declaration"
  | .parameter _ => "parameter"
  | .expr (.identifier _ _ _) => "identifier"
  | .expr (.number _ _) => "number_literal"
  | .expr (.parameter _) => "parameter"
  | .expr (.binary _ _ _ _) => "binary_expression"
  | .expr (.call _ _ _ _ _) => "call_expression"

/-- What tells a node apart when it is entered. -/
def enterDetail : Node → String
  | .program p => p.name
  | .unit u => toString u.size
  | .declaration d => d.name
  | .definition d => d.name
  | .prototype p => toString p.arity
  | .expr (.binary op _ _ _) => op.text
  | .expr (.call callee _ _ _ _) => callee
  | _ => ""

/-- What tells a node apart when it is left: for a call the number of its arguments. -/
def exitDetail : Node → String
  | .expr (.call _ _ args _ _) => toString args.length
  | n => enterDetail n

def visitDetail : Node → String
  | .program p => p.summary
  | .unit u => toString u.size
  | .declaration d => d.summary
  | .definition d => d.summary
  | .prototype p => p.signature
  | .body b => b.summary
  | .ret value _ => value.describe
  | .decl d => d.summary
  | .parameter p => p.text
  | .expr e => e.summary

def line (hook : String) (n : Node) (detail : String) : String :=
  trimEnd (hook ++ "_" ++ kind n ++ " " ++ detail)

def visitor : Visitor (Array String) where
  enter n lines := lines.push (line "enter" n (enterDetail n))
  visit n lines := lines.push (line "visit" n (visitDetail n))
  exit n lines := lines.push (line "exit" n (exitDetail n))

end Trace

def Program.trace (p : Program) : List String := (Trace.visitor.walk p #[]).2.toList

end MiniC
