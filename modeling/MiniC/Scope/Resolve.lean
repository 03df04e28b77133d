import MiniC.Scope.Error
import MiniC.Scope.Table
import MiniC.Tree.Describe
import MiniC.Tree.Walk

/-! # Resolving references

The second walk of analysis binds every identifier to a variable and every call to a function, as
they are found from the scope of the definition around them. What is not found is an error and
stays bound as it was. A definition that has no scope is an error too; references in it are
looked up in the global scope.
-/

namespace MiniC

/-- What the walk knows at some node. -/
structure Resolving where
  /-- The scope of the definition around the node. -/
  scope : ScopeId := .global
  errors : Array SemanticError := #[]

namespace Resolving

def report (s : Resolving) (kind : SemanticErrorKind) (name : String) (span : Span) : Resolving :=
  { s with errors := s.errors.push ⟨kind, name, span⟩ }

def enterDefinition (d : FunctionDefinition) (s : Resolving) : Resolving :=
  match d.symbol with
  | some id => { s with scope := .function id }
  | none =>
    { s.report (.internal ("definition of `" ++ d.name ++ "` has no scope")) d.name
        d.prototype.nameSpan with scope := .global }

def bindIdentifier (t : SymbolTable) (x : Identifier) (s : Resolving) : Identifier × Resolving :=
  match t.resolveVariable? s.scope x.name with
  | some id => ({ x with symbol := some id }, s)
  | none => (x, s.report .undeclaredVariable x.name x.span)

def bindCall (t : SymbolTable) (c : FunctionCall) (s : Resolving) : FunctionCall × Resolving :=
  match t.resolveFunction? s.scope c.callee c.arity with
  | some id => ({ c with symbol := some id }, s)
  | none => (c, s.report (.undeclaredFunction c.arity) c.callee c.calleeSpan)

theorem bindCall_args (t : SymbolTable) (c : FunctionCall) (s : Resolving) :
    (bindCall t c s).1.args = c.args := by
  unfold bindCall
  split <;> rfl

def visitor (t : SymbolTable) : Visitor Resolving where
  enter n s :=
    match n with
    | .definition d => enterDefinition d s
    | _ => s
  exit n s :=
    match n with
    | .definition _ => { s with scope := .global }
    | _ => s
  bindIdentifier := bindIdentifier t
  bindCall := bindCall t
  bindCall_size c s := Nat.le_of_eq (congrArg Expr.sizeAll (bindCall_args t c s))

end Resolving

/-- Bind the references of a program to the symbols of a table, and list what is not found. -/
def Program.resolve (p : Program) (t : SymbolTable) : Program × List SemanticError :=
  let r := (Resolving.visitor t).walk p {}
  (r.1, r.2.errors.toList)

end MiniC
