import MiniC.Scope.Table

/-! # Listings of a symbol table

A listing has one line per function and, below it, one line for each parameter and each local
variable. A table that analysis makes holds only handles of its own symbols, but one that is put
together by hand can hold others. The checked operations of this module refuse to go through such
a dangling handle and name it.
-/

namespace MiniC

namespace ItemRef

def text : ItemRef → String
  | declaration index => "declaration #" ++ toString index
  | definition index => "definition #" ++ toString index

end ItemRef

inductive Dangling
  | function (id : FuncId)
  | variable (id : VarId)
  deriving DecidableEq, Repr

namespace SymbolTable

def getFunction (t : SymbolTable) (id : FuncId) : Except Dangling FunctionSymbol :=
  match t.getFunction? id with
  | some f => .ok f
  | none => .error (.function id)

def getVariable (t : SymbolTable) (id : VarId) : Except Dangling VariableSymbol :=
  match t.getVariable? id with
  | some v => .ok v
  | none => .error (.variable id)

def updateFunction (t : SymbolTable) (id : FuncId) (f : FunctionSymbol → FunctionSymbol) :
    Except Dangling SymbolTable := do
  let _ ← t.getFunction id
  return t.modifyFunction id f

def firstNamed? (t : SymbolTable) (name : String) : List VarId → Except Dangling (Option VarId)
  | [] => .ok none
  | id :: ids => do
    let v ← t.getVariable id
    if v.name = name then return some id else t.firstNamed? name ids

/-- Search for a variable as `resolveVariableWithin` does, reading every parameter on the way. -/
def lookUpVariableWithin (t : SymbolTable) (name : String) :
    Nat → ScopeId → Except Dangling (Option VarId)
  | _, .global => .ok none
  | 0, .function _ => .ok none
  | fuel + 1, .function id =>
    match t.getFunction? id with
    | none => .ok none
    | some f =>
      match f.locals.get? name with
      | some v => .ok (some v)
      | none => do
        match ← t.firstNamed? name f.params with
        | some v => return some v
        | none => t.lookUpVariableWithin name fuel f.enclosing

def lookUpVariable (t : SymbolTable) (scope : ScopeId) (name : String) :
    Except Dangling (Option VarId) :=
  t.lookUpVariableWithin name t.depth scope

def functionLine (id : FuncId) (f : FunctionSymbol) : String :=
  "FuncId(" ++ toString id.index ++ ") " ++ f.signature
    ++ " [" ++ (if f.isDeclaration then "declared" else "defined") ++ ", " ++ f.item.text ++ "] @ "
    ++ f.span.text ++ "\n"

def variableLine (kind name : String) (v : VariableSymbol) : String :=
  "  " ++ kind ++ " " ++ name ++ ": " ++ v.type.name ++ " @ " ++ v.span.text ++ "\n"

def functionLines (t : SymbolTable) (id : FuncId) (f : FunctionSymbol) :
    Except Dangling (List String) := do
  let params ← f.params.mapM fun param => do
    let v ← t.getVariable param
    return variableLine "param" v.name v
  let locals ← f.locals.entries.mapM fun entry => do
    let v ← t.getVariable entry.2
    return variableLine "local" entry.1 v
  return functionLine id f :: params ++ locals

/-- The listing of a table without dangling handles. -/
def listing (t : SymbolTable) : Except Dangling String := do
  let lines ← t.functions.toList.zipIdx.mapM fun (f, index) => t.functionLines (.ofIndex index) f
  return String.join lines.flatten

end SymbolTable

end MiniC
