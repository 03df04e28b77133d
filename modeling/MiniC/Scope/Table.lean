import MiniC.NameMap
import MiniC.Tree.Basic

/-! # Symbol tables

A symbol table holds functions and variables, each under the number it got when it was added, and
the types that have names. Handles keep 32 bits of these numbers. A function is also a scope: it
has a list of parameters and a table of local variables, and one scope encloses it. Lookups begin
in a scope and go outwards. A variable is searched for among the locals of a function, then among
its parameters; a function is searched for in the global scope alone, by its name and the number of
its arguments. The first match wins.
-/

namespace MiniC

/-- The variables of a body by their names, and the names in the order in which they were inserted
first. -/
structure LocalTable where
  order : List String := []
  map : NameMap VarId := .empty
  deriving DecidableEq, Repr

namespace LocalTable

def empty : LocalTable := {}

/-- Insert a variable, and tell which one it replaces. -/
def insert (l : LocalTable) (name : String) (id : VarId) : Option VarId × LocalTable :=
  let r := l.map.exchange name id
  (r.1, { order := if r.1.isNone then l.order ++ [name] else l.order, map := r.2 })

def get? (l : LocalTable) (name : String) : Option VarId := l.map.get? name

def size (l : LocalTable) : Nat := l.order.length

def isEmpty (l : LocalTable) : Bool := l.order.isEmpty

def entries (l : LocalTable) : List (String × VarId) :=
  l.order.filterMap fun name => (l.map.get? name).map (name, ·)

theorem get?_insert (l : LocalTable) (name other : String) (id : VarId) :
    (l.insert name id).2.get? other = if name = other then some id else l.get? other :=
  l.map.get?_insert name other id

theorem get?_of_mem_entries {l : LocalTable} {entry : String × VarId} (h : entry ∈ l.entries) :
    l.get? entry.1 = some entry.2 := by
  obtain ⟨name, -, h⟩ := List.mem_filterMap.mp h
  obtain ⟨id, hid, rfl⟩ := Option.map_eq_some_iff.mp h
  exact hid

end LocalTable

abbrev TypeRegistry := NameMap BuiltinType

def TypeRegistry.builtin : TypeRegistry :=
  BuiltinType.all.foldl (fun types t => types.insert t.name t) .empty

structure VariableSymbol where
  name : String
  type : BuiltinType
  /-- The span of the name where the variable is declared. -/
  span : Span
  owner : FuncId
  deriving DecidableEq, Repr

/-- The item that a function symbol stands for, by its place among the declarations or among the
definitions of the unit. -/
inductive ItemRef
  | declaration (index : Nat)
  | definition (index : Nat)
  deriving DecidableEq, Repr

structure FunctionSymbol where
  name : String
  returnType : BuiltinType
  params : List VarId
  locals : LocalTable
  /-- Whether there is no definition yet. -/
  isDeclaration : Bool
  enclosing : ScopeId
  item : ItemRef
  /-- The span of the name in that item. -/
  span : Span
  signature : String
  deriving DecidableEq, Repr

def FunctionSymbol.arity (f : FunctionSymbol) : Nat := f.params.length

structure SymbolTable where
  functions : Array FunctionSymbol := #[]
  vars : Array VariableSymbol := #[]
  types : TypeRegistry := .empty
  deriving DecidableEq, Repr

namespace SymbolTable

def getFunction? (t : SymbolTable) (id : FuncId) : Option FunctionSymbol := t.functions[id.index]?

def getVariable? (t : SymbolTable) (id : VarId) : Option VariableSymbol := t.vars[id.index]?

/-- Add a function, also if there are functions of the same name. -/
def addFunction (t : SymbolTable) (f : FunctionSymbol) : FuncId × SymbolTable :=
  (.ofIndex t.functions.size, { t with functions := t.functions.push f })

def addVariable (t : SymbolTable) (v : VariableSymbol) : VarId × SymbolTable :=
  (.ofIndex t.vars.size, { t with vars := t.vars.push v })

def modifyFunction (t : SymbolTable) (id : FuncId) (f : FunctionSymbol → FunctionSymbol) :
    SymbolTable :=
  { t with functions := t.functions.modify id.index f }

@[simp] theorem size_functions_addFunction (t : SymbolTable) (f : FunctionSymbol) :
    (t.addFunction f).2.functions.size = t.functions.size + 1 :=
  Array.size_push f

@[simp] theorem size_vars_addVariable (t : SymbolTable) (v : VariableSymbol) :
    (t.addVariable v).2.vars.size = t.vars.size + 1 :=
  Array.size_push v

@[simp] theorem functions_addVariable (t : SymbolTable) (v : VariableSymbol) :
    (t.addVariable v).2.functions = t.functions := rfl

@[simp] theorem size_functions_modifyFunction (t : SymbolTable) (id : FuncId)
    (f : FunctionSymbol → FunctionSymbol) :
    (t.modifyFunction id f).functions.size = t.functions.size :=
  Array.size_modify

/-- The first function of a name, however many parameters it has. -/
def findFunction? (t : SymbolTable) (name : String) : Option FuncId :=
  (t.functions.findIdx? (·.name = name)).map .ofIndex

/-- The first function of a name and a number of parameters. -/
def findOverload? (t : SymbolTable) (name : String) (arity : Nat) : Option FuncId :=
  (t.functions.findIdx? fun f => f.name = name ∧ f.arity = arity).map .ofIndex

def isNamed (t : SymbolTable) (name : String) (id : VarId) : Bool :=
  (t.getVariable? id).any (·.name = name)

/-- The longest chain of scopes that do not enclose each other in a circle. -/
def depth (t : SymbolTable) : Nat := t.functions.size + 1

/-- Search for a variable in at most `fuel` scopes. -/
def resolveVariableWithin (t : SymbolTable) (name : String) : Nat → ScopeId → Option VarId
  | _, .global => none
  | 0, .function _ => none
  | fuel + 1, .function id =>
    match t.getFunction? id with
    | none => none
    | some f =>
      f.locals.get? name
        <|> f.params.find? (t.isNamed name)
        <|> t.resolveVariableWithin name fuel f.enclosing

def resolveVariable? (t : SymbolTable) (scope : ScopeId) (name : String) : Option VarId :=
  t.resolveVariableWithin name t.depth scope

def resolveFunctionWithin (t : SymbolTable) (name : String) (arity : Nat) :
    Nat → ScopeId → Option FuncId
  | _, .global => t.findOverload? name arity
  | 0, .function _ => none
  | fuel + 1, .function id =>
    match t.getFunction? id with
    | none => none
    | some f => t.resolveFunctionWithin name arity fuel f.enclosing

def resolveFunction? (t : SymbolTable) (scope : ScopeId) (name : String) (arity : Nat) :
    Option FuncId :=
  t.resolveFunctionWithin name arity t.depth scope

end SymbolTable

end MiniC
