import MiniC.Scope.Error
import MiniC.Scope.Table
import MiniC.Tree.Describe
import MiniC.Tree.Walk

/-! # Declaring functions and variables

The first walk of analysis builds the symbol table. It adds a function for every declaration, and
for every definition unless a function of that name is there: a function that is only declared
becomes the defined one, with the parameters of the definition, and a second definition is an
error. Parameters and local variables are added on the way, and the nodes are bound to what was
added for them. Nothing is declared for a definition that was refused, or for a type name that
the registry does not know.
-/

namespace MiniC

/-- What the walk knows at some node. -/
structure Declaring where
  table : SymbolTable
  /-- The scope of the definition around the node, if it has one. -/
  scope : ScopeId := .global
  /-- How many declarations of the unit have been met. -/
  declarations : Nat := 0
  /-- How many definitions of the unit have been met. -/
  definitions : Nat := 0
  errors : Array SemanticError := #[]

namespace Declaring

def report (s : Declaring) (kind : SemanticErrorKind) (name : String) (span : Span) : Declaring :=
  { s with errors := s.errors.push ⟨kind, name, span⟩ }

/-- The type of a name; an unknown name is an error. -/
def typeOf (s : Declaring) (type : TypeName) : Option BuiltinType × Declaring :=
  match s.table.types.get? type.name with
  | some t => (some t, s)
  | none => (none, s.report .unknownType type.name type.span)

def addFunction (s : Declaring) (f : FunctionSymbol) : FuncId × Declaring :=
  let r := s.table.addFunction f
  (r.1, { s with table := r.2 })

def addVariable (s : Declaring) (v : VariableSymbol) : VarId × Declaring :=
  let r := s.table.addVariable v
  (r.1, { s with table := r.2 })

def modifyFunction (s : Declaring) (id : FuncId) (f : FunctionSymbol → FunctionSymbol) :
    Declaring :=
  { s with table := s.table.modifyFunction id f }

@[simp] theorem addFunction_table (s : Declaring) (f : FunctionSymbol) :
    (s.addFunction f).2.table = (s.table.addFunction f).2 := rfl

@[simp] theorem addVariable_table (s : Declaring) (v : VariableSymbol) :
    (s.addVariable v).2.table = (s.table.addVariable v).2 := rfl

@[simp] theorem modifyFunction_table (s : Declaring) (id : FuncId)
    (f : FunctionSymbol → FunctionSymbol) :
    (s.modifyFunction id f).table = s.table.modifyFunction id f := rfl

/-- Add a variable for a parameter, and its handle to those of the parameters before it, which
are held last first. -/
def bindParameter (owner : FuncId) (p : Parameter) (s : List VarId × Declaring) :
    Parameter × List VarId × Declaring :=
  match s.2.typeOf p.type with
  | (none, s') => (p, s.1, s')
  | (some type, s') =>
    let r := s'.addVariable { name := p.name, type, span := p.nameSpan, owner }
    ({ p with symbol := some r.1 }, r.1 :: s.1, r.2)

def bindParameters (s : Declaring) (owner : FuncId) (p : Prototype) :
    Prototype × List VarId × Declaring :=
  let r := Visitor.walkList (bindParameter owner) p.params ([], s)
  ({ p with params := r.1 }, r.2.1.reverse, r.2.2)

def addItem (s : Declaring) (p : Prototype) (item : ItemRef) (isDeclaration : Bool) :
    (Option FuncId × Prototype) × Declaring :=
  match s.typeOf p.returnType with
  | (none, s) => ((none, p), s)
  | (some returnType, s) =>
    let f := s.addFunction
      { name := p.name, returnType, params := [], locals := .empty, isDeclaration
        enclosing := .global, item, span := p.nameSpan, signature := p.signature }
    let r := f.2.bindParameters f.1 p
    ((some f.1, r.1), r.2.2.modifyFunction f.1 ({ · with params := r.2.1 }))

/-- Make a declared function the one that a definition defines. -/
def mergeDefinition (s : Declaring) (id : FuncId) (d : FunctionDefinition) (item : ItemRef) :
    FunctionDefinition × Declaring :=
  match s.typeOf d.prototype.returnType with
  | (none, s) => (d, s)
  | (some returnType, s) =>
    let r := s.bindParameters id d.prototype
    let s := r.2.2.modifyFunction id fun f =>
      { f with
        returnType, params := r.2.1, isDeclaration := false, item
        span := d.prototype.nameSpan, signature := d.prototype.signature }
    ({ d with prototype := r.1, symbol := some id }, { s with scope := .function id })

def bindDeclaration (d : FunctionDeclaration) (s : Declaring) : FunctionDeclaration × Declaring :=
  let item := ItemRef.declaration s.declarations
  let r := { s with declarations := s.declarations + 1 }.addItem d.prototype item true
  ({ d with prototype := r.1.2, symbol := r.1.1 }, r.2)

def addDefinition (s : Declaring) (d : FunctionDefinition) (item : ItemRef) :
    FunctionDefinition × Declaring :=
  let r := s.addItem d.prototype item false
  let scope := match r.1.1 with
    | some id => .function id
    | none => r.2.scope
  ({ d with prototype := r.1.2, symbol := r.1.1 }, { r.2 with scope })

def bindDefinition (d : FunctionDefinition) (s : Declaring) : FunctionDefinition × Declaring :=
  let item := ItemRef.definition s.definitions
  let s := { s with definitions := s.definitions + 1 }
  match s.table.findFunction? d.name with
  | none => s.addDefinition d item
  | some id =>
    match s.table.getFunction? id with
    | none => s.addDefinition d item
    | some f =>
      if f.isDeclaration then s.mergeDefinition id d item
      else (d, s.report (.duplicateDefinition f.span f.signature) d.name d.prototype.nameSpan)

def bindVariable (d : VariableDeclaration) (s : Declaring) : VariableDeclaration × Declaring :=
  match s.scope with
  | .global => (d, s)
  | .function owner =>
    match s.typeOf d.type with
    | (none, s) => (d, s)
    | (some type, s) =>
      let r := s.addVariable { name := d.name, type, span := d.nameSpan, owner }
      ({ d with symbol := some r.1 },
        r.2.modifyFunction owner fun f => { f with locals := (f.locals.insert d.name r.1).2 })

def visitor : Visitor Declaring where
  bindUnit u s := ({ u with globalScope := some .global }, s)
  bindDeclaration := bindDeclaration
  bindDefinition := bindDefinition
  bindVariable := bindVariable
  exit n s :=
    match n with
    | .definition _ => { s with scope := .global }
    | _ => s

end Declaring

/-- Build the symbol table of a program against a registry of types, and bind its items,
parameters and variables. -/
def Program.declare (p : Program) (types : TypeRegistry) :
    Program × Except (List SemanticError) SymbolTable :=
  let r := Declaring.visitor.walk p { table := { types } }
  (r.1, if r.2.errors.isEmpty then .ok r.2.table else .error r.2.errors.toList)

end MiniC
