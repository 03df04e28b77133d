import MiniC.Span

/-! # Program trees

A program is a name with its function declarations and function definitions, each in source
order. Trees own their children. The only links out of a tree are handles: numbers of functions
and variables in a symbol table, which analysis writes into the `symbol` fields. A handle has 32
bits; a table with more symbols than that gives two of them one handle.
-/

namespace MiniC

inductive SymbolKind
  | function
  | variable
  deriving DecidableEq, Repr

/-- A handle of 32 bits, which numbers the symbols of one kind in a symbol table. -/
structure Handle (kind : SymbolKind) where
  raw : UInt32
  deriving DecidableEq, Repr

abbrev FuncId := Handle .function

abbrev VarId := Handle .variable

namespace Handle

variable {kind : SymbolKind}

/-- How many symbols of one kind the handles tell apart. -/
def capacity : Nat := UInt32.size

def index (h : Handle kind) : Nat := h.raw.toNat

/-- The handle for a number, of which 32 bits remain. -/
def ofIndex (n : Nat) : Handle kind := ⟨UInt32.ofNat n⟩

theorem index_lt (h : Handle kind) : h.index < capacity := h.raw.toNat_lt_size

theorem index_ofIndex {n : Nat} (h : n < capacity) : (ofIndex n : Handle kind).index = n :=
  UInt32.toNat_ofNat_of_lt h

theorem index_ofIndex_le (n : Nat) : (ofIndex n : Handle kind).index ≤ n := by
  rw [index, ofIndex, UInt32.toNat_ofNat']
  exact Nat.mod_le n _

@[simp] theorem ofIndex_index (h : Handle kind) : ofIndex h.index = h := by
  rw [ofIndex, index, UInt32.ofNat_toNat]

theorem eq_of_index_eq {h h' : Handle kind} (heq : h.index = h'.index) : h = h' := by
  rw [← ofIndex_index h, heq, ofIndex_index]

theorem ofIndex_inj {n m : Nat} (hn : n < capacity) (hm : m < capacity)
    (h : (ofIndex n : Handle kind) = ofIndex m) : n = m := by
  rw [← index_ofIndex hn, h, index_ofIndex hm]

end Handle

inductive ScopeId
  | global
  | function (id : FuncId)
  deriving DecidableEq, Repr

def ScopeId.isGlobal (s : ScopeId) : Bool := s = global

structure TypeName where
  name : String
  span : Span
  deriving DecidableEq, Repr

inductive BuiltinType
  | int
  deriving DecidableEq, Repr

namespace BuiltinType

def all : List BuiltinType := [int]

def name : BuiltinType → String
  | int => "int"

def ofName? (name : String) : Option BuiltinType := all.find? (·.name = name)

end BuiltinType

inductive BinaryOp
  | assign
  | add
  | sub
  | mul
  | div
  deriving DecidableEq, Repr

def BinaryOp.text : BinaryOp → String
  | assign => "="
  | add => "+"
  | sub => "-"
  | mul => "*"
  | div => "/"

structure Parameter where
  type : TypeName
  name : String
  nameSpan : Span
  span : Span
  symbol : Option VarId := none
  deriving DecidableEq, Repr

/-- A parameter covers its type and its name. -/
def Parameter.ofName (type : TypeName) (name : String) (nameSpan : Span) : Parameter :=
  { type, name, nameSpan, span := type.span.merge nameSpan }

inductive Expr
  | identifier (name : String) (span : Span) (symbol : Option VarId)
  | number (value : Int32) (span : Span)
  | parameter (param : Parameter)
  | binary (op : BinaryOp) (lhs rhs : Expr) (span : Span)
  | call (callee : String) (calleeSpan : Span) (args : List Expr) (span : Span)
      (symbol : Option FuncId)
  deriving Repr, Inhabited

namespace Expr

def span : Expr → Span
  | identifier _ span _ => span
  | number _ span => span
  | parameter param => param.span
  | binary _ _ _ span => span
  | call _ _ _ span _ => span

def ofOperands (op : BinaryOp) (lhs rhs : Expr) : Expr :=
  binary op lhs rhs (lhs.span.merge rhs.span)

end Expr

mutual

/-- Trees are compared node by node. -/
def Expr.decEq (a b : Expr) : Decidable (a = b) :=
  match a, b with
  | .identifier n s y, .identifier n' s' y' =>
    decidable_of_iff (n = n' ∧ s = s' ∧ y = y') (by simp)
  | .number n s, .number n' s' => decidable_of_iff (n = n' ∧ s = s') (by simp)
  | .parameter p, .parameter p' => decidable_of_iff (p = p') (by simp)
  | .binary o l r s, .binary o' l' r' s' =>
    have := Expr.decEq l l'
    have := Expr.decEq r r'
    decidable_of_iff (o = o' ∧ l = l' ∧ r = r' ∧ s = s') (by simp)
  | .call f c as s y, .call f' c' as' s' y' =>
    have := Expr.decEqAll as as'
    decidable_of_iff (f = f' ∧ c = c' ∧ as = as' ∧ s = s' ∧ y = y') (by simp)
  | .identifier _ _ _, .number _ _ | .identifier _ _ _, .parameter _
  | .identifier _ _ _, .binary _ _ _ _ | .identifier _ _ _, .call _ _ _ _ _
  | .number _ _, .identifier _ _ _ | .number _ _, .parameter _
  | .number _ _, .binary _ _ _ _ | .number _ _, .call _ _ _ _ _
  | .parameter _, .identifier _ _ _ | .parameter _, .number _ _
  | .parameter _, .binary _ _ _ _ | .parameter _, .call _ _ _ _ _
  | .binary _ _ _ _, .identifier _ _ _ | .binary _ _ _ _, .number _ _
  | .binary _ _ _ _, .parameter _ | .binary _ _ _ _, .call _ _ _ _ _
  | .call _ _ _ _ _, .identifier _ _ _ | .call _ _ _ _ _, .number _ _
  | .call _ _ _ _ _, .parameter _ | .call _ _ _ _ _, .binary _ _ _ _ =>
    isFalse (by simp)

def Expr.decEqAll (as bs : List Expr) : Decidable (as = bs) :=
  match as, bs with
  | [], [] => isTrue rfl
  | [], _ :: _ | _ :: _, [] => isFalse (by simp)
  | a :: as, b :: bs =>
    have := Expr.decEq a b
    have := Expr.decEqAll as bs
    decidable_of_iff (a = b ∧ as = bs) (by simp)

end

instance : DecidableEq Expr := Expr.decEq

structure VariableDeclaration where
  type : TypeName
  name : String
  nameSpan : Span
  span : Span
  symbol : Option VarId := none
  deriving DecidableEq, Repr

inductive Stmt
  | decl (decl : VariableDeclaration)
  | ret (value : Expr) (span : Span)
  | expr (value : Expr)
  deriving DecidableEq, Repr

def Stmt.span : Stmt → Span
  | decl d => d.span
  | ret _ span => span
  | expr e => e.span

structure FunctionBody where
  locals : List VariableDeclaration
  statements : List Stmt
  span : Span
  deriving DecidableEq, Repr

structure Prototype where
  returnType : TypeName
  name : String
  nameSpan : Span
  params : List Parameter
  span : Span
  deriving DecidableEq, Repr

def Prototype.arity (p : Prototype) : Nat := p.params.length

structure FunctionDeclaration where
  prototype : Prototype
  span : Span
  symbol : Option FuncId := none
  deriving DecidableEq, Repr

structure FunctionDefinition where
  prototype : Prototype
  body : FunctionBody
  span : Span
  symbol : Option FuncId := none
  deriving DecidableEq, Repr

structure SourceUnit where
  declarations : List FunctionDeclaration := []
  definitions : List FunctionDefinition := []
  globalScope : Option ScopeId := none
  deriving DecidableEq, Repr

namespace SourceUnit

def size (u : SourceUnit) : Nat := u.declarations.length + u.definitions.length

def isEmpty (u : SourceUnit) : Bool := u.declarations.isEmpty && u.definitions.isEmpty

end SourceUnit

structure Program where
  name : String
  unit : SourceUnit
  deriving DecidableEq, Repr

namespace Program

def span (p : Program) : Span :=
  Span.mergeAll (p.unit.declarations.map (·.span) ++ p.unit.definitions.map (·.span))

def withDefinitions (p : Program) (definitions : List FunctionDefinition) : Program :=
  { p with unit := { p.unit with definitions } }

/-- Bind a definition by hand; none if there is no such definition. -/
def setDefinitionSymbol? (p : Program) (index : Nat) (symbol : Option FuncId) : Option Program :=
  p.unit.definitions[index]?.map fun d =>
    p.withDefinitions (p.unit.definitions.set index { d with symbol })

def dropDefinition? (p : Program) (index : Nat) : Option (FunctionDefinition × Program) :=
  p.unit.definitions[index]?.map fun d => (d, p.withDefinitions (p.unit.definitions.eraseIdx index))

def swapDefinitions? (p : Program) (i j : Nat) : Option Program :=
  match p.unit.definitions[i]?, p.unit.definitions[j]? with
  | some d, some e => some (p.withDefinitions ((p.unit.definitions.set i e).set j d))
  | _, _ => none

end Program

end MiniC
