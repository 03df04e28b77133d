import MiniC.Proofs.Tree.Relabel
import MiniC.Token

/-! # Derivations

The grammar of the language, as a relation between lists of token kinds and trees.

    translation_unit     = { function_declaration | function_definition } EOF
    function_declaration = prototype ";"
    function_definition  = prototype function_statement
    prototype            = "int" IDENT "(" [ parameter { "," parameter } ] ")"
    parameter            = "int" IDENT
    function_statement   = "{" { variable_declaration } { statement } "}"
    variable_declaration = "int" IDENT ";"
    statement            = "return" assignment ";" | assignment ";"
    assignment           = IDENT "=" additive | additive
    additive             = multiplicative { ("+" | "-") multiplicative }
    multiplicative       = postfix { ("*" | "/") postfix }
    postfix              = IDENT "(" [ assignment { "," assignment } ] ")" | primary
    primary              = IDENT | NUMBER | "(" assignment ")"

A list of kinds derives every tree that it can be read as: one has the names, the literals and the
shape that the kinds give it, is bound to nothing, and has whatever spans. Repeated operands are
grouped to the left.
-/

namespace MiniC

/-- The sorts of expressions, from the loosest to the tightest. -/
inductive Rank
  | assignment
  | additive
  | multiplicative
  | call
  | primary
  deriving DecidableEq, Repr

namespace BinaryOp

def token : BinaryOp → TokenKind
  | assign => .equals
  | add => .plus
  | sub => .minus
  | mul => .star
  | div => .slash

/-- The sort of the expressions that an operator makes. -/
def rank : BinaryOp → Rank
  | assign => .assignment
  | add | sub => .additive
  | mul | div => .multiplicative

end BinaryOp

namespace Grammar

def commaSeparated : List (List TokenKind) → List TokenKind
  | [] => []
  | [ks] => ks
  | ks :: rest => ks ++ .comma :: commaSeparated rest

theorem commaSeparated_cons (ks : List TokenKind) (kss : List (List TokenKind)) :
    commaSeparated (ks :: kss) = ks ++ kss.flatMap (.comma :: ·) := by
  induction kss generalizing ks with
  | nil => simp [commaSeparated]
  | cons ks' kss ih =>
    rw [commaSeparated, ih, List.flatMap_cons, List.cons_append]
    simp

theorem commaSeparated_middle (kss kss' : List (List TokenKind)) (ks : List TokenKind) :
    commaSeparated (kss ++ ks :: kss')
      = kss.flatMap (· ++ [.comma]) ++ (ks ++ kss'.flatMap (.comma :: ·)) := by
  induction kss with
  | nil => exact commaSeparated_cons ks kss'
  | cons ks₀ kss ih =>
    obtain ⟨ks₁, kss₁, hks⟩ : ∃ ks₁ kss₁, kss ++ ks :: kss' = ks₁ :: kss₁ :=
      List.exists_cons_of_ne_nil (by simp)
    rw [List.cons_append, hks, commaSeparated, ← hks, ih] <;> simp

/-- Kinds that form an expression of some sort. -/
inductive Derives : Rank → List TokenKind → Expr → Prop
  | assign {ks : List TokenKind} {e : Expr} (name : String) (nameSpan span : Span) :
      Derives .additive ks e →
      Derives .assignment (.ident name :: .equals :: ks)
        (.binary .assign (.identifier name nameSpan none) e span)
  | ofAdditive {ks : List TokenKind} {e : Expr} : Derives .additive ks e → Derives .assignment ks e
  | sum {op : BinaryOp} {ks ks' : List TokenKind} {e e' : Expr} (hop : op.rank = .additive)
      (span : Span) : Derives .additive ks e → Derives .multiplicative ks' e' →
      Derives .additive (ks ++ op.token :: ks') (.binary op e e' span)
  | ofMultiplicative {ks : List TokenKind} {e : Expr} :
      Derives .multiplicative ks e → Derives .additive ks e
  | product {op : BinaryOp} {ks ks' : List TokenKind} {e e' : Expr}
      (hop : op.rank = .multiplicative) (span : Span) :
      Derives .multiplicative ks e → Derives .call ks' e' →
      Derives .multiplicative (ks ++ op.token :: ks') (.binary op e e' span)
  | ofCall {ks : List TokenKind} {e : Expr} : Derives .call ks e → Derives .multiplicative ks e
  | call (callee : String) (calleeSpan span : Span) (args : List (List TokenKind × Expr)) :
      (∀ a ∈ args, Derives .assignment a.1 a.2) →
      Derives .call
        (.ident callee :: .lparen :: (commaSeparated (args.map (·.1)) ++ [.rparen]))
        (.call callee calleeSpan (args.map (·.2)) span none)
  | ofPrimary {ks : List TokenKind} {e : Expr} : Derives .primary ks e → Derives .call ks e
  | identifier (name : String) (span : Span) :
      Derives .primary [.ident name] (.identifier name span none)
  | number (value : Int32) (span : Span) : Derives .primary [.number value] (.number value span)
  | group {ks : List TokenKind} {e : Expr} :
      Derives .assignment ks e → Derives .primary (.lparen :: (ks ++ [.rparen])) e

inductive DerivesParameter : List TokenKind → Parameter → Prop
  | intro (name : String) (typeSpan nameSpan span : Span) :
      DerivesParameter [.intWord, .ident name]
        { type := ⟨"int", typeSpan⟩, name, nameSpan, span }

inductive DerivesPrototype : List TokenKind → Prototype → Prop
  | intro (name : String) (typeSpan nameSpan span : Span)
      (params : List (List TokenKind × Parameter)) :
      (∀ a ∈ params, DerivesParameter a.1 a.2) →
      DerivesPrototype
        (.intWord :: .ident name :: .lparen ::
          (commaSeparated (params.map (·.1)) ++ [.rparen]))
        { returnType := ⟨"int", typeSpan⟩, name, nameSpan, params := params.map (·.2), span }

inductive DerivesVariable : List TokenKind → VariableDeclaration → Prop
  | intro (name : String) (typeSpan nameSpan span : Span) :
      DerivesVariable [.intWord, .ident name, .semicolon]
        { type := ⟨"int", typeSpan⟩, name, nameSpan, span }

inductive DerivesStmt : List TokenKind → Stmt → Prop
  | ret {ks : List TokenKind} {e : Expr} (span : Span) : Derives .assignment ks e →
      DerivesStmt (.returnWord :: (ks ++ [.semicolon])) (.ret e span)
  | expr {ks : List TokenKind} {e : Expr} : Derives .assignment ks e →
      DerivesStmt (ks ++ [.semicolon]) (.expr e)

inductive DerivesBody : List TokenKind → FunctionBody → Prop
  | intro (span : Span) (locals : List (List TokenKind × VariableDeclaration))
      (statements : List (List TokenKind × Stmt)) :
      (∀ a ∈ locals, DerivesVariable a.1 a.2) → (∀ a ∈ statements, DerivesStmt a.1 a.2) →
      DerivesBody
        (.lbrace :: (locals.flatMap (·.1) ++ (statements.flatMap (·.1) ++ [.rbrace])))
        { locals := locals.map (·.2), statements := statements.map (·.2), span }

inductive DerivesDeclaration : List TokenKind → FunctionDeclaration → Prop
  | intro {ks : List TokenKind} {p : Prototype} (span : Span) : DerivesPrototype ks p →
      DerivesDeclaration (ks ++ [.semicolon]) { prototype := p, span }

inductive DerivesDefinition : List TokenKind → FunctionDefinition → Prop
  | intro {ks ks' : List TokenKind} {p : Prototype} {b : FunctionBody} (span : Span) :
      DerivesPrototype ks p → DerivesBody ks' b →
      DerivesDefinition (ks ++ ks') { prototype := p, body := b, span }

/-- The kinds of a whole source, without the end mark: declarations and definitions in any order,
of which the tree keeps two lists. -/
inductive DerivesUnit : List TokenKind → SourceUnit → Prop
  | nil : DerivesUnit [] {}
  | declaration {ks ks' : List TokenKind} {d : FunctionDeclaration} {u : SourceUnit} :
      DerivesDeclaration ks d → DerivesUnit ks' u →
      DerivesUnit (ks ++ ks') { u with declarations := d :: u.declarations }
  | definition {ks ks' : List TokenKind} {d : FunctionDefinition} {u : SourceUnit} :
      DerivesDefinition ks d → DerivesUnit ks' u →
      DerivesUnit (ks ++ ks') { u with definitions := d :: u.definitions }

def Sentence (ks : List TokenKind) : Prop := ∃ u, DerivesUnit ks u

end Grammar

end MiniC
