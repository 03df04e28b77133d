import MiniC.Proofs.Grammar.Rendering
import MiniC.Proofs.Grammar.Sentence

/-! # Expressions in their places

A context is a derivation with a place left open for an expression of some sort: the kinds before
the place, those behind it, and the tree as a function of what is put there. An operand of
`return`, an expression statement and an argument of a call are places for an assignment. A
rendered expression that is put at a place is read back.
-/

namespace MiniC

namespace Grammar

/-- An expression with a place in it. -/
inductive ExprContext (hole : Rank) : Rank → List TokenKind → List TokenKind → (Expr → Expr) → Prop
  | here : ExprContext hole hole [] [] id
  | assign {before after : List TokenKind} {plug : Expr → Expr} (name : String)
      (nameSpan span : Span) : ExprContext hole .additive before after plug →
      ExprContext hole .assignment (.ident name :: .equals :: before) after
        (fun e => .binary .assign (.identifier name nameSpan none) (plug e) span)
  | ofAdditive {before after : List TokenKind} {plug : Expr → Expr} :
      ExprContext hole .additive before after plug → ExprContext hole .assignment before after plug
  | sumLeft {op : BinaryOp} {before after ks : List TokenKind} {plug : Expr → Expr} {rhs : Expr}
      (hop : op.rank = .additive) (span : Span) : ExprContext hole .additive before after plug →
      Derives .multiplicative ks rhs →
      ExprContext hole .additive before (after ++ op.token :: ks)
        (fun e => .binary op (plug e) rhs span)
  | sumRight {op : BinaryOp} {before after ks : List TokenKind} {plug : Expr → Expr} {lhs : Expr}
      (hop : op.rank = .additive) (span : Span) : Derives .additive ks lhs →
      ExprContext hole .multiplicative before after plug →
      ExprContext hole .additive (ks ++ op.token :: before) after
        (fun e => .binary op lhs (plug e) span)
  | ofMultiplicative {before after : List TokenKind} {plug : Expr → Expr} :
      ExprContext hole .multiplicative before after plug →
      ExprContext hole .additive before after plug
  | productLeft {op : BinaryOp} {before after ks : List TokenKind} {plug : Expr → Expr}
      {rhs : Expr} (hop : op.rank = .multiplicative) (span : Span) :
      ExprContext hole .multiplicative before after plug → Derives .call ks rhs →
      ExprContext hole .multiplicative before (after ++ op.token :: ks)
        (fun e => .binary op (plug e) rhs span)
  | productRight {op : BinaryOp} {before after ks : List TokenKind} {plug : Expr → Expr}
      {lhs : Expr} (hop : op.rank = .multiplicative) (span : Span) :
      Derives .multiplicative ks lhs → ExprContext hole .call before after plug →
      ExprContext hole .multiplicative (ks ++ op.token :: before) after
        (fun e => .binary op lhs (plug e) span)
  | ofCall {before after : List TokenKind} {plug : Expr → Expr} :
      ExprContext hole .call before after plug →
      ExprContext hole .multiplicative before after plug
  | argument {before after : List TokenKind} {plug : Expr → Expr} (callee : String)
      (calleeSpan span : Span) (earlier later : List (List TokenKind × Expr)) :
      (∀ a ∈ earlier, Derives .assignment a.1 a.2) → (∀ a ∈ later, Derives .assignment a.1 a.2) →
      ExprContext hole .assignment before after plug →
      ExprContext hole .call
        (.ident callee :: .lparen :: ((earlier.map (·.1)).flatMap (· ++ [.comma]) ++ before))
        (after ++ ((later.map (·.1)).flatMap (.comma :: ·) ++ [.rparen]))
        (fun e => .call callee calleeSpan (earlier.map (·.2) ++ plug e :: later.map (·.2)) span
          none)
  | ofPrimary {before after : List TokenKind} {plug : Expr → Expr} :
      ExprContext hole .primary before after plug → ExprContext hole .call before after plug
  | group {before after : List TokenKind} {plug : Expr → Expr} :
      ExprContext hole .assignment before after plug →
      ExprContext hole .primary (.lparen :: before) (after ++ [.rparen]) plug

inductive StmtContext (hole : Rank) : List TokenKind → List TokenKind → (Expr → Stmt) → Prop
  | ret {before after : List TokenKind} {plug : Expr → Expr} (span : Span) :
      ExprContext hole .assignment before after plug →
      StmtContext hole (.returnWord :: before) (after ++ [.semicolon]) (fun e => .ret (plug e) span)
  | expr {before after : List TokenKind} {plug : Expr → Expr} :
      ExprContext hole .assignment before after plug →
      StmtContext hole before (after ++ [.semicolon]) (fun e => .expr (plug e))

inductive BodyContext (hole : Rank) :
    List TokenKind → List TokenKind → (Expr → FunctionBody) → Prop
  | intro {before after : List TokenKind} {plug : Expr → Stmt} (span : Span)
      (locals : List (List TokenKind × VariableDeclaration))
      (earlier later : List (List TokenKind × Stmt)) :
      (∀ a ∈ locals, DerivesVariable a.1 a.2) → (∀ a ∈ earlier, DerivesStmt a.1 a.2) →
      (∀ a ∈ later, DerivesStmt a.1 a.2) → StmtContext hole before after plug →
      BodyContext hole
        (.lbrace :: (locals.flatMap (·.1) ++ (earlier.flatMap (·.1) ++ before)))
        (after ++ (later.flatMap (·.1) ++ [.rbrace]))
        (fun e => {
          locals := locals.map (·.2)
          statements := earlier.map (·.2) ++ plug e :: later.map (·.2)
          span })

inductive UnitContext (hole : Rank) :
    List TokenKind → List TokenKind → (Expr → SourceUnit) → Prop
  | here {ks before after ks' : List TokenKind} {p : Prototype} {plug : Expr → FunctionBody}
      {u : SourceUnit} (span : Span) : DerivesPrototype ks p →
      BodyContext hole before after plug → DerivesUnit ks' u →
      UnitContext hole (ks ++ before) (after ++ ks')
        (fun e => { u with
          definitions := { prototype := p, body := plug e, span } :: u.definitions })
  | declaration {ks before after : List TokenKind} {d : FunctionDeclaration}
      {plug : Expr → SourceUnit} : DerivesDeclaration ks d →
      UnitContext hole before after plug →
      UnitContext hole (ks ++ before) after
        (fun e => { plug e with declarations := d :: (plug e).declarations })
  | definition {ks before after : List TokenKind} {d : FunctionDefinition}
      {plug : Expr → SourceUnit} : DerivesDefinition ks d →
      UnitContext hole before after plug →
      UnitContext hole (ks ++ before) after
        (fun e => { plug e with definitions := d :: (plug e).definitions })

variable {hole r : Rank} {before after ks : List TokenKind} {e : Expr}

theorem ExprContext.fill {plug : Expr → Expr} (h : ExprContext hole r before after plug)
    (he : Derives hole ks e) : Derives r (before ++ ks ++ after) (plug e) := by
  induction h with
  | here => simpa using he
  | assign name nameSpan span _ ih => exact .assign name nameSpan span ih
  | ofAdditive _ ih => exact .ofAdditive ih
  | sumLeft hop span _ hd ih => simpa using Derives.sum hop span ih hd
  | sumRight hop span hd _ ih => simpa using Derives.sum hop span hd ih
  | ofMultiplicative _ ih => exact .ofMultiplicative ih
  | productLeft hop span _ hd ih => simpa using Derives.product hop span ih hd
  | productRight hop span hd _ ih => simpa using Derives.product hop span hd ih
  | ofCall _ ih => exact .ofCall ih
  | @argument before after plug callee calleeSpan span earlier later hearlier hlater _ ih =>
    have hargs : ∀ a ∈ earlier ++ (before ++ ks ++ after, plug e) :: later,
        Derives .assignment a.1 a.2 :=
      List.forall_mem_append.mpr ⟨hearlier, List.forall_mem_cons.mpr ⟨ih, hlater⟩⟩
    have hd := Derives.call callee calleeSpan span _ hargs
    rw [List.map_append, List.map_cons, commaSeparated_middle, List.map_append,
      List.map_cons] at hd
    simpa using hd
  | ofPrimary _ ih => exact .ofPrimary ih
  | group _ ih => simpa using Derives.group ih

theorem StmtContext.fill {plug : Expr → Stmt} (h : StmtContext hole before after plug)
    (he : Derives hole ks e) : DerivesStmt (before ++ ks ++ after) (plug e) := by
  cases h with
  | ret span hc => simpa using DerivesStmt.ret span (hc.fill he)
  | expr hc => simpa using DerivesStmt.expr (hc.fill he)

theorem BodyContext.fill {plug : Expr → FunctionBody} (h : BodyContext hole before after plug)
    (he : Derives hole ks e) : DerivesBody (before ++ ks ++ after) (plug e) := by
  obtain ⟨span, locals, earlier, later, hlocals, hearlier, hlater, hc⟩ := h
  have hss : ∀ a ∈ earlier ++ (_, _) :: later, DerivesStmt a.1 a.2 :=
    List.forall_mem_append.mpr ⟨hearlier, List.forall_mem_cons.mpr ⟨hc.fill he, hlater⟩⟩
  simpa using DerivesBody.intro span locals _ hlocals hss

theorem UnitContext.fill {plug : Expr → SourceUnit} (h : UnitContext hole before after plug)
    (he : Derives hole ks e) : DerivesUnit (before ++ ks ++ after) (plug e) := by
  induction h with
  | here span hp hc hu =>
    simpa using DerivesUnit.definition (.intro span hp (hc.fill he)) hu
  | declaration hd _ ih => simpa using DerivesUnit.declaration hd ih
  | definition hd _ ih => simpa using DerivesUnit.definition hd ih

end Grammar

namespace Program

open Grammar

/-- An expression that is written out at a place of a program, with whatever redundant
parentheses, is read back at this place. -/
theorem parse_render {hole : Rank} {before after : List TokenKind} {plug : Expr → SourceUnit}
    (hplace : UnitContext hole before after plug) {e : Expr} (he : e.Printable)
    (extra : Redundancy) (tokens : List Token) (name : String)
    (ht : tokens.map (·.kind) = before ++ render extra hole e ++ after ++ [.eof]) :
    ∃ p, parse tokens name = .ok p ∧
      p.unit.relabel .spanless = (plug e).relabel .spanless :=
  parse_of_derivesUnit ht (hplace.fill (derives_render he extra hole))

/-- The right operand of a difference needs one pair, and has a redundant one here. -/
theorem parse_render_difference :
    ∃ p, parse ([.intWord, .ident "f", .lparen, .rparen, .lbrace, .returnWord, .number 1, .minus,
        .lparen, .lparen, .ident "a", .minus, .ident "b", .rparen, .rparen, .semicolon, .rbrace,
        .eof].map (⟨·, .dummy⟩)) "m" = .ok p ∧
      (p.unit.relabel .spanless).definitions.flatMap (·.body.statements)
        = [.ret (.binary .sub (.number 1 .dummy) (.binary .sub (.identifier "a" .dummy none)
            (.identifier "b" .dummy none) .dummy) .dummy) .dummy] := by
  have hplace : UnitContext .assignment _ _ _ := .here .dummy
    (.intro "f" .dummy .dummy .dummy [] (by simp))
    (.intro .dummy [] [] [] (by simp) (by simp) (by simp) (.ret .dummy .here)) .nil
  have he : (Expr.binary .sub (.number 1 .dummy) (.binary .sub (.identifier "a" .dummy none)
      (.identifier "b" .dummy none) .dummy) .dummy).Printable :=
    .binary _ (by decide) (.number _ _)
      (.binary _ (by decide) (.identifier _ _) (.identifier _ _))
  obtain ⟨p, hp, hr⟩ := parse_render hplace he (fun path => if path = [1] then 1 else 0)
    ([.intWord, .ident "f", .lparen, .rparen, .lbrace, .returnWord, .number 1, .minus,
        .lparen, .lparen, .ident "a", .minus, .ident "b", .rparen, .rparen, .semicolon, .rbrace,
        .eof].map (⟨·, .dummy⟩)) "m" rfl
  refine ⟨p, hp, ?_⟩
  rw [hr]
  simp [SourceUnit.relabel, FunctionDefinition.relabel, FunctionBody.relabel, Stmt.relabel]

end Program

end MiniC
