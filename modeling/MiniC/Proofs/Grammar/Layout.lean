import MiniC.Proofs.Grammar.ReadingPrograms
import MiniC.Proofs.Tree.Relabel

/-! # Layout and parsing

The parser looks at the kinds of tokens and at nothing else of them. Two readers that stand at the
same place of lists with the same kinds do the same: they go on side by side, with the same values
up to spans, or they refuse their tokens with the same code and message.
-/

namespace MiniC

open Relabelling (spanless)

/-- Failures with the same code and message. Their spans may differ, and so may a help text that
cites one. -/
inductive Failure.Alike : Failure → Failure → Prop
  | refused {e e' : ParseError} (code : e.code = e'.code) (message : e.message = e'.message) :
    Alike (.refused e) (.refused e')
  | endless : Alike .endless .endless

theorem Failure.Alike.addHelp {f f' : Failure} (h : f.Alike f') (help help' : String) :
    (f.addHelp help).Alike (f'.addHelp help') := by
  cases h with
  | refused code message => exact .refused code message
  | endless => exact .endless

namespace Cursor

/-- The cursors stand at the same place of lists that have the same kinds. -/
structure Alike (c c' : Cursor) : Prop where
  position : c.position = c'.position
  kinds : c.tokens.map (·.kind) = c'.tokens.map (·.kind)

theorem kind_eq_getD (c : Cursor) :
    c.kind = ((c.tokens.map (·.kind))[c.position]?.or (c.tokens.map (·.kind)).back?).getD .eof := by
  rw [kind, current, Array.back?, Array.back?, Array.getElem?_map, Array.getElem?_map,
    Array.size_map]
  cases c.tokens[c.position]? with
  | some t => rfl
  | none => cases c.tokens[c.tokens.size - 1]? <;> rfl

theorem nextKind_eq_getD (c : Cursor) :
    c.nextKind = ((c.tokens.map (·.kind))[c.position + 1]?).getD .eof := by
  rw [nextKind, Array.getElem?_map]

namespace Alike

variable {c c' d d' : Cursor}

theorem kind_eq (h : c.Alike c') : c.kind = c'.kind := by
  rw [kind_eq_getD, kind_eq_getD, h.kinds, h.position]

theorem nextKind_eq (h : c.Alike c') : c.nextKind = c'.nextKind := by
  rw [nextKind_eq_getD, nextKind_eq_getD, h.kinds, h.position]

theorem check_eq (h : c.Alike c') (k : TokenKind) : c.check k = c'.check k := by
  rw [check, check, h.kind_eq]

theorem atEnd_eq (h : c.Alike c') : c.atEnd = c'.atEnd := by
  rw [atEnd, atEnd, h.kind_eq]

theorem advance (h : c.Alike c') : c.advance.Alike c'.advance := by
  rw [Cursor.advance, Cursor.advance, h.atEnd_eq]
  split
  · exact h
  · exact ⟨congrArg (· + 1) h.position, h.kinds⟩

theorem remaining_eq (h : c.Alike c') : c.remaining = c'.remaining := by
  have hsize := congrArg Array.size h.kinds
  rw [Array.size_map, Array.size_map] at hsize
  rw [remaining, remaining, hsize, h.position]

theorem before_iff (h : c.Alike c') (hd : d.Alike d') : c.Before d ↔ c'.Before d' := by
  rw [Before, Before, h.remaining_eq, hd.remaining_eq]

end Alike

theorem alike_ofTokens {tokens tokens' : List Token}
    (h : tokens.map (·.kind) = tokens'.map (·.kind)) :
    (ofTokens tokens).Alike (ofTokens tokens') where
  position := rfl
  kinds := by simpa [ofTokens] using congrArg List.toArray h

end Cursor

namespace Grammar

variable {α β : Type} {c c' : Cursor}

/-- Both readers get a result, and the results are related, or both fail alike. -/
inductive SameRead (R : α → α → Prop) : Except Failure α → Except Failure α → Prop
  | ok {a b : α} (h : R a b) : SameRead R (.ok a) (.ok b)
  | error {f f' : Failure} (h : f.Alike f') : SameRead R (.error f) (.error f')

theorem SameRead.bind {R : α → α → Prop} {S : β → β → Prop} {x y : Except Failure α}
    {f g : α → Except Failure β} (h : SameRead R x y)
    (hf : ∀ a b, x = .ok a → R a b → SameRead S (f a) (g b)) : SameRead S (x >>= f) (y >>= g) := by
  cases h with
  | ok hab => exact hf _ _ rfl hab
  | error hfail => exact .error hfail

theorem SameRead.mapError {R : α → α → Prop} {x y : Except Failure α} {m m' : Failure → Failure}
    (h : SameRead R x y) (hm : ∀ f f', f.Alike f' → (m f).Alike (m' f')) :
    SameRead R (x.mapError m) (y.mapError m') := by
  cases h with
  | ok hab => exact .ok hab
  | error hfail => exact .error (hm _ _ hfail)

/-- Two readers have gone on side by side, and what they read looks the same. -/
structure Abreast (view : α → β) (r r' : α × Cursor) : Prop where
  value : view r.1 = view r'.1
  cursor : r.2.Alike r'.2

theorem Abreast.cons {view : α → β} {r r' : α × Cursor} (h : Abreast view r r')
    {done done' : List α} (hdone : done.map view = done'.map view) :
    (r.1 :: done).map view = (r'.1 :: done').map view := by
  rw [List.map_cons, List.map_cons, h.value, hdone]

theorem sameRead_reverse {view : α → β} {done done' : List α}
    (hdone : done.map view = done'.map view) (h : c.Alike c') :
    SameRead (Abreast (·.map view)) (.ok (done.reverse, c)) (.ok (done'.reverse, c')) := by
  refine .ok ⟨?_, h⟩
  rw [List.map_reverse, List.map_reverse, hdone]

theorem alike_unexpected (h : c.Alike c') (code : Code) (expected : String) :
    (Failure.refused (c.unexpected code expected)).Alike
      (.refused (c'.unexpected code expected)) := by
  rw [Cursor.unexpected, Cursor.unexpected, h.kind_eq, ParseError.unexpected, ParseError.unexpected]
  split
  · exact .refused rfl rfl
  · exact .refused rfl rfl

theorem alike_unexpectedName (h : c.Alike c') :
    (Failure.refused c.unexpectedName).Alike (.refused c'.unexpectedName) := by
  have hname := alike_unexpected h .expectedIdentifier "identifier"
  unfold Cursor.unexpectedName
  rw [h.kind_eq]
  cases c'.kind with
  | intWord => exact hname.addHelp _ _
  | returnWord => exact hname.addHelp _ _
  | _ => exact hname

theorem sameRead_expect (h : c.Alike c') (k : TokenKind) :
    SameRead (Abreast (·.kind)) (c.expect k) (c'.expect k) := by
  rw [Cursor.expect_eq, Cursor.expect_eq, h.check_eq]
  split
  · exact .ok ⟨h.kind_eq, h.advance⟩
  · exact .error (alike_unexpected h _ _)

theorem sameRead_expectIdent (h : c.Alike c') :
    SameRead (Abreast (·.1)) c.expectIdent c'.expectIdent := by
  rw [Cursor.expectIdent_eq, Cursor.expectIdent_eq, h.kind_eq]
  cases c'.kind with
  | ident name => exact .ok ⟨rfl, h.advance⟩
  | _ => exact .error (alike_unexpectedName h)

theorem sameRead_typeName (h : c.Alike c') :
    SameRead (Abreast (·.relabel spanless)) (typeName c) (typeName c') := by
  rw [typeName, typeName, h.check_eq]
  split
  · exact .ok ⟨rfl, h.advance⟩
  · exact .error (alike_unexpected h _ _)

end Grammar

structure Level.Alike (l l' : Level) : Prop where
  target : l.target.map (·.1) = l'.target.map (·.1)
  sum : l.sum.map (Prod.map (·.relabel spanless) id) = l'.sum.map (Prod.map (·.relabel spanless) id)
  product : l.product.map (Prod.map (·.relabel spanless) id)
    = l'.product.map (Prod.map (·.relabel spanless) id)

namespace Level

variable {l l' : Level} {e e' : Expr}

theorem relabel_joinOperand {left left' : Option (Expr × BinaryOp)}
    (h : left.map (Prod.map (·.relabel spanless) id)
      = left'.map (Prod.map (·.relabel spanless) id))
    (he : e.relabel spanless = e'.relabel spanless) :
    (joinOperand left e).relabel spanless = (joinOperand left' e').relabel spanless := by
  rcases left with _ | ⟨lhs, op⟩ <;> rcases left' with _ | ⟨lhs', op'⟩ <;>
    simp_all [joinOperand, Prod.map]

namespace Alike

theorem empty : Alike .empty .empty := ⟨rfl, rfl, rfl⟩

theorem isEmpty_eq (h : l.Alike l') : l.isEmpty = l'.isEmpty := by
  have htarget := congrArg Option.isNone h.target
  have hsum := congrArg Option.isNone h.sum
  have hproduct := congrArg Option.isNone h.product
  simp only [Option.isNone_map] at htarget hsum hproduct
  rw [isEmpty, isEmpty, htarget, hsum, hproduct]

theorem multiplicative (h : l.Alike l') (he : e.relabel spanless = e'.relabel spanless) :
    (l.multiplicative e).relabel spanless = (l'.multiplicative e').relabel spanless :=
  relabel_joinOperand h.product he

theorem additive (h : l.Alike l') (he : e.relabel spanless = e'.relabel spanless) :
    (l.additive e).relabel spanless = (l'.additive e').relabel spanless :=
  relabel_joinOperand h.sum (h.multiplicative he)

theorem assignment (h : l.Alike l') (he : e.relabel spanless = e'.relabel spanless) :
    (l.assignment e).relabel spanless = (l'.assignment e').relabel spanless := by
  have htarget := h.target
  have hadditive := h.additive he
  rw [Level.assignment, Level.assignment]
  generalize l.target = target, l'.target = target' at htarget
  rcases target with _ | ⟨name, span⟩ <;> rcases target' with _ | ⟨name', span'⟩ <;>
    simp_all

end Alike

end Level

inductive Bracket.Alike : Bracket → Bracket → Prop
  | group : Alike .group .group
  | call {callee : String} {span span' : Span} {args args' : List Expr}
    (same : args.map (·.relabel spanless) = args'.map (·.relabel spanless)) :
    Alike (.call callee span args) (.call callee span' args')

inductive Enclosing.Alike : Enclosing → Enclosing → Prop
  | nil : Alike [] []
  | cons {b b' : Bracket} {l l' : Level} {enclosing enclosing' : Enclosing}
    (bracket : b.Alike b') (outer : l.Alike l') (rest : Alike enclosing enclosing') :
    Alike ((b, l) :: enclosing) ((b', l') :: enclosing')

inductive Progress.Alike : Progress → Progress → Prop
  | operand {l l' : Level} {enclosing enclosing' : Enclosing} {c c' : Cursor}
    (level : l.Alike l') (brackets : Enclosing.Alike enclosing enclosing')
    (cursor : c.Alike c') : Alike (.operand l enclosing c) (.operand l' enclosing' c')
  | complete {e e' : Expr} {c c' : Cursor} (value : e.relabel spanless = e'.relabel spanless)
    (cursor : c.Alike c') : Alike (.complete e c) (.complete e' c')

namespace Grammar

variable {e e' : Expr} {l l' : Level} {enclosing enclosing' : Enclosing} {c c' : Cursor}

/-- Before an operator nothing depends on the brackets, so only the other tokens are left. -/
theorem sameRead_afterOperand_of_closing (he : e.relabel spanless = e'.relabel spanless)
    (hl : l.Alike l') (hen : Enclosing.Alike enclosing enclosing') (hc : c.Alike c')
    (h : c.kind.Closing → SameRead Progress.Alike (afterAssignment (l.assignment e) c enclosing)
      (afterAssignment (l'.assignment e') c' enclosing')) :
    SameRead Progress.Alike (afterOperand e l c enclosing) (afterOperand e' l' c' enclosing') := by
  rcases c.kind.closing_cases with ⟨op, hop, hk⟩ | ⟨op, hop, hk⟩ | hk
  · rw [afterOperand_product hop hk, afterOperand_product hop (hc.kind_eq ▸ hk)]
    exact .ok (.operand ⟨hl.target, hl.sum, by simp [hl.multiplicative he]⟩ hen hc.advance)
  · rw [afterOperand_sum hop hk, afterOperand_sum hop (hc.kind_eq ▸ hk)]
    exact .ok (.operand ⟨hl.target, by simp [hl.additive he], rfl⟩ hen hc.advance)
  · rw [afterOperand_of_closing hk, afterOperand_of_closing (hc.kind_eq ▸ hk)]
    exact h hk

theorem sameRead_afterOperand (he : e.relabel spanless = e'.relabel spanless)
    (hl : l.Alike l') (hen : Enclosing.Alike enclosing enclosing') (hc : c.Alike c') :
    SameRead Progress.Alike (afterOperand e l c enclosing) (afterOperand e' l' c' enclosing') := by
  induction hen generalizing e e' l l' c c' with
  | nil =>
    exact sameRead_afterOperand_of_closing he hl .nil hc fun _ =>
      .ok (.complete (hl.assignment he) hc)
  | cons hbracket houter hen ih =>
    refine sameRead_afterOperand_of_closing he hl (.cons hbracket houter hen) hc fun _ => ?_
    cases hbracket with
    | group =>
      exact (sameRead_expect hc .rparen).bind fun r r' _ hr =>
        ih (hl.assignment he) houter hr.cursor
    | call hargs =>
      rw [afterAssignment, afterAssignment, hc.check_eq]
      split
      · refine .ok (.operand .empty (.cons (.call ?_) houter hen) hc.advance)
        rw [List.map_cons, List.map_cons, hl.assignment he, hargs]
      · refine (sameRead_expect hc .rparen).bind fun r r' _ hr => ih ?_ houter hr.cursor
        simp [hl.assignment he, hargs]

theorem sameRead_operand (hl : l.Alike l') (hen : Enclosing.Alike enclosing enclosing')
    (hc : c.Alike c') :
    SameRead Progress.Alike (operand l enclosing c) (operand l' enclosing' c') := by
  rw [operand, operand, hc.kind_eq, hc.nextKind_eq, hl.isEmpty_eq]
  have hinside : c.advance.advance.Alike c'.advance.advance := hc.advance.advance
  cases c'.kind with
  | ident name =>
    dsimp only
    split
    · exact .ok (.operand ⟨rfl, rfl, rfl⟩ hen hinside)
    split
    · rw [hinside.check_eq]
      split
      · exact sameRead_afterOperand (by simp) hl hen hinside.advance
      · exact .ok (.operand .empty (.cons (.call rfl) hl hen) hinside)
    · exact sameRead_afterOperand (by simp) hl hen hc.advance
  | number value => exact sameRead_afterOperand (by simp) hl hen hc.advance
  | lparen => exact .ok (.operand .empty (.cons .group hl hen) hc.advance)
  | _ => exact .error (alike_unexpected hc _ _)

theorem sameRead_operands (hl : l.Alike l') (hen : Enclosing.Alike enclosing enclosing')
    (hc : c.Alike c') :
    SameRead (Abreast (·.relabel spanless)) (operands l enclosing c)
      (operands l' enclosing' c') := by
  induction c using Cursor.before_induction generalizing l l' enclosing enclosing' c' with
  | step c ih =>
    have hoperand := sameRead_operand hl hen hc
    rw [operands, operands]
    generalize operand l enclosing c = x, operand l' enclosing' c' = y at hoperand
    cases hoperand with
    | error hfail => exact .error hfail
    | ok hprogress =>
      cases hprogress with
      | complete value cursor => exact .ok ⟨value, cursor⟩
      | operand level brackets cursor =>
        dsimp only
        simp only [hc.before_iff cursor]
        split
        next hbefore => exact ih _ ((hc.before_iff cursor).mpr hbefore) level brackets cursor
        · exact .error .endless

theorem sameRead_expression (h : c.Alike c') :
    SameRead (Abreast (·.relabel spanless)) (expression c) (expression c') :=
  sameRead_operands .empty .nil h

theorem sameRead_parameter (h : c.Alike c') :
    SameRead (Abreast (·.relabel spanless)) (parameter c) (parameter c') := by
  refine (sameRead_typeName h).bind fun type type' _ htype => ?_
  refine (sameRead_expectIdent htype.cursor).bind fun name name' _ hname => ?_
  refine .ok ⟨?_, hname.cursor⟩
  simp [Parameter.relabel, Parameter.ofName, hname.value, htype.value]

theorem sameRead_parameters {done done' : List Parameter}
    (hdone : done.map (·.relabel spanless) = done'.map (·.relabel spanless)) (h : c.Alike c') :
    SameRead (Abreast (·.map (·.relabel spanless))) (parameters done c) (parameters done' c') := by
  induction c using Cursor.before_induction generalizing done done' c' with
  | step c ih =>
    rw [parameters_turn, parameters_turn]
    refine (sameRead_parameter h).bind fun r r' hr hrr' => ?_
    rw [hrr'.cursor.check_eq]
    split
    · exact ih _ (before_advance_of_before (parameter_before hr)) (hrr'.cons hdone)
        hrr'.cursor.advance
    · exact sameRead_reverse (hrr'.cons hdone) hrr'.cursor

theorem sameRead_parameterList (h : c.Alike c') :
    SameRead (Abreast (·.map (·.relabel spanless))) (parameterList c) (parameterList c') := by
  rw [parameterList, parameterList, h.check_eq]
  split
  · exact .ok ⟨rfl, h⟩
  · exact sameRead_parameters rfl h

theorem sameRead_prototype (h : c.Alike c') :
    SameRead (Abreast (·.relabel spanless)) (prototype c) (prototype c') := by
  rw [prototype_eq, prototype_eq]
  refine (sameRead_typeName h).bind fun type type' _ htype => ?_
  refine (sameRead_expectIdent htype.cursor).bind fun name name' _ hname => ?_
  refine (sameRead_expect hname.cursor .lparen).bind fun _ _ _ hopen => ?_
  refine (sameRead_parameterList hopen.cursor).bind fun params params' _ hparams => ?_
  refine (sameRead_expect hparams.cursor .rparen).bind fun _ _ _ hclose => ?_
  refine .ok ⟨?_, hclose.cursor⟩
  simp [Prototype.relabel, htype.value, hname.value, hparams.value]

theorem sameRead_variableDeclaration (h : c.Alike c') :
    SameRead (Abreast (·.relabel spanless)) (variableDeclaration c) (variableDeclaration c') := by
  refine (sameRead_typeName h).bind fun type type' _ htype => ?_
  refine (sameRead_expectIdent htype.cursor).bind fun name name' _ hname => ?_
  refine (sameRead_expect hname.cursor .semicolon).bind fun _ _ _ hclose => ?_
  refine .ok ⟨?_, hclose.cursor⟩
  simp [VariableDeclaration.relabel, htype.value, hname.value]

theorem sameRead_variableDeclarations {done done' : List VariableDeclaration}
    (hdone : done.map (·.relabel spanless) = done'.map (·.relabel spanless)) (h : c.Alike c') :
    SameRead (Abreast (·.map (·.relabel spanless))) (variableDeclarations done c)
      (variableDeclarations done' c') := by
  induction c using Cursor.before_induction generalizing done done' c' with
  | step c ih =>
    rw [variableDeclarations_turn, variableDeclarations_turn, h.check_eq]
    split
    · exact (sameRead_variableDeclaration h).bind fun r r' hr hrr' =>
        ih _ (variableDeclaration_before hr) (hrr'.cons hdone) hrr'.cursor
    · exact sameRead_reverse hdone h

theorem sameRead_statement (h : c.Alike c') :
    SameRead (Abreast (·.relabel spanless)) (statement c) (statement c') := by
  by_cases hk : c.kind = .returnWord
  · rw [statement_of_return hk, statement_of_return (h.kind_eq ▸ hk)]
    refine (sameRead_expression h.advance).bind fun value value' _ hvalue => ?_
    refine (sameRead_expect hvalue.cursor .semicolon).bind fun _ _ _ hclose => ?_
    exact .ok ⟨by simp [Stmt.relabel, hvalue.value], hclose.cursor⟩
  · rw [statement_of_expression hk, statement_of_expression (h.kind_eq ▸ hk)]
    refine (sameRead_expression h).bind fun value value' _ hvalue => ?_
    -- the help for a missing semicolon cites the place of the expression
    refine SameRead.bind ((sameRead_expect hvalue.cursor .semicolon).mapError
      fun _ _ hfail => hfail.addHelp _ _) fun _ _ _ hclose => ?_
    exact .ok ⟨by simp [Stmt.relabel, hvalue.value], hclose.cursor⟩

theorem sameRead_statements {done done' : List Stmt}
    (hdone : done.map (·.relabel spanless) = done'.map (·.relabel spanless)) (h : c.Alike c') :
    SameRead (Abreast (·.map (·.relabel spanless))) (statements done c) (statements done' c') := by
  induction c using Cursor.before_induction generalizing done done' c' with
  | step c ih =>
    rw [statements_turn, statements_turn, h.check_eq]
    split
    · exact sameRead_reverse hdone h
    · exact (sameRead_statement h).bind fun r r' hr hrr' =>
        ih _ (statement_before hr) (hrr'.cons hdone) hrr'.cursor

theorem sameRead_body (h : c.Alike c') :
    SameRead (Abreast (·.relabel spanless)) (body c) (body c') := by
  refine (sameRead_expect h .lbrace).bind fun _ _ _ hopen => ?_
  refine (sameRead_variableDeclarations rfl hopen.cursor).bind fun locals locals' _ hlocals => ?_
  refine (sameRead_statements rfl hlocals.cursor).bind fun ss ss' _ hss => ?_
  refine (sameRead_expect hss.cursor .rbrace).bind fun _ _ _ hclose => ?_
  refine .ok ⟨?_, hclose.cursor⟩
  simp [FunctionBody.relabel, hlocals.value, hss.value]

def Item.relabel (r : Relabelling) : Item → Item
  | .declaration d => .declaration (d.relabel r)
  | .definition d => .definition (d.relabel r)

theorem sameRead_afterPrototype {p p' : Prototype}
    (hp : p.relabel spanless = p'.relabel spanless) (h : c.Alike c') :
    SameRead (Abreast (·.relabel spanless)) (afterPrototype p c) (afterPrototype p' c') := by
  rw [afterPrototype, afterPrototype, h.kind_eq]
  cases c'.kind with
  | semicolon =>
    exact .ok ⟨by simp [Item.relabel, FunctionDeclaration.relabel, hp], h.advance⟩
  | lbrace =>
    refine (sameRead_body h).bind fun b b' _ hb => ?_
    exact .ok ⟨by simp [Item.relabel, FunctionDefinition.relabel, hp, hb.value], hb.cursor⟩
  | _ => exact .error ((alike_unexpected h _ _).addHelp _ _)

theorem sameRead_item (h : c.Alike c') :
    SameRead (Abreast (·.relabel spanless)) (item c) (item c') := by
  rw [item_eq, item_eq]
  exact (sameRead_prototype h).bind fun p p' _ hp => sameRead_afterPrototype hp.value hp.cursor

theorem sameRead_items {declarations declarations' : List FunctionDeclaration}
    {definitions definitions' : List FunctionDefinition}
    (hdeclarations : declarations.map (·.relabel spanless)
      = declarations'.map (·.relabel spanless))
    (hdefinitions : definitions.map (·.relabel spanless) = definitions'.map (·.relabel spanless))
    (h : c.Alike c') :
    SameRead (fun u u' => u.relabel spanless = u'.relabel spanless)
      (items declarations definitions c) (items declarations' definitions' c') := by
  induction c using Cursor.before_induction
    generalizing declarations declarations' definitions definitions' c' with
  | step c ih =>
    rw [items_turn, items_turn, h.atEnd_eq]
    split
    · refine .ok ?_
      simp [SourceUnit.relabel, hdeclarations, hdefinitions]
    · refine (sameRead_item h).bind fun r r' hr hrr' => ?_
      obtain ⟨hvalue, hcursor⟩ := hrr'
      obtain ⟨i, d⟩ := r
      obtain ⟨i', d'⟩ := r'
      have hbefore : c.Before d := item_before hr
      cases i with
      | declaration f =>
        cases i' with
        | declaration f' =>
          refine ih d hbefore ?_ hdefinitions hcursor
          rw [List.map_cons, List.map_cons, Item.declaration.inj hvalue, hdeclarations]
        | definition f' => cases hvalue
      | definition f =>
        cases i' with
        | declaration f' => cases hvalue
        | definition f' =>
          refine ih d hbefore hdeclarations ?_ hcursor
          rw [List.map_cons, List.map_cons, Item.definition.inj hvalue, hdefinitions]

end Grammar

/-- Token lists with the same kinds give the same program up to spans, or are refused alike. -/
theorem Program.sameRead_parse {tokens tokens' : List Token}
    (h : tokens.map (·.kind) = tokens'.map (·.kind)) (name : String) :
    Grammar.SameRead (fun p p' => p.relabel spanless = p'.relabel spanless) (parse tokens name)
      (parse tokens' name) := by
  refine (Grammar.sameRead_items rfl rfl (Cursor.alike_ofTokens h)).bind fun u u' _ hu => .ok ?_
  rw [relabel, relabel, hu]

end MiniC
