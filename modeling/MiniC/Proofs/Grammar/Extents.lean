import MiniC.Proofs.Grammar.ReadingPrograms
import MiniC.Proofs.Token.Order
import MiniC.Proofs.Tree.Nesting

/-! # Where trees lie

What a reader makes of tokens that stand in order lies between the cursor that it starts from and
the one that it ends at, and is nested. For expressions this is an invariant of reading operand by
operand: all that is held in the level and in the open brackets stands in one row, and closing a
bracket or joining two operands puts the end of that row into one tree.
-/

namespace MiniC

open Grammar

variable {tokens : List Token} {p q : Position}

namespace Cursor

variable {c : Cursor}

theorem On.row (ho : Token.InOrder tokens) (h : c.On tokens) (hk : c.kind ≠ .eof) :
    Span.Row c.span.start [c.span] c.advance.span.start := by
  refine ⟨le_refl _, ho.proper _ h.mem hk, ?_⟩
  obtain ⟨hlt, hget⟩ := List.getElem?_eq_some_iff.mp h.getElem?
  have hnext := (h.advance hk).getElem?
  rw [position_advance hk] at hnext
  obtain ⟨hlt', hget'⟩ := List.getElem?_eq_some_iff.mp hnext
  have hprecedes := List.pairwise_iff_getElem.mp ho.precedes _ _ hlt hlt' (Nat.lt_succ_self _)
  rwa [hget, hget'] at hprecedes

end Cursor

/-- What a reader gives lies between its cursors. -/
def Lays {α : Type} (tokens : List Token) (extent : α → Extent)
    (read : Cursor → Except Failure (α × Cursor)) : Prop :=
  ∀ c a d, c.On tokens → read c = .ok (a, d) →
    Laid tokens c.span.start [extent a] d.span.start ∧ d.On tokens

namespace Grammar

variable {c d : Cursor} {k : TokenKind} {e : Expr} {l : Level} {enclosing : Enclosing}
  {before : List Extent}

theorem laid_token (ho : Token.InOrder tokens) (h : c.On tokens) (hk : c.kind ≠ .eof) :
    Laid tokens c.span.start [c.span.extent] c.advance.span.start ∧ c.advance.On tokens :=
  ⟨⟨h.row ho hk, by simp [Span.extent]⟩, h.advance hk⟩

theorem laid_expect {t : Token} (ho : Token.InOrder tokens) (hc : c.On tokens) (hk : k ≠ .eof)
    (h : c.expect k = .ok (t, d)) :
    Laid tokens c.span.start [t.span.extent] d.span.start ∧ d.On tokens := by
  rw [Cursor.expect_eq] at h
  split at h
  next hcheck =>
    have hkind : c.kind = k := by simpa [Cursor.check] using hcheck
    cases h
    exact laid_token ho hc (hkind ▸ hk)
  · cases h

theorem laid_expectIdent {name : String} {span : Span} (ho : Token.InOrder tokens)
    (hc : c.On tokens) (h : c.expectIdent = .ok ((name, span), d)) :
    Laid tokens c.span.start [span.extent] d.span.start ∧ ⟨.ident name, span⟩ ∈ tokens ∧
      d.On tokens := by
  rw [Cursor.expectIdent_eq] at h
  split at h
  next hkind =>
    cases h
    obtain ⟨hlaid, hd⟩ := laid_token ho hc (by simp [hkind])
    have hmem := hc.mem
    rw [show c.current = ⟨c.kind, c.span⟩ from rfl, hkind] at hmem
    exact ⟨hlaid, hmem, hd⟩
  · cases h

theorem word_int (span : Span) : TypeName.word ⟨"int", span⟩ = ⟨.intWord, span⟩ := by
  simp [TypeName.word, TokenKind.ofWord]

theorem laid_typeName {type : TypeName} (ho : Token.InOrder tokens) (hc : c.On tokens)
    (h : typeName c = .ok (type, d)) :
    Laid tokens c.span.start [type.span.extent] d.span.start ∧ type.word ∈ tokens ∧
      d.On tokens := by
  obtain ⟨hkind, rfl, rfl⟩ := typeName_eq_ok h
  obtain ⟨hlaid, hd⟩ := laid_token ho hc (by simp [hkind])
  have hmem := hc.mem
  rw [show c.current = ⟨c.kind, c.span⟩ from rfl, hkind] at hmem
  exact ⟨hlaid, word_int c.span ▸ hmem, hd⟩

/-- The part of a left operand that waits for its right one. -/
def leftExtents (left : Option (Expr × BinaryOp)) : List Extent :=
  (left.map (·.1.extent)).toList

end Grammar

namespace Level

def targetOperand (l : Level) : Option (Expr × BinaryOp) :=
  l.target.map fun (name, span) => (.identifier name span none, .assign)

theorem assignment_eq (l : Level) (e : Expr) :
    l.assignment e = joinOperand l.targetOperand (l.additive e) := by
  unfold assignment targetOperand
  cases l.target <;> rfl

def extents (l : Level) : List Extent :=
  leftExtents l.targetOperand ++ (leftExtents l.sum ++ leftExtents l.product)

@[simp] theorem extents_empty : empty.extents = [] := rfl

end Level

/-- The callee of a call stands in the row as a name does. -/
def Bracket.extents : Bracket → List Extent
  | group => []
  | call callee calleeSpan args =>
    (Expr.identifier callee calleeSpan none).extent :: args.reverse.map (·.extent)

/-- All that was read before the innermost level. -/
def Enclosing.extents : Enclosing → List Extent
  | [] => []
  | (bracket, outer) :: enclosing =>
    Enclosing.extents enclosing ++ (outer.extents ++ bracket.extents)

/-- All that was read stands in one row up to the cursor. -/
def Progress.Lies (tokens : List Token) (p : Position) : Progress → Prop
  | .operand l enclosing c =>
    Laid tokens p (Enclosing.extents enclosing ++ l.extents) c.span.start ∧ c.On tokens
  | .complete e c => Laid tokens p [e.extent] c.span.start ∧ c.On tokens

namespace Grammar

variable {c d : Cursor} {k : TokenKind} {e : Expr} {l : Level} {enclosing : Enclosing}
  {before : List Extent} {progress : Progress}

/-- What holds of the row of all that was read and of the cursor behind it, whatever is read. -/
structure RowInvariant (I : List Extent → Cursor → Prop) : Prop where
  /-- A token that is no operand; before the first operand it opens a bracket. -/
  skip {row : List Extent} {c : Cursor} (h : I row c) (hk : c.kind ≠ .eof)
    (hrow : row ≠ [] ∨ c.kind = .lparen) : I row c.advance
  identifier {row : List Extent} {c : Cursor} {name : String} (h : I row c)
    (hk : c.kind = .ident name) : I (row ++ [(Expr.identifier name c.span none).extent]) c.advance
  number {row : List Extent} {c : Cursor} {value : Int32} (h : I row c)
    (hk : c.kind = .number value) : I (row ++ [(Expr.number value c.span).extent]) c.advance
  join {row : List Extent} {c : Cursor} {lhs e : Expr} {op : BinaryOp}
    (h : I (row ++ [lhs.extent, e.extent]) c) : I (row ++ [(Expr.ofOperands op lhs e).extent]) c
  close {row : List Extent} {c : Cursor} {bracket : Bracket} {e : Expr}
    (h : I (row ++ (bracket.extents ++ [e.extent])) c) (hk : c.kind = .rparen) :
    I (row ++ [(bracket.closed e c.span).extent]) c.advance
  callNil {row : List Extent} {c : Cursor} {name : String} {span : Span}
    (h : I (row ++ [(Expr.identifier name span none).extent]) c) (hk : c.kind = .rparen) :
    I (row ++ [(Expr.call name span [] (span.merge c.span) none).extent]) c.advance

/-- The invariant holds where reading an operand has led to. -/
def Holding (I : List Extent → Cursor → Prop) : Progress → Prop
  | .operand l enclosing c => I (Enclosing.extents enclosing ++ l.extents) c
  | .complete e c => I [e.extent] c

namespace RowInvariant

variable {I : List Extent → Cursor → Prop}

theorem joinOperand (hI : RowInvariant I) {left : Option (Expr × BinaryOp)}
    (h : I (before ++ (leftExtents left ++ [e.extent])) c) :
    I (before ++ [(Level.joinOperand left e).extent]) c := by
  cases left with
  | none => exact h
  | some left => exact hI.join h

theorem additive (hI : RowInvariant I)
    (h : I (before ++ (leftExtents l.sum ++ (leftExtents l.product ++ [e.extent]))) c) :
    I (before ++ [(l.additive e).extent]) c := by
  rw [← List.append_assoc] at h
  have hproduct := hI.joinOperand h
  rw [List.append_assoc] at hproduct
  exact hI.joinOperand hproduct

theorem assignment (hI : RowInvariant I) (h : I (before ++ (l.extents ++ [e.extent])) c) :
    I (before ++ [(l.assignment e).extent]) c := by
  simp only [Level.extents, List.append_assoc] at h
  rw [← List.append_assoc] at h
  have hsum := hI.additive h
  rw [List.append_assoc] at hsum
  rw [l.assignment_eq]
  exact hI.joinOperand hsum

/-- Before an operator the operand is joined with the left operands that bind as strongly. -/
theorem product (hI : RowInvariant I) {op : BinaryOp}
    (h : I (before ++ (l.extents ++ [e.extent])) c) :
    I (before ++ Level.extents { l with product := some (l.multiplicative e, op) }) c := by
  simp only [Level.extents, List.append_assoc] at h
  rw [← List.append_assoc, ← List.append_assoc] at h
  have hproduct := hI.joinOperand h
  rw [List.append_assoc, List.append_assoc] at hproduct
  exact hproduct

theorem sum (hI : RowInvariant I) {op : BinaryOp}
    (h : I (before ++ (l.extents ++ [e.extent])) c) :
    I (before ++ Level.extents { target := l.target, sum := some (l.additive e, op) }) c := by
  simp only [Level.extents, List.append_assoc] at h
  rw [← List.append_assoc] at h
  have hsum := hI.additive h
  rw [List.append_assoc] at hsum
  exact hsum

theorem afterOperator_holding (hI : RowInvariant I)
    (hrow : I (Enclosing.extents enclosing ++ (l.extents ++ [e.extent])) c)
    (hn : ¬ c.kind.Closing) (h : afterOperand e l c enclosing = .ok progress) :
    Holding I progress := by
  have hnext : ∀ op : BinaryOp, c.kind = op.token →
      I (Enclosing.extents enclosing ++ (l.extents ++ [e.extent])) c.advance :=
    fun op hk => hI.skip hrow (hk ▸ op.token_ne_eof) (Or.inl (by simp))
  rcases c.kind.closing_cases with ⟨op, hop, hk⟩ | ⟨op, hop, hk⟩ | hk
  · rw [afterOperand_product hop hk] at h
    cases h
    exact hI.product (hnext op hk)
  · rw [afterOperand_sum hop hk] at h
    cases h
    exact hI.sum (hnext op hk)
  · exact absurd hk hn

theorem afterOperand_holding (hI : RowInvariant I)
    (hrow : I (Enclosing.extents enclosing ++ (l.extents ++ [e.extent])) c)
    (h : afterOperand e l c enclosing = .ok progress) : Holding I progress := by
  induction enclosing generalizing e l c with
  | nil =>
    by_cases hn : c.kind.Closing
    · rw [afterOperand_of_closing hn] at h
      cases h
      exact hI.assignment hrow
    · exact hI.afterOperator_holding hrow hn h
  | cons frame enclosing ih =>
    by_cases hn : c.kind.Closing
    · rw [afterOperand_of_closing hn] at h
      obtain ⟨bracket, outer⟩ := frame
      have hassign := hI.assignment hrow
      simp only [Enclosing.extents, List.append_assoc] at hassign
      rcases bracket.ends_or_goesOn c.kind with hend | ⟨hk, callee, calleeSpan, args, rfl⟩
      · rw [afterAssignment_of_end hend] at h
        obtain ⟨⟨close, d⟩, hx, h⟩ := bind_eq_ok_iff.mp h
        obtain rfl := Cursor.current_of_expect hx
        obtain ⟨hk, rfl⟩ := Cursor.expect_eq_ok hx
        refine ih ?_ h
        rw [← List.append_assoc] at hassign ⊢
        exact hI.close hassign hk
      · rw [afterAssignment_comma hk] at h
        cases h
        have hcomma := hI.skip hassign (by simp [hk]) (Or.inl (by simp))
        simpa [Holding, Enclosing.extents, Bracket.extents] using hcomma
    · exact hI.afterOperator_holding hrow hn h

theorem operand_holding (hI : RowInvariant I)
    (hrow : I (Enclosing.extents enclosing ++ l.extents) c)
    (h : operand l enclosing c = .ok progress) : Holding I progress := by
  cases operand_step h with
  | target name hname hempty hnext =>
    obtain ⟨hk, -⟩ := Cursor.kind_advance hnext (by simp) (by simp [hname])
    obtain rfl := Level.eq_empty_of_isEmpty hempty
    rw [Level.extents_empty, List.append_nil] at hrow
    have hequals := hI.skip (hI.identifier hrow hname) (by simp [hk]) (Or.inl (by simp))
    exact hequals
  | call name hname hnext hclose h =>
    obtain ⟨hk, -⟩ := Cursor.kind_advance hnext (by simp) (by simp [hname])
    have hk₂ : c.advance.advance.kind = .rparen := by simpa [Cursor.check] using hclose
    have hopen := hI.skip (hI.identifier hrow hname) (by simp [hk]) (Or.inl (by simp))
    refine hI.afterOperand_holding ?_ h
    rw [← List.append_assoc]
    exact hI.callNil hopen hk₂
  | arguments name hname hnext =>
    obtain ⟨hk, -⟩ := Cursor.kind_advance hnext (by simp) (by simp [hname])
    have hopen := hI.skip (hI.identifier hrow hname) (by simp [hk]) (Or.inl (by simp))
    simpa [Holding, Enclosing.extents, Bracket.extents] using hopen
  | identifier name hname h =>
    refine hI.afterOperand_holding ?_ h
    rw [← List.append_assoc]
    exact hI.identifier hrow hname
  | number value hvalue h =>
    refine hI.afterOperand_holding ?_ h
    rw [← List.append_assoc]
    exact hI.number hrow hvalue
  | group hparen =>
    have hopen := hI.skip hrow (by simp [hparen]) (Or.inr hparen)
    simpa [Holding, Enclosing.extents, Bracket.extents] using hopen

theorem operands_holding (hI : RowInvariant I)
    (hrow : I (Enclosing.extents enclosing ++ l.extents) c)
    (h : operands l enclosing c = .ok (e, d)) : I [e.extent] d := by
  fun_induction operands l enclosing c with
  | case1 => cases h
  | case2 l enclosing c e' d' hoperand =>
    cases h
    exact hI.operand_holding hrow hoperand
  | case3 l enclosing c l' enclosing' c' hoperand hb ih =>
    exact ih (hI.operand_holding hrow hoperand) h
  | case4 => cases h

theorem expression_holding (hI : RowInvariant I) (hrow : I [] c) (h : expression c = .ok (e, d)) :
    I [e.extent] d := by
  have hempty : I (Enclosing.extents [] ++ Level.empty.extents) c := hrow
  exact hI.operands_holding hempty h

end RowInvariant

/-- A bracket that is closed holds all of its row; what the callee's name is stays known. -/
theorem laid_closed {bracket : Bracket} {close : Span}
    (h : Laid tokens p (before ++ (bracket.extents ++ [e.extent, close.extent])) q) :
    Laid tokens p (before ++ [(bracket.closed e close).extent]) q := by
  cases bracket with
  | group => exact h.sublist (by simp [Bracket.extents, Bracket.closed])
  | call callee calleeSpan args =>
    have hcallee := h.nested (Expr.identifier callee calleeSpan none).extent
      (by simp [Bracket.extents]) (.expr (.identifier callee calleeSpan none))
      (by simp [Expr.extent, Expr.parts, Expr.node])
    have hparts : (Bracket.call callee calleeSpan args).extents ++ [e.extent, close.extent]
        = (Expr.identifier callee calleeSpan none).extent ::
          ((e :: args).reverse.map (·.extent) ++ [close.extent]) := by
      simp [Bracket.extents]
    rw [hparts] at h
    refine Laid.wrap (n := .expr ((Bracket.call callee calleeSpan args).closed e close)) h rfl
      ?_ rfl rfl ?_ hcallee.written
    · have hargs : (Expr.partsAll (e :: args).reverse).map (·.node)
          = ((e :: args).reverse.map (·.extent)).flatMap (·.nodes) := by
        rw [Expr.partsAll_eq_flatMap, List.map_flatMap, List.flatMap_map]
        rfl
      rw [List.flatMap_cons, List.flatMap_append, ← hargs]
      refine List.cons_subset_cons _ ?_
      exact List.subset_append_of_subset_right _ (List.subset_append_left _ _)
    · simp only [List.map_cons, List.map_append, List.map_map]
      exact (List.sublist_append_left _ _).cons_cons _

theorem laid_call_nil {name : String} {span close : Span}
    (h : Laid tokens p (before ++ [(Expr.identifier name span none).extent, close.extent]) q) :
    Laid tokens p (before ++ [(Expr.call name span [] (span.merge close) none).extent]) q := by
  have hcallee := h.nested (Expr.identifier name span none).extent (by simp)
    (.expr (.identifier name span none)) (by simp [Expr.extent, Expr.parts, Expr.node])
  rw [← List.nil_append [close.extent]] at h
  exact Laid.wrap (n := .expr (.call name span [] (span.merge close) none)) h rfl
    (by simp [Expr.extent, Expr.parts, Expr.node, Expr.partsAll]) rfl rfl
    (by simp [Expr.extent, Expr.span]) hcallee.written

theorem laid_identifier {name : String} (ho : Token.InOrder tokens) (hc : c.On tokens)
    (hk : c.kind = .ident name) :
    Laid tokens c.span.start [(Expr.identifier name c.span none).extent] c.advance.span.start ∧
      c.advance.On tokens := by
  obtain ⟨htoken, hd⟩ := laid_token ho hc (by simp [hk])
  have hword : [⟨.ident name, c.span⟩] = [c.current] := by rw [← hk]; rfl
  exact ⟨Laid.leaf (n := .expr (.identifier name c.span none)) htoken.row hc.mem rfl rfl hword, hd⟩

theorem laid_number {value : Int32} (ho : Token.InOrder tokens) (hc : c.On tokens)
    (hk : c.kind = .number value) :
    Laid tokens c.span.start [(Expr.number value c.span).extent] c.advance.span.start ∧
      c.advance.On tokens := by
  obtain ⟨htoken, hd⟩ := laid_token ho hc (by simp [hk])
  have hword : [⟨.number value, c.span⟩] = [c.current] := by rw [← hk]; rfl
  exact ⟨Laid.leaf (n := .expr (.number value c.span)) htoken.row hc.mem rfl rfl hword, hd⟩

theorem rowInvariant_laid (ho : Token.InOrder tokens) (p : Position) :
    RowInvariant fun row c => Laid tokens p row c.span.start ∧ c.On tokens where
  skip := by
    rintro row c ⟨hlaid, hc⟩ hk -
    obtain ⟨htoken, hd⟩ := laid_token ho hc hk
    exact ⟨hlaid.to_le htoken.row.le, hd⟩
  identifier := by
    rintro row c name ⟨hlaid, hc⟩ hk
    obtain ⟨he, hd⟩ := laid_identifier ho hc hk
    exact ⟨hlaid.append he, hd⟩
  number := by
    rintro row c value ⟨hlaid, hc⟩ hk
    obtain ⟨he, hd⟩ := laid_number ho hc hk
    exact ⟨hlaid.append he, hd⟩
  join := by
    rintro row c lhs e op ⟨hlaid, hc⟩
    exact ⟨Laid.wrap (n := .expr (.ofOperands op lhs e)) (m := []) hlaid rfl
      (by simp [Expr.extent, Expr.ofOperands, Expr.parts, Expr.node]) rfl rfl (.refl _)
      (by simp [Expr.ofOperands, Node.words]), hc⟩
  close := by
    rintro row c bracket e ⟨hlaid, hc⟩ hk
    obtain ⟨hclose, hd⟩ := laid_token ho hc (by simp [hk])
    have hrow := hlaid.append hclose
    exact ⟨laid_closed (by simpa only [List.append_assoc, List.singleton_append] using hrow), hd⟩
  callNil := by
    rintro row c name span ⟨hlaid, hc⟩ hk
    obtain ⟨hclose, hd⟩ := laid_token ho hc (by simp [hk])
    have hrow := hlaid.append hclose
    exact ⟨laid_call_nil (by simpa only [List.append_assoc, List.singleton_append] using hrow), hd⟩

theorem operands_lies (ho : Token.InOrder tokens) (hc : c.On tokens)
    (hlaid : Laid tokens p (Enclosing.extents enclosing ++ l.extents) c.span.start)
    (h : operands l enclosing c = .ok (e, d)) : Progress.Lies tokens p (.complete e d) :=
  (rowInvariant_laid ho p).operands_holding ⟨hlaid, hc⟩ h

theorem lays_expression (ho : Token.InOrder tokens) : Lays tokens Expr.extent expression :=
  fun _ _ _ hc h => operands_lies ho hc (.nil (le_refl _)) h

theorem lays_parameter (ho : Token.InOrder tokens) : Lays tokens Parameter.extent parameter := by
  intro c x d hc h
  obtain ⟨⟨type, c₁⟩, ht, h⟩ := bind_eq_ok_iff.mp h
  obtain ⟨⟨⟨name, span⟩, c₂⟩, hn, h⟩ := bind_eq_ok_iff.mp h
  cases h
  obtain ⟨htype, htypeWord, hc₁⟩ := laid_typeName ho hc ht
  obtain ⟨hname, hnameWord, hc₂⟩ := laid_expectIdent ho hc₁ hn
  exact ⟨Laid.whole (n := .parameter (.ofName type name span)) (m := []) (htype.append hname) rfl
    (by simp [Parameter.extent]) rfl rfl (.refl _)
    (by simpa [Node.words, Parameter.ofName] using ⟨htypeWord, hnameWord⟩), hc₂⟩

theorem parameters_laid {done params : List Parameter} (ho : Token.InOrder tokens)
    (hc : c.On tokens) (h : parameters done c = .ok (params, d)) :
    ∃ added, params = done.reverse ++ added ∧
      Laid tokens c.span.start (added.map (·.extent)) d.span.start ∧ d.On tokens := by
  fun_induction parameters done c with
  | case1 => cases h
  | case2 done c x c' hx hcomma hb ih =>
    obtain ⟨hlaid, hc'⟩ := lays_parameter ho _ _ _ hc hx
    have hk : c'.kind = .comma := by simpa [Cursor.check] using hcomma
    obtain ⟨hskip, hc''⟩ := laid_token ho hc' (by simp [hk])
    obtain ⟨added, rfl, hrest, hd⟩ := ih hc'' h
    exact ⟨x :: added, by simp, (hlaid.to_le hskip.row.le).append hrest, hd⟩
  | case3 => cases h
  | case4 done c x c' hx hcomma =>
    cases h
    obtain ⟨hlaid, hc'⟩ := lays_parameter ho _ _ _ hc hx
    exact ⟨[x], by simp, hlaid, hc'⟩

theorem parameterList_laid {params : List Parameter} (ho : Token.InOrder tokens)
    (hc : c.On tokens) (h : parameterList c = .ok (params, d)) :
    Laid tokens c.span.start (params.map (·.extent)) d.span.start ∧ d.On tokens := by
  unfold parameterList at h
  split at h
  · cases h
    exact ⟨.nil (le_refl _), hc⟩
  · obtain ⟨added, rfl, hlaid, hd⟩ := parameters_laid ho hc h
    exact ⟨hlaid, hd⟩

theorem lays_prototype (ho : Token.InOrder tokens) : Lays tokens Prototype.extent prototype := by
  intro c x d hc h
  rw [prototype_eq] at h
  obtain ⟨⟨type, c₁⟩, ht, h⟩ := bind_eq_ok_iff.mp h
  obtain ⟨⟨⟨name, span⟩, c₂⟩, hn, h⟩ := bind_eq_ok_iff.mp h
  obtain ⟨⟨opening, c₃⟩, hl, h⟩ := bind_eq_ok_iff.mp h
  obtain ⟨⟨params, c₄⟩, hp, h⟩ := bind_eq_ok_iff.mp h
  obtain ⟨⟨close, c₅⟩, hr, h⟩ := bind_eq_ok_iff.mp h
  cases h
  obtain ⟨htype, htypeWord, hc₁⟩ := laid_typeName ho hc ht
  obtain ⟨hname, hnameWord, hc₂⟩ := laid_expectIdent ho hc₁ hn
  obtain ⟨hopening, hc₃⟩ := laid_expect ho hc₂ (by simp) hl
  obtain ⟨hparams, hc₄⟩ := parameterList_laid ho hc₃ hp
  obtain ⟨hclose, hc₅⟩ := laid_expect ho hc₄ (by simp) hr
  have hrow := htype.append
    ((hname.to_le hopening.row.le).append (hparams.append hclose))
  refine ⟨Laid.whole (m := span.extent :: params.map Parameter.extent)
    (n := .prototype ⟨type, name, span, params, type.span.merge close.span⟩) hrow rfl
    ?_ rfl rfl ?_ (by simpa [Node.words] using ⟨htypeWord, hnameWord⟩), hc₅⟩
  · have hparams : params.map Node.parameter
        = (params.map Parameter.extent).flatMap (·.nodes) := by
      rw [List.flatMap_map]
      exact List.map_eq_flatMap
    simp [Prototype.extent, Prototype.nodes, hparams, Span.extent]
  · simp only [List.map_cons, List.map_append, List.map_map, List.cons_append]
    exact ((List.sublist_append_left _ _).cons_cons _).cons_cons _

theorem lays_variableDeclaration (ho : Token.InOrder tokens) :
    Lays tokens VariableDeclaration.extent variableDeclaration := by
  intro c x d hc h
  obtain ⟨⟨type, c₁⟩, ht, h⟩ := bind_eq_ok_iff.mp h
  obtain ⟨⟨⟨name, span⟩, c₂⟩, hn, h⟩ := bind_eq_ok_iff.mp h
  obtain ⟨⟨close, c₃⟩, hs, h⟩ := bind_eq_ok_iff.mp h
  cases h
  obtain ⟨htype, htypeWord, hc₁⟩ := laid_typeName ho hc ht
  obtain ⟨hname, hnameWord, hc₂⟩ := laid_expectIdent ho hc₁ hn
  obtain ⟨hclose, hc₃⟩ := laid_expect ho hc₂ (by simp) hs
  exact ⟨Laid.whole (n := .decl ⟨type, name, span, type.span.merge close.span, none⟩)
    (m := [span.extent]) (htype.append (hname.append hclose)) rfl
    (by simp [VariableDeclaration.extent]) rfl rfl (by simp [Span.extent])
    (by simpa [Node.words] using ⟨htypeWord, hnameWord⟩), hc₃⟩

theorem variableDeclarations_laid {done ds : List VariableDeclaration}
    (ho : Token.InOrder tokens) (hc : c.On tokens)
    (h : variableDeclarations done c = .ok (ds, d)) :
    ∃ added, ds = done.reverse ++ added ∧
      Laid tokens c.span.start (added.map (·.extent)) d.span.start ∧ d.On tokens := by
  fun_induction variableDeclarations done c with
  | case1 => cases h
  | case2 done c hint x c' hx hb ih =>
    obtain ⟨hlaid, hc'⟩ := lays_variableDeclaration ho _ _ _ hc hx
    obtain ⟨added, rfl, hrest, hd⟩ := ih hc' h
    exact ⟨x :: added, by simp, hlaid.append hrest, hd⟩
  | case3 => cases h
  | case4 done c hint =>
    cases h
    exact ⟨[], by simp, .nil (le_refl _), hc⟩

theorem lays_statement (ho : Token.InOrder tokens) : Lays tokens Stmt.extent statement := by
  intro c x d hc h
  unfold statement at h
  split at h
  next hret =>
    obtain ⟨⟨value, c₁⟩, hv, h⟩ := bind_eq_ok_iff.mp h
    obtain ⟨⟨close, c₂⟩, hs, h⟩ := bind_eq_ok_iff.mp h
    cases h
    have hk : c.kind = .returnWord := by simpa [Cursor.check] using hret
    obtain ⟨hreturn, hc₁⟩ := laid_token ho hc (by simp [hk])
    obtain ⟨hvalue, hc₂⟩ := lays_expression ho _ _ _ hc₁ hv
    obtain ⟨hclose, hc₃⟩ := laid_expect ho hc₂ (by simp) hs
    exact ⟨Laid.whole (n := .ret value (c.span.merge close.span)) (m := [value.extent])
      (hreturn.append (hvalue.append hclose)) rfl
      (by simp [Stmt.extent, Stmt.nodes, Expr.extent, Span.extent]) rfl rfl
      (by simp [Expr.extent]) (by simp [Node.words]), hc₃⟩
  · obtain ⟨⟨value, c₁⟩, hv, h⟩ := bind_eq_ok_iff.mp h
    obtain ⟨⟨close, c₂⟩, hs, h⟩ := bind_eq_ok_iff.mp h
    cases h
    obtain ⟨hvalue, hc₁⟩ := lays_expression ho _ _ _ hc hv
    obtain ⟨hclose, hc₂⟩ := laid_expect ho hc₁ (by simp) (mapError_eq_ok_iff.mp hs)
    exact ⟨hvalue.to_le hclose.row.le, hc₂⟩

theorem statements_laid {done ss : List Stmt} (ho : Token.InOrder tokens) (hc : c.On tokens)
    (h : statements done c = .ok (ss, d)) :
    ∃ added, ss = done.reverse ++ added ∧
      Laid tokens c.span.start (added.map (·.extent)) d.span.start ∧ d.On tokens := by
  fun_induction statements done c with
  | case1 done c hclose =>
    cases h
    exact ⟨[], by simp, .nil (le_refl _), hc⟩
  | case2 => cases h
  | case3 done c hclose x c' hx hb ih =>
    obtain ⟨hlaid, hc'⟩ := lays_statement ho _ _ _ hc hx
    obtain ⟨added, rfl, hrest, hd⟩ := ih hc' h
    exact ⟨x :: added, by simp, hlaid.append hrest, hd⟩
  | case4 => cases h

theorem lays_body (ho : Token.InOrder tokens) : Lays tokens FunctionBody.extent body := by
  intro c b d hc h
  obtain ⟨⟨opening, c₁⟩, hl, h⟩ := bind_eq_ok_iff.mp h
  obtain ⟨⟨locals, c₂⟩, hv, h⟩ := bind_eq_ok_iff.mp h
  obtain ⟨⟨ss, c₃⟩, hs, h⟩ := bind_eq_ok_iff.mp h
  obtain ⟨⟨close, c₄⟩, hr, h⟩ := bind_eq_ok_iff.mp h
  cases h
  obtain ⟨hopening, hc₁⟩ := laid_expect ho hc (by simp) hl
  obtain ⟨added, rfl, hlocals, hc₂⟩ := variableDeclarations_laid ho hc₁ hv
  obtain ⟨added', rfl, hstatements, hc₃⟩ := statements_laid ho hc₂ hs
  obtain ⟨hclose, hc₄⟩ := laid_expect ho hc₃ (by simp) hr
  have hrow := hopening.append ((hlocals.append hstatements).append hclose)
  refine ⟨Laid.whole (n := .body ⟨locals, ss, opening.span.merge close.span⟩)
    (m := locals.map VariableDeclaration.extent ++ ss.map Stmt.extent) hrow rfl
    ?_ rfl rfl ?_ (by simp [Node.words]), hc₄⟩
  · have hlocals : locals.map Node.decl
        = (locals.map VariableDeclaration.extent).flatMap (·.nodes) := by
      rw [List.flatMap_map]
      exact List.map_eq_flatMap
    have hstatements : ss.flatMap (·.nodes) = (ss.map Stmt.extent).flatMap (·.nodes) := by
      rw [List.flatMap_map]
      rfl
    simp [FunctionBody.extent, FunctionBody.nodes, hlocals, hstatements, Span.extent]
  · simp only [List.map_cons, List.map_append, List.map_map]
    exact (List.sublist_append_left _ _).cons _

def Item.extent : Item → Extent
  | .declaration d => d.extent
  | .definition d => d.extent

theorem lays_item (ho : Token.InOrder tokens) : Lays tokens Item.extent item := by
  intro c i d hc h
  obtain ⟨⟨x, c₁⟩, hp, h⟩ := bind_eq_ok_iff.mp h
  obtain ⟨hproto, hc₁⟩ := lays_prototype ho _ _ _ hc hp
  dsimp only at h
  split at h
  next hsemi =>
    cases h
    obtain ⟨hclose, hc₂⟩ := laid_token ho hc₁ (by simp [hsemi])
    exact ⟨Laid.whole (n := .declaration ⟨x, x.span.merge c₁.span, none⟩) (m := [])
      (hproto.append hclose) rfl
      (by simp [Item.extent, FunctionDeclaration.extent, FunctionDeclaration.nodes,
        Prototype.extent]) rfl rfl (by simp [Prototype.extent]) (by simp [Node.words]), hc₂⟩
  · obtain ⟨⟨b, c₂⟩, hb, h⟩ := bind_eq_ok_iff.mp h
    cases h
    obtain ⟨hbody, hc₂⟩ := lays_body ho _ _ _ hc₁ hb
    exact ⟨Laid.whole (n := .definition ⟨x, b, x.span.merge b.span, none⟩) (m := [])
      (hproto.append hbody) rfl
      (by simp [Item.extent, FunctionDefinition.extent, FunctionDefinition.nodes,
        Prototype.extent, FunctionBody.extent]) rfl rfl (.refl _) (by simp [Node.words]), hc₂⟩
  · cases h

end Grammar

end MiniC
