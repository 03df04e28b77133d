import MiniC.Grammar.Program
import MiniC.Proofs.Grammar.Step

/-! # Only sentences are read

What has been read of an expression is held in a level and in the open brackets around it. These
derive from the kinds read so far, and each operand read keeps that so. A reader that succeeds has
therefore read kinds that derive its tree.
-/

namespace MiniC

open Grammar

namespace Level

def TargetRead : Option (String × Span) → List TokenKind → Prop
  | none, ks => ks = []
  | some (name, _), ks => ks = [.ident name, .equals]

/-- The kinds of a left operand, if there is one, and its operator. -/
def OperandRead (rank : Rank) : Option (Expr × BinaryOp) → List TokenKind → Prop
  | none, ks => ks = []
  | some (e, op), ks => op.rank = rank ∧ ∃ ks', Derives rank ks' e ∧ ks = ks' ++ [op.token]

def Read (l : Level) (ks : List TokenKind) : Prop :=
  ∃ kt ka km, TargetRead l.target kt ∧ OperandRead .additive l.sum ka ∧
    OperandRead .multiplicative l.product km ∧ ks = kt ++ ka ++ km

variable {l : Level} {e : Expr} {op : BinaryOp} {ks kt ka km ko : List TokenKind}

theorem OperandRead.multiplicative (h : OperandRead .multiplicative l.product km)
    (he : Derives .call ko e) : Derives .multiplicative (km ++ ko) (l.multiplicative e) := by
  cases hp : l.product with
  | none =>
    rw [hp] at h
    rw [show km = [] from h, List.nil_append, multiplicative_of_none hp]
    exact .ofCall he
  | some left =>
    rw [hp] at h
    obtain ⟨hop, ks', hd, rfl⟩ := h
    rw [List.append_assoc, multiplicative_of_some hp]
    exact .product hop _ hd he

theorem OperandRead.additive (h : OperandRead .additive l.sum ka)
    (he : Derives .multiplicative ko (l.multiplicative e)) :
    Derives .additive (ka ++ ko) (l.additive e) := by
  cases hp : l.sum with
  | none =>
    rw [hp] at h
    rw [show ka = [] from h, List.nil_append, additive_of_none hp]
    exact .ofMultiplicative he
  | some left =>
    rw [hp] at h
    obtain ⟨hop, ks', hd, rfl⟩ := h
    rw [List.append_assoc, additive_of_some hp]
    exact .sum hop _ hd he

theorem TargetRead.assignment (h : TargetRead l.target kt)
    (he : Derives .additive ko (l.additive e)) :
    Derives .assignment (kt ++ ko) (l.assignment e) := by
  cases hp : l.target with
  | none =>
    rw [hp] at h
    rw [show kt = [] from h, List.nil_append, assignment_of_none hp]
    exact .ofAdditive he
  | some target =>
    rw [hp] at h
    rw [show kt = _ from h, assignment_of_some hp]
    exact .assign _ _ _ he

theorem read_empty_iff : Read .empty ks ↔ ks = [] := by
  constructor
  · rintro ⟨kt, ka, km, rfl, rfl, rfl, rfl⟩
    rfl
  · rintro rfl
    exact ⟨[], [], [], rfl, rfl, rfl, rfl⟩

theorem eq_empty_of_isEmpty (h : l.isEmpty = true) : l = .empty := by
  simp only [isEmpty, Bool.and_eq_true, Option.isNone_iff_eq_none] at h
  obtain ⟨target, sum, product⟩ := l
  obtain ⟨⟨rfl, rfl⟩, rfl⟩ := h
  rfl

theorem read_target (name : String) (span : Span) :
    Read { target := some (name, span) } [.ident name, .equals] :=
  ⟨_, [], [], rfl, rfl, rfl, rfl⟩

theorem Read.product (h : l.Read ks) (he : Derives .call ko e) (hop : op.rank = .multiplicative) :
    Read { l with product := some (l.multiplicative e, op) } (ks ++ ko ++ [op.token]) := by
  obtain ⟨kt, ka, km, ht, ha, hm, rfl⟩ := h
  exact ⟨kt, ka, _, ht, ha, ⟨hop, _, hm.multiplicative he, rfl⟩, by simp⟩

theorem Read.sum (h : l.Read ks) (he : Derives .call ko e) (hop : op.rank = .additive) :
    Read { target := l.target, sum := some (l.additive e, op) } (ks ++ ko ++ [op.token]) := by
  obtain ⟨kt, ka, km, ht, ha, hm, rfl⟩ := h
  exact ⟨kt, _, [], ht, ⟨hop, _, ha.additive (hm.multiplicative he), rfl⟩, rfl, by simp⟩

theorem Read.assignment (h : l.Read ks) (he : Derives .call ko e) :
    Derives .assignment (ks ++ ko) (l.assignment e) := by
  obtain ⟨kt, ka, km, ht, ha, hm, rfl⟩ := h
  simpa only [List.append_assoc] using ht.assignment (ha.additive (hm.multiplicative he))

end Level

def Bracket.Read : Bracket → List TokenKind → Prop
  | .group, ks => ks = [.lparen]
  | .call callee _ args, ks => ∃ parts : List (List TokenKind × Expr),
      (∀ a ∈ parts, Derives .assignment a.1 a.2) ∧ args.reverse = parts.map (·.2) ∧
        ks = .ident callee :: .lparen :: parts.flatMap (fun a => a.1 ++ [.comma])

variable {bracket : Bracket} {e : Expr} {ka kb : List TokenKind}

theorem Bracket.Read.argument {callee : String} {calleeSpan : Span} {args : List Expr}
    (hb : (Bracket.call callee calleeSpan args).Read kb) (h : Derives .assignment ka e) :
    (Bracket.call callee calleeSpan (e :: args)).Read (kb ++ (ka ++ [.comma])) := by
  obtain ⟨parts, hp, hargs, rfl⟩ := hb
  refine ⟨parts ++ [(ka, e)], ?_, by simp [hargs], by simp⟩
  exact List.forall_mem_append.mpr ⟨hp, List.forall_mem_singleton.mpr h⟩

theorem Bracket.Read.closed (hb : bracket.Read kb) (h : Derives .assignment ka e) (close : Span) :
    Derives .call (kb ++ (ka ++ [.rparen])) (bracket.closed e close) := by
  cases bracket with
  | group =>
    rw [show kb = _ from hb]
    exact .ofPrimary (.group h)
  | call callee calleeSpan args =>
    obtain ⟨parts, hp, hargs, rfl⟩ := hb
    have hp' : ∀ a ∈ parts ++ [(ka, e)], Derives .assignment a.1 a.2 :=
      List.forall_mem_append.mpr ⟨hp, List.forall_mem_singleton.mpr h⟩
    have hargs' : (e :: args).reverse = (parts ++ [(ka, e)]).map (·.2) := by simp [hargs]
    have hd := Derives.call callee calleeSpan (calleeSpan.merge close) _ hp'
    rw [List.map_append, List.map_singleton, commaSeparated_middle] at hd
    rw [Bracket.closed, hargs']
    simpa [List.flatMap_map] using hd

def Enclosing.Read : Enclosing → List TokenKind → Prop
  | [], ks => ks = []
  | (bracket, outer) :: enclosing, ks => ∃ ke kl kb, Enclosing.Read enclosing ke ∧
      outer.Read kl ∧ bracket.Read kb ∧ ks = ke ++ kl ++ kb

/-- Of the kinds `all`, those before the cursor have been read into the state. -/
def Progress.Read (all : List TokenKind) : Progress → Prop
  | .operand l enclosing c => ∃ ke kl, Enclosing.Read enclosing ke ∧ l.Read kl ∧
      all = ke ++ kl ++ c.kinds ∧ c.Ended
  | .complete e c => ∃ ks, Derives .assignment ks e ∧ all = ks ++ c.kinds ∧ c.Ended

namespace Grammar

variable {e : Expr} {l : Level} {c : Cursor} {enclosing : Enclosing}
  {ks ke kl ko all : List TokenKind} {p : Progress}

theorem afterOperand_read_operator (hE : Enclosing.Read enclosing ke) (hl : l.Read kl)
    (he : Derives .call ko e) (hc : c.Ended) (hk : all = ke ++ kl ++ ko ++ c.kinds)
    (hn : ¬ c.kind.Closing) (h : afterOperand e l c enclosing = .ok p) : p.Read all := by
  rcases c.kind.closing_cases with ⟨op, hop, hk'⟩ | ⟨op, hop, hk'⟩ | hk'
  · rw [afterOperand_product hop hk'] at h
    cases h
    obtain ⟨ha, hc'⟩ := hc.advance (hk' ▸ op.token_ne_eof)
    exact ⟨_, _, hE, hl.product he hop, by rw [hk, ha, hk']; simp, hc'⟩
  · rw [afterOperand_sum hop hk'] at h
    cases h
    obtain ⟨ha, hc'⟩ := hc.advance (hk' ▸ op.token_ne_eof)
    exact ⟨_, _, hE, hl.sum he hop, by rw [hk, ha, hk']; simp, hc'⟩
  · exact absurd hk' hn

theorem afterOperand_read (hE : Enclosing.Read enclosing ke) (hl : l.Read kl)
    (he : Derives .call ko e) (hc : c.Ended) (hk : all = ke ++ kl ++ ko ++ c.kinds)
    (h : afterOperand e l c enclosing = .ok p) : p.Read all := by
  induction enclosing generalizing e l c ke kl ko with
  | nil =>
    by_cases hn : c.kind.Closing
    · rw [afterOperand_of_closing hn] at h
      cases h
      rw [show ke = [] from hE, List.nil_append] at hk
      exact ⟨_, hl.assignment he, hk, hc⟩
    · exact afterOperand_read_operator hE hl he hc hk hn h
  | cons frame enclosing ih =>
    by_cases hn : c.kind.Closing
    · rw [afterOperand_of_closing hn] at h
      obtain ⟨bracket, outer⟩ := frame
      obtain ⟨ke', kl', kb, hE', hl', hb, rfl⟩ := hE
      rcases bracket.ends_or_goesOn c.kind with hend | ⟨hr, callee, calleeSpan, args, rfl⟩
      · rw [afterAssignment_of_end hend] at h
        obtain ⟨⟨t, d⟩, hx, h⟩ := bind_eq_ok_iff.mp h
        obtain ⟨hr, rfl⟩ := Cursor.expect_eq_ok hx
        obtain ⟨ha, hc'⟩ := hc.advance (by simp [hr])
        refine ih hE' hl' (hb.closed (hl.assignment he) t.span) hc' ?_ h
        rw [hk, ha, hr]
        simp
      · rw [afterAssignment_comma hr] at h
        cases h
        obtain ⟨ha, hc'⟩ := hc.advance (by simp [hr])
        refine ⟨_, [], ⟨ke', kl', _, hE', hl', hb.argument (hl.assignment he), rfl⟩,
          Level.read_empty_iff.mpr rfl, ?_, hc'⟩
        rw [hk, ha, hr]
        simp
    · exact afterOperand_read_operator hE hl he hc hk hn h

theorem operand_read (hE : Enclosing.Read enclosing ke) (hl : l.Read kl) (hc : c.Ended)
    (hk : all = ke ++ kl ++ c.kinds) (h : operand l enclosing c = .ok p) : p.Read all := by
  cases operand_step h with
  | target name hname hempty hnext =>
    obtain ⟨ha, hc₁⟩ := hc.advance (by simp [hname])
    obtain rfl := Level.eq_empty_of_isEmpty hempty
    have he : c.advance.kind = .equals := (hc.nextKind_eq (by simp [hname])).symm.trans hnext
    obtain ⟨ha₂, hc₂⟩ := hc₁.advance (by simp [he])
    refine ⟨ke, _, hE, Level.read_target name c.span, ?_, hc₂⟩
    rw [hk, ha, ha₂, hname, he, show kl = [] from Level.read_empty_iff.mp hl]
    simp
  | call name hname hnext hclose h =>
    obtain ⟨ha, hc₁⟩ := hc.advance (by simp [hname])
    have he : c.advance.kind = .lparen := (hc.nextKind_eq (by simp [hname])).symm.trans hnext
    obtain ⟨ha₂, hc₂⟩ := hc₁.advance (by simp [he])
    have hr : c.advance.advance.kind = .rparen := by simpa [Cursor.check] using hclose
    obtain ⟨ha₃, hc₃⟩ := hc₂.advance (by simp [hr])
    refine afterOperand_read hE hl (.call name c.span _ [] (by simp)) hc₃ ?_ h
    rw [hk, ha, ha₂, ha₃, hname, he, hr]
    simp [commaSeparated]
  | arguments name hname hnext =>
    obtain ⟨ha, hc₁⟩ := hc.advance (by simp [hname])
    have he : c.advance.kind = .lparen := (hc.nextKind_eq (by simp [hname])).symm.trans hnext
    obtain ⟨ha₂, hc₂⟩ := hc₁.advance (by simp [he])
    refine ⟨_, [], ⟨ke, kl, _, hE, hl, ⟨[], by simp, rfl, rfl⟩, rfl⟩, Level.read_empty_iff.mpr rfl,
      ?_, hc₂⟩
    rw [hk, ha, ha₂, hname, he]
    simp
  | identifier name hname h =>
    obtain ⟨ha, hc₁⟩ := hc.advance (by simp [hname])
    exact afterOperand_read hE hl (.ofPrimary (.identifier name c.span)) hc₁
      (by rw [hk, ha, hname]; simp) h
  | number value hvalue h =>
    obtain ⟨ha, hc₁⟩ := hc.advance (by simp [hvalue])
    exact afterOperand_read hE hl (.ofPrimary (.number value c.span)) hc₁
      (by rw [hk, ha, hvalue]; simp) h
  | group hparen =>
    obtain ⟨ha, hc₁⟩ := hc.advance (by simp [hparen])
    exact ⟨_, [], ⟨ke, kl, _, hE, hl, rfl, rfl⟩, Level.read_empty_iff.mpr rfl,
      by rw [hk, ha, hparen]; simp, hc₁⟩

theorem operands_read {d : Cursor} (hE : Enclosing.Read enclosing ke) (hl : l.Read kl)
    (hc : c.Ended) (hk : all = ke ++ kl ++ c.kinds) (h : operands l enclosing c = .ok (e, d)) :
    Progress.Read all (.complete e d) := by
  fun_induction operands l enclosing c generalizing ke kl with
  | case1 => cases h
  | case2 l enclosing c e' d' ho =>
    cases h
    exact operand_read hE hl hc hk ho
  | case3 l enclosing c l' enclosing' c' ho hb ih =>
    obtain ⟨ke', kl', hE', hl', hk', hc'⟩ := operand_read hE hl hc hk ho
    exact ih hE' hl' hc' hk' h
  | case4 => cases h

/-- What a reader accepts are kinds that stand in the relation to its tree. -/
def Accepts {α : Type} (R : List TokenKind → α → Prop)
    (read : Cursor → Except Failure (α × Cursor)) : Prop :=
  ∀ c a d, c.Ended → read c = .ok (a, d) → ∃ ks, R ks a ∧ c.kinds = ks ++ d.kinds ∧ d.Ended

theorem accepts_expression : Accepts (Derives .assignment) expression := fun _ _ _ hc h =>
  operands_read (show Enclosing.Read [] [] from rfl) (Level.read_empty_iff.mpr rfl) hc rfl h

theorem typeName_eq_ok {d : Cursor} {type : TypeName} (h : typeName c = .ok (type, d)) :
    c.kind = .intWord ∧ type = ⟨"int", c.span⟩ ∧ d = c.advance := by
  unfold typeName at h
  split at h
  next hc =>
    cases h
    exact ⟨by simpa [Cursor.check] using hc, rfl, rfl⟩
  · cases h

theorem accepts_parameter : Accepts DerivesParameter parameter := by
  intro c p d hc h
  obtain ⟨⟨type, c₁⟩, ht, h⟩ := bind_eq_ok_iff.mp h
  obtain ⟨⟨⟨name, span⟩, c₂⟩, hn, h⟩ := bind_eq_ok_iff.mp h
  obtain ⟨hk, rfl, rfl⟩ := typeName_eq_ok ht
  obtain ⟨ha, hc₁⟩ := hc.advance (by simp [hk])
  obtain ⟨hk₁, rfl⟩ := Cursor.expectIdent_eq_ok hn
  obtain ⟨ha₁, hc₂⟩ := hc₁.advance (by simp [hk₁])
  cases h
  exact ⟨_, .intro name c.span span _, by rw [ha, ha₁, hk, hk₁]; simp, hc₂⟩

theorem parameters_sound {done params : List Parameter} {d : Cursor} (hc : c.Ended)
    (h : parameters done c = .ok (params, d)) :
    ∃ parts : List (List TokenKind × Parameter), (∀ a ∈ parts, DerivesParameter a.1 a.2) ∧
      parts ≠ [] ∧ params = done.reverse ++ parts.map (·.2) ∧
        c.kinds = commaSeparated (parts.map (·.1)) ++ d.kinds ∧ d.Ended := by
  fun_induction parameters done c with
  | case1 => cases h
  | case2 done c p c' hp hcomma hb ih =>
    obtain ⟨ks, hd, hk, hc'⟩ := accepts_parameter _ _ _ hc hp
    have hr : c'.kind = .comma := by simpa [Cursor.check] using hcomma
    obtain ⟨ha, hc''⟩ := hc'.advance (by simp [hr])
    obtain ⟨parts, hparts, hne, rfl, hk', hd'⟩ := ih hc'' h
    obtain ⟨part, parts, rfl⟩ := List.exists_cons_of_ne_nil hne
    refine ⟨(ks, p) :: part :: parts, List.forall_mem_cons.mpr ⟨hd, hparts⟩, by simp, by simp,
      ?_, hd'⟩
    rw [hk, ha, hr, hk']
    simp [commaSeparated]
  | case3 => cases h
  | case4 done c p c' hp hcomma =>
    obtain ⟨ks, hd, hk, hc'⟩ := accepts_parameter _ _ _ hc hp
    cases h
    exact ⟨[(ks, p)], by simpa using hd, by simp, by simp, by simpa [commaSeparated] using hk, hc'⟩

theorem parameterList_sound {params : List Parameter} {d : Cursor} (hc : c.Ended)
    (h : parameterList c = .ok (params, d)) :
    ∃ parts : List (List TokenKind × Parameter), (∀ a ∈ parts, DerivesParameter a.1 a.2) ∧
      params = parts.map (·.2) ∧ c.kinds = commaSeparated (parts.map (·.1)) ++ d.kinds ∧
        d.Ended := by
  unfold parameterList at h
  split at h
  · cases h
    exact ⟨[], by simp, rfl, rfl, hc⟩
  · obtain ⟨parts, hparts, -, hparams, hk, hd⟩ := parameters_sound hc h
    exact ⟨parts, hparts, hparams, hk, hd⟩

theorem accepts_prototype : Accepts DerivesPrototype prototype := by
  intro c p d hc h
  rw [prototype_eq] at h
  obtain ⟨⟨type, c₁⟩, ht, h⟩ := bind_eq_ok_iff.mp h
  obtain ⟨⟨⟨name, span⟩, c₂⟩, hn, h⟩ := bind_eq_ok_iff.mp h
  obtain ⟨⟨t, c₃⟩, hl, h⟩ := bind_eq_ok_iff.mp h
  obtain ⟨⟨params, c₄⟩, hp, h⟩ := bind_eq_ok_iff.mp h
  obtain ⟨⟨close, c₅⟩, hr, h⟩ := bind_eq_ok_iff.mp h
  obtain ⟨hk, rfl, rfl⟩ := typeName_eq_ok ht
  obtain ⟨ha, hc₁⟩ := hc.advance (by simp [hk])
  obtain ⟨hk₁, rfl⟩ := Cursor.expectIdent_eq_ok hn
  obtain ⟨ha₁, hc₂⟩ := hc₁.advance (by simp [hk₁])
  obtain ⟨hk₂, rfl⟩ := Cursor.expect_eq_ok hl
  obtain ⟨ha₂, hc₃⟩ := hc₂.advance (by simp [hk₂])
  obtain ⟨hk₄, rfl⟩ := Cursor.expect_eq_ok hr
  cases h
  obtain ⟨parts, hparts, rfl, hk₃, hc₄⟩ := parameterList_sound hc₃ hp
  obtain ⟨ha₄, hc₅⟩ := hc₄.advance (by simp [hk₄])
  refine ⟨_, .intro name c.span span _ parts hparts, ?_, hc₅⟩
  rw [ha, ha₁, ha₂, hk₃, ha₄, hk, hk₁, hk₂, hk₄]
  simp

theorem accepts_variableDeclaration : Accepts DerivesVariable variableDeclaration := by
  intro c v d hc h
  obtain ⟨⟨type, c₁⟩, ht, h⟩ := bind_eq_ok_iff.mp h
  obtain ⟨⟨⟨name, span⟩, c₂⟩, hn, h⟩ := bind_eq_ok_iff.mp h
  obtain ⟨⟨close, c₃⟩, hs, h⟩ := bind_eq_ok_iff.mp h
  obtain ⟨hk, rfl, rfl⟩ := typeName_eq_ok ht
  obtain ⟨ha, hc₁⟩ := hc.advance (by simp [hk])
  obtain ⟨hk₁, rfl⟩ := Cursor.expectIdent_eq_ok hn
  obtain ⟨ha₁, hc₂⟩ := hc₁.advance (by simp [hk₁])
  obtain ⟨hk₂, rfl⟩ := Cursor.expect_eq_ok hs
  obtain ⟨ha₂, hc₃⟩ := hc₂.advance (by simp [hk₂])
  cases h
  exact ⟨_, .intro name c.span span _, by rw [ha, ha₁, ha₂, hk, hk₁, hk₂]; simp, hc₃⟩

theorem variableDeclarations_sound {done ds : List VariableDeclaration} {d : Cursor}
    (hc : c.Ended) (h : variableDeclarations done c = .ok (ds, d)) :
    ∃ parts : List (List TokenKind × VariableDeclaration),
      (∀ a ∈ parts, DerivesVariable a.1 a.2) ∧ ds = done.reverse ++ parts.map (·.2) ∧
        c.kinds = parts.flatMap (·.1) ++ d.kinds ∧ d.Ended := by
  fun_induction variableDeclarations done c with
  | case1 => cases h
  | case2 done c hint v c' hv hb ih =>
    obtain ⟨ks, hd, hk, hc'⟩ := accepts_variableDeclaration _ _ _ hc hv
    obtain ⟨parts, hparts, rfl, hk', hd'⟩ := ih hc' h
    exact ⟨(ks, v) :: parts, List.forall_mem_cons.mpr ⟨hd, hparts⟩, by simp,
      by simp [hk, hk'], hd'⟩
  | case3 => cases h
  | case4 done c hint =>
    cases h
    exact ⟨[], by simp, by simp, rfl, hc⟩

theorem accepts_statement : Accepts DerivesStmt statement := by
  intro c s d hc h
  unfold statement at h
  split at h
  next hret =>
    obtain ⟨⟨value, c₁⟩, hv, h⟩ := bind_eq_ok_iff.mp h
    obtain ⟨⟨close, c₂⟩, hs, h⟩ := bind_eq_ok_iff.mp h
    have hk : c.kind = .returnWord := by simpa [Cursor.check] using hret
    obtain ⟨ha, hc₁⟩ := hc.advance (by simp [hk])
    obtain ⟨ks, hd, hk₁, hc₂⟩ := accepts_expression _ _ _ hc₁ hv
    obtain ⟨hk₂, rfl⟩ := Cursor.expect_eq_ok hs
    obtain ⟨ha₂, hc₃⟩ := hc₂.advance (by simp [hk₂])
    cases h
    exact ⟨_, .ret _ hd, by rw [ha, hk₁, ha₂, hk, hk₂]; simp, hc₃⟩
  · obtain ⟨⟨value, c₁⟩, hv, h⟩ := bind_eq_ok_iff.mp h
    obtain ⟨⟨close, c₂⟩, hs, h⟩ := bind_eq_ok_iff.mp h
    obtain ⟨ks, hd, hk₁, hc₂⟩ := accepts_expression _ _ _ hc hv
    obtain ⟨hk₂, rfl⟩ := Cursor.expect_eq_ok (mapError_eq_ok_iff.mp hs)
    obtain ⟨ha₂, hc₃⟩ := hc₂.advance (by simp [hk₂])
    cases h
    exact ⟨_, .expr hd, by rw [hk₁, ha₂, hk₂]; simp, hc₃⟩

theorem statements_sound {done ss : List Stmt} {d : Cursor} (hc : c.Ended)
    (h : statements done c = .ok (ss, d)) :
    ∃ parts : List (List TokenKind × Stmt), (∀ a ∈ parts, DerivesStmt a.1 a.2) ∧
      ss = done.reverse ++ parts.map (·.2) ∧ c.kinds = parts.flatMap (·.1) ++ d.kinds ∧
        d.Ended := by
  fun_induction statements done c with
  | case1 done c hclose =>
    cases h
    exact ⟨[], by simp, by simp, rfl, hc⟩
  | case2 => cases h
  | case3 done c hclose s c' hs hb ih =>
    obtain ⟨ks, hd, hk, hc'⟩ := accepts_statement _ _ _ hc hs
    obtain ⟨parts, hparts, rfl, hk', hd'⟩ := ih hc' h
    exact ⟨(ks, s) :: parts, List.forall_mem_cons.mpr ⟨hd, hparts⟩, by simp,
      by simp [hk, hk'], hd'⟩
  | case4 => cases h

theorem accepts_body : Accepts DerivesBody body := by
  intro c b d hc h
  obtain ⟨⟨opening, c₁⟩, ho, h⟩ := bind_eq_ok_iff.mp h
  obtain ⟨⟨locals, c₂⟩, hl, h⟩ := bind_eq_ok_iff.mp h
  obtain ⟨⟨ss, c₃⟩, hs, h⟩ := bind_eq_ok_iff.mp h
  obtain ⟨⟨close, c₄⟩, hr, h⟩ := bind_eq_ok_iff.mp h
  obtain ⟨hk, rfl⟩ := Cursor.expect_eq_ok ho
  obtain ⟨ha, hc₁⟩ := hc.advance (by simp [hk])
  obtain ⟨parts, hparts, rfl, hk₁, hc₂⟩ := variableDeclarations_sound hc₁ hl
  obtain ⟨parts', hparts', rfl, hk₂, hc₃⟩ := statements_sound hc₂ hs
  obtain ⟨hk₃, rfl⟩ := Cursor.expect_eq_ok hr
  obtain ⟨ha₃, hc₄⟩ := hc₃.advance (by simp [hk₃])
  cases h
  exact ⟨_, .intro _ parts parts' hparts hparts',
    by rw [ha, hk₁, hk₂, ha₃, hk, hk₃]; simp, hc₄⟩

inductive DerivesItem : List TokenKind → Item → Prop
  | declaration {ks : List TokenKind} {d : FunctionDeclaration} :
      DerivesDeclaration ks d → DerivesItem ks (.declaration d)
  | definition {ks : List TokenKind} {d : FunctionDefinition} :
      DerivesDefinition ks d → DerivesItem ks (.definition d)

theorem accepts_item : Accepts DerivesItem item := by
  intro c i d hc h
  obtain ⟨⟨p, c₁⟩, hp, h⟩ := bind_eq_ok_iff.mp h
  obtain ⟨ks, hd, hk, hc₁⟩ := accepts_prototype _ _ _ hc hp
  dsimp only at h
  split at h
  next hsemi =>
    obtain ⟨ha, hc₂⟩ := hc₁.advance (by simp [hsemi])
    cases h
    exact ⟨_, .declaration (.intro _ hd), by rw [hk, ha, hsemi]; simp, hc₂⟩
  · obtain ⟨⟨b, c₂⟩, hb, h⟩ := bind_eq_ok_iff.mp h
    obtain ⟨ks', hd', hk', hc₂⟩ := accepts_body _ _ _ hc₁ hb
    cases h
    exact ⟨_, .definition (.intro _ hd hd'), by rw [hk, hk']; simp, hc₂⟩
  · cases h

theorem items_sound {declarations : List FunctionDeclaration}
    {definitions : List FunctionDefinition} {u : SourceUnit} (hc : c.Ended)
    (h : items declarations definitions c = .ok u) :
    ∃ ks u' rest, DerivesUnit ks u' ∧ c.kinds = ks ++ .eof :: rest ∧
      u = { u' with
        declarations := declarations.reverse ++ u'.declarations
        definitions := definitions.reverse ++ u'.definitions } := by
  fun_induction items declarations definitions c with
  | case1 declarations definitions c hend =>
    cases h
    obtain ⟨rest, hk⟩ := hc.kinds_eq
    have he : c.kind = .eof := by simpa [Cursor.atEnd] using hend
    exact ⟨[], {}, rest, .nil, by rw [hk, he]; simp, by simp⟩
  | case2 => cases h
  | case3 declarations definitions c hend c' hb d hi ih =>
    obtain ⟨ks, hd, hk, hc'⟩ := accepts_item _ _ _ hc hi
    obtain ⟨ks', u', rest, hu, hk', rfl⟩ := ih hc' h
    cases hd with
    | declaration hd => exact ⟨_, _, rest, .declaration hd hu, by simp [hk, hk'], by simp⟩
  | case4 declarations definitions c hend c' hb d hi ih =>
    obtain ⟨ks, hd, hk, hc'⟩ := accepts_item _ _ _ hc hi
    obtain ⟨ks', u', rest, hu, hk', rfl⟩ := ih hc' h
    cases hd with
    | definition hd => exact ⟨_, _, rest, .definition hd hu, by simp [hk, hk'], by simp⟩
  | case5 => cases h

end Grammar

end MiniC
