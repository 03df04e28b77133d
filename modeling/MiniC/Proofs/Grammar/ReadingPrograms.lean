import MiniC.Proofs.Grammar.Completeness
import MiniC.Proofs.Grammar.ReadingOperands

/-! # What the readers of programs look at

Each reader of the grammar, from parameters to items, looks at the tokens that it reads and at one
more, and refuses a token only behind the beginning of what it reads. A repetition always uses up
tokens of the list, since behind the list all tokens are the same and no part of a program begins
and ends with the same token.
-/

namespace MiniC

namespace Grammar

variable {α β : Type} {R : List TokenKind → α → Prop} {R' : List TokenKind → β → Prop}
  {c d : Cursor} {k : TokenKind} {ks more : List TokenKind} {a : α}

/-- The kinds `ks` stand between the two cursors, as far as the list closes. -/
def Crosses (c : Cursor) (ks : List TokenKind) (d : Cursor) : Prop :=
  c.Ended → c.kinds = ks ++ d.kinds ∧ d.Ended

theorem crosses_refl (c : Cursor) : Crosses c [] c := fun h => ⟨rfl, h⟩

theorem Crosses.token (h : Crosses c ks d) (hd : d.kind = k) (hk : k ≠ .eof) :
    Crosses c (ks ++ [k]) d.advance := by
  intro hc
  obtain ⟨hks, hd'⟩ := h hc
  obtain ⟨ha, hended⟩ := hd'.advance (hd ▸ hk)
  exact ⟨by rw [hks, ha, hd, List.append_assoc, List.singleton_append], hended⟩

theorem Crosses.trans {ks' : List TokenKind} {d' : Cursor} (h : Crosses c ks d)
    (h' : Crosses d ks' d') : Crosses c (ks ++ ks') d' := by
  intro hc
  obtain ⟨hks, hd⟩ := h hc
  obtain ⟨hks', hd'⟩ := h' hd
  exact ⟨by rw [hks, hks', List.append_assoc], hd'⟩

theorem Crosses.opens (h : Crosses c ks d) (hR : R (ks ++ more) a) : Opens R c d :=
  fun hc => ⟨ks, more, a, (h hc).1, hR⟩

theorem Crosses.opensWithin (h : Crosses c ks d) {d' : Cursor} (hd : Opens R d d')
    (hR : ∀ w a, R w a → ∃ more b, R' (ks ++ (w ++ more)) b) : Opens R' c d' := by
  intro hc
  obtain ⟨hks, hd'⟩ := h hc
  obtain ⟨w, more, a, hw, ha⟩ := hd hd'
  obtain ⟨more', b, hb⟩ := hR _ a ha
  exact ⟨ks ++ w, more ++ more', b, by rw [hks, hw, List.append_assoc], by simpa using hb⟩

theorem reading_parameter (c : Cursor) : Reading (Opens DerivesParameter c) parameter c := by
  have h₀ := crosses_refl c
  refine .bind (reading_typeName (h₀.opens (.intro "x" .dummy .dummy .dummy)))
    fun type d hd => ?_
  obtain ⟨hk, rfl, rfl⟩ := typeName_eq_ok hd
  have h₁ := h₀.token hk (by simp)
  exact .bind (reading_expectIdent (h₁.opens (.intro "x" .dummy .dummy .dummy)))
    fun name d hd => .pass fun c' _ => rfl

theorem parameter_before {p : Parameter} (h : parameter c = .ok (p, d)) : c.Before d := by
  obtain ⟨⟨type, c₁⟩, ht, h⟩ := bind_eq_ok_iff.mp h
  obtain ⟨⟨⟨name, span⟩, c₂⟩, hn, h⟩ := bind_eq_ok_iff.mp h
  obtain ⟨hk, -, rfl⟩ := typeName_eq_ok ht
  obtain ⟨hk₁, rfl⟩ := Cursor.expectIdent_eq_ok hn
  cases h
  exact (Cursor.Reaches.advance (by simp [hk])
    (Cursor.not_repeats_of_kind (by simp [hk]))).before_advance (by simp [hk₁]) (by simp [hk, hk₁])

theorem before_advance_of_before (h : c.Before d) : c.Before d.advance :=
  Nat.lt_of_le_of_lt d.remaining_advance_le h

theorem parameters_turn (done : List Parameter) (c : Cursor) :
    parameters done c = parameter c >>= fun r =>
      if r.2.check .comma then parameters (r.1 :: done) r.2.advance
      else .ok ((r.1 :: done).reverse, r.2) := by
  rw [parameters]
  cases hp : parameter c with
  | error failure => rfl
  | ok r =>
    dsimp only [ok_bind]
    rw [if_pos (before_advance_of_before (parameter_before hp))]

def ParameterParts (ks : List TokenKind) (parts : List (List TokenKind × Parameter)) : Prop :=
  parts ≠ [] ∧ (∀ a ∈ parts, DerivesParameter a.1 a.2) ∧ ks = commaSeparated (parts.map (·.1))

theorem DerivesParameter.parts {p : Parameter} (h : DerivesParameter ks p) :
    ParameterParts ks [(ks, p)] :=
  ⟨by simp, List.forall_mem_singleton.mpr h, by simp [commaSeparated]⟩

theorem ParameterParts.cons {p : Parameter} {ks' : List TokenKind}
    {parts : List (List TokenKind × Parameter)} (h : ParameterParts ks' parts)
    (hp : DerivesParameter ks p) : ParameterParts (ks ++ [.comma] ++ ks') ((ks, p) :: parts) := by
  obtain ⟨hne, hparts, rfl⟩ := h
  obtain ⟨part, parts, rfl⟩ := List.exists_cons_of_ne_nil hne
  exact ⟨by simp, List.forall_mem_cons.mpr ⟨hp, hparts⟩, by simp [commaSeparated]⟩

theorem reading_parameters (done : List Parameter) (c : Cursor) :
    Reading (Opens ParameterParts c) (parameters done) c := by
  induction c using Cursor.before_induction generalizing done with
  | step c ih =>
    refine .congr ?_ fun c' _ => parameters_turn done c'
    refine .bind ((reading_parameter c).mono fun d hd => (crosses_refl c).opensWithin hd ?_)
      fun p d hp => ?_
    · exact fun w p hw => ⟨[], _, by simpa using hw.parts⟩
    by_cases hcomma : d.kind = .comma
    · have hrest : Reading (Opens ParameterParts c) (parameters (p :: done)) d.advance :=
        (ih _ (before_advance_of_before (parameter_before hp)) _).mono fun d' hd' hc => ?_
      · refine .advance (by simp [hcomma]) (Cursor.not_repeats_of_kind (by simp [hcomma])) hrest
          fun c' hc' => ?_
        exact if_pos (Cursor.check_of_kind ((kind_congr hc').trans hcomma))
      · obtain ⟨ks, hks, hk, hd⟩ := accepts_parameter c p d hc hp
        have hcross : Crosses c ks d := fun _ => ⟨hk, hd⟩
        exact (hcross.token hcomma (by simp)).opensWithin hd'
          (fun w parts hw => ⟨[], _, by simpa using hw.cons hks⟩) hc
    · exact .pass (a := (p :: done).reverse) fun c' hc' =>
        if_neg (Cursor.not_check_of_kind (kind_congr hc' ▸ hcomma))

theorem reading_parameterList (c : Cursor) :
    Reading (Opens ParameterParts c) parameterList c := by
  by_cases hk : c.kind = .rparen
  · exact .pass fun c' hc' => if_pos (Cursor.check_of_kind ((kind_congr hc').trans hk))
  · exact (reading_parameters [] c).congr fun c' hc' =>
      if_neg (Cursor.not_check_of_kind (kind_congr hc' ▸ hk))

theorem derivesPrototype_of_nil (name : String) :
    DerivesPrototype [.intWord, .ident name, .lparen, .rparen]
      { returnType := ⟨"int", .dummy⟩, name, nameSpan := .dummy, params := [], span := .dummy } :=
  .intro name .dummy .dummy .dummy [] (by simp)

theorem reading_prototype (c : Cursor) : Reading (Opens DerivesPrototype c) prototype c := by
  refine .congr ?_ fun c' _ => prototype_eq c'
  have h₀ := crosses_refl c
  refine .bind (reading_typeName (h₀.opens (derivesPrototype_of_nil "f"))) fun type d hd => ?_
  obtain ⟨hk, -, rfl⟩ := typeName_eq_ok hd
  have h₁ := h₀.token hk (by simp)
  refine .bind (reading_expectIdent (h₁.opens (derivesPrototype_of_nil "f"))) fun r d hd => ?_
  obtain ⟨hk₁, rfl⟩ := Cursor.expectIdent_eq_ok hd
  have h₂ := h₁.token hk₁ (by simp)
  have hrep : ¬ c.advance.advance.Repeats :=
    Cursor.not_repeats_advance (by simp [hk₁]) (by simp [hk₁])
  refine .bind (reading_expect (by simp) (fun _ => hrep) (h₂.opens (derivesPrototype_of_nil r.1)))
    fun t d hd => ?_
  obtain ⟨hk₂, rfl⟩ := Cursor.expect_eq_ok hd
  have h₃ := h₂.token hk₂ (by simp)
  refine .bind ((reading_parameterList _).mono fun d hd => h₃.opensWithin hd ?_)
    fun params d hd => ?_
  · rintro w parts ⟨-, hparts, rfl⟩
    exact ⟨[.rparen], _, .intro r.1 .dummy .dummy .dummy parts hparts⟩
  · refine .bind (reading_expect (by simp) (by simp) fun hc => ?_) fun close d' _ =>
      .pass fun _ _ => rfl
    obtain ⟨parts, hparts, -, hk₃, hd₃⟩ := parameterList_sound (h₃ hc).2 hd
    exact (h₃.trans fun _ => ⟨hk₃, hd₃⟩).opens
      (.intro r.1 .dummy .dummy .dummy parts hparts) hc

theorem reading_variableDeclaration (c : Cursor) :
    Reading (Opens DerivesVariable c) variableDeclaration c := by
  have h₀ := crosses_refl c
  refine .bind (reading_typeName (h₀.opens (.intro "x" .dummy .dummy .dummy))) fun type d hd => ?_
  obtain ⟨hk, -, rfl⟩ := typeName_eq_ok hd
  have h₁ := h₀.token hk (by simp)
  refine .bind (reading_expectIdent (h₁.opens (.intro "x" .dummy .dummy .dummy))) fun r d hd => ?_
  obtain ⟨hk₁, rfl⟩ := Cursor.expectIdent_eq_ok hd
  have h₂ := h₁.token hk₁ (by simp)
  exact .bind (reading_expect (by simp) (by simp) (h₂.opens (.intro r.1 .dummy .dummy .dummy)))
    fun close d hd => .pass fun c' _ => rfl

theorem variableDeclaration_before {v : VariableDeclaration}
    (h : variableDeclaration c = .ok (v, d)) : c.Before d := by
  obtain ⟨⟨type, c₁⟩, ht, h⟩ := bind_eq_ok_iff.mp h
  obtain ⟨⟨name, c₂⟩, hn, h⟩ := bind_eq_ok_iff.mp h
  obtain ⟨⟨close, c₃⟩, hs, h⟩ := bind_eq_ok_iff.mp h
  obtain ⟨hk, -, -⟩ := typeName_eq_ok ht
  obtain ⟨hk₂, rfl⟩ := Cursor.expect_eq_ok hs
  cases h
  have hreach := ((reading_typeName (Q := fun _ => True) trivial).accepted _ _ ht).1.trans
    ((reading_expectIdent (Q := fun _ => True) trivial).accepted _ _ hn).1
  exact hreach.before_advance (by simp [hk₂]) (by simp [hk, hk₂])

def Parts (R : List TokenKind → α → Prop) (ks : List TokenKind)
    (parts : List (List TokenKind × α)) : Prop :=
  (∀ a ∈ parts, R a.1 a.2) ∧ ks = parts.flatMap (·.1)

theorem Parts.cons {parts : List (List TokenKind × α)} (h : Parts R ks parts) {w : List TokenKind}
    (ha : R w a) : Parts R (w ++ ks) ((w, a) :: parts) := by
  obtain ⟨hparts, rfl⟩ := h
  exact ⟨List.forall_mem_cons.mpr ⟨ha, hparts⟩, rfl⟩

theorem parts_singleton (h : R ks a) : Parts R ks [(ks, a)] :=
  ⟨List.forall_mem_singleton.mpr h, by simp⟩

theorem variableDeclarations_turn (done : List VariableDeclaration) (c : Cursor) :
    variableDeclarations done c =
      if c.check .intWord then
        variableDeclaration c >>= fun r => variableDeclarations (r.1 :: done) r.2
      else .ok (done.reverse, c) := by
  rw [variableDeclarations]
  cases hv : variableDeclaration c with
  | error failure => rfl
  | ok r =>
    dsimp only [ok_bind]
    rw [if_pos (variableDeclaration_before hv)]

/-- A loop that reads one part after another refuses a token behind the beginning of parts. -/
theorem reading_parts {read : Cursor → Except Failure (α × Cursor)}
    {rest : α → Cursor → Except Failure (β × Cursor)} (hR : Accepts R read)
    (hread : Reading (Opens R c) read c)
    (hrest : ∀ a d, read c = .ok (a, d) → Reading (Opens (Parts R) d) (rest a) d) :
    Reading (Opens (Parts R) c) (fun c => read c >>= fun r => rest r.1 r.2) c := by
  refine .bind (hread.mono fun d hd => (crosses_refl c).opensWithin hd ?_) fun a d hd => ?_
  · exact fun w a hw => ⟨[], _, by simpa using parts_singleton hw⟩
  · refine (hrest a d hd).mono fun d' hd' hc => ?_
    obtain ⟨w, hw, hk, hended⟩ := hR c a d hc hd
    have hcross : Crosses c w d := fun _ => ⟨hk, hended⟩
    exact hcross.opensWithin hd' (fun ks parts hparts => ⟨[], _, by simpa using hparts.cons hw⟩) hc

theorem reading_variableDeclarations (done : List VariableDeclaration) (c : Cursor) :
    Reading (Opens (Parts DerivesVariable) c) (variableDeclarations done) c := by
  induction c using Cursor.before_induction generalizing done with
  | step c ih =>
    by_cases hk : c.kind = .intWord
    · refine (reading_parts accepts_variableDeclaration (reading_variableDeclaration c)
        fun v d hv => ih d (variableDeclaration_before hv) (v :: done)).congr fun c' hc' => ?_
      rw [variableDeclarations_turn, if_pos (Cursor.check_of_kind ((kind_congr hc').trans hk))]
    · refine .pass (a := done.reverse) fun c' hc' => ?_
      rw [variableDeclarations_turn, if_neg (Cursor.not_check_of_kind (kind_congr hc' ▸ hk))]

theorem expression_start {e : Expr} (h : expression c = .ok (e, d)) :
    c.kind.canStartExpr = true := by
  refine Bool.not_eq_false _ ▸ fun hk => ?_
  rw [expression, operands_turn, operand_refused hk] at h
  cases h

theorem statement_of_return (h : c.kind = .returnWord) :
    statement c = expression c.advance >>= fun r => r.2.expect .semicolon >>= fun s =>
      .ok (.ret r.1 (c.span.merge s.1.span), s.2) := by
  rw [statement, if_pos (Cursor.check_of_kind h)]
  rfl

theorem statement_of_expression (h : c.kind ≠ .returnWord) :
    statement c = expression c >>= fun r =>
      (r.2.expect .semicolon).mapError (·.addHelp (missingSemicolon r.1)) >>= fun s =>
        .ok (.expr r.1, s.2) := by
  rw [statement, if_neg (Cursor.not_check_of_kind h)]
  rfl

theorem reading_statement (c : Cursor) : Reading (Opens DerivesStmt c) statement c := by
  by_cases hk : c.kind = .returnWord
  · have h₁ := (crosses_refl c).token hk (by simp)
    have hvalue : Reading (Opens DerivesStmt c) (fun d => expression d >>= fun r =>
        r.2.expect .semicolon >>= fun s => .ok (Stmt.ret r.1 (c.span.merge s.1.span), s.2))
        c.advance := by
      refine .bind ((reading_expression _).mono fun d hd => h₁.opensWithin hd ?_) fun e d he => ?_
      · exact fun w e hw => ⟨[.semicolon], _, DerivesStmt.ret .dummy hw⟩
      · have hopens : Opens DerivesStmt c d := by
          intro hc
          obtain ⟨w, hw, hkinds, hd⟩ := accepts_expression _ e d (h₁ hc).2 he
          exact (h₁.trans fun _ => ⟨hkinds, hd⟩).opens (DerivesStmt.ret .dummy hw) hc
        show Reading _ (fun d => d.expect .semicolon >>= fun s =>
          .ok (Stmt.ret e (c.span.merge s.1.span), s.2)) d
        exact .bind (reading_expect (by simp) (by simp) hopens) fun close d' _ =>
          .pass (a := Stmt.ret e (c.span.merge close.span)) fun _ _ => rfl
    refine .advance (by simp [hk]) (Cursor.not_repeats_of_kind (by simp [hk])) hvalue
      fun c' hc' => ?_
    rw [statement_of_return ((kind_congr hc').trans hk), span_congr hc']
  · refine .congr ?_ fun c' hc' => statement_of_expression (kind_congr hc' ▸ hk)
    refine .bind ((reading_expression c).mono fun d hd => (crosses_refl c).opensWithin hd ?_)
      fun e d he => ?_
    · exact fun w e hw => ⟨[.semicolon], _, DerivesStmt.expr hw⟩
    · have hopens : Opens DerivesStmt c d := by
        intro hc
        obtain ⟨w, hw, hkinds, hd⟩ := accepts_expression _ e d hc he
        exact ((crosses_refl c).trans fun _ => ⟨hkinds, hd⟩).opens (DerivesStmt.expr hw) hc
      show Reading _ (fun d => (d.expect .semicolon).mapError (·.addHelp (missingSemicolon e)) >>=
        fun s => .ok (Stmt.expr e, s.2)) d
      exact .bind (Reading.mapError (reading_expect (by simp) (by simp) hopens)) fun close d' _ =>
        .pass fun _ _ => rfl

theorem expression_reaches {e : Expr} (h : expression c = .ok (e, d)) : c.Reaches d :=
  ((reading_expression c).accepted e d h).1

theorem statement_before {s : Stmt} (h : statement c = .ok (s, d)) : c.Before d := by
  by_cases hk : c.kind = .returnWord
  · rw [statement_of_return hk] at h
    obtain ⟨⟨e, c₁⟩, he, h⟩ := bind_eq_ok_iff.mp h
    obtain ⟨⟨close, c₂⟩, hs, h⟩ := bind_eq_ok_iff.mp h
    obtain ⟨hk₁, rfl⟩ := Cursor.expect_eq_ok hs
    cases h
    exact ((Cursor.Reaches.advance (by simp [hk])
      (Cursor.not_repeats_of_kind (by simp [hk]))).trans (expression_reaches he)).before_advance
        (by simp [hk₁]) (by simp [hk, hk₁])
  · rw [statement_of_expression hk] at h
    obtain ⟨⟨e, c₁⟩, he, h⟩ := bind_eq_ok_iff.mp h
    obtain ⟨⟨close, c₂⟩, hs, h⟩ := bind_eq_ok_iff.mp h
    obtain ⟨hk₁, rfl⟩ := Cursor.expect_eq_ok (mapError_eq_ok_iff.mp hs)
    cases h
    refine (expression_reaches he).before_advance (by simp [hk₁]) fun heq => ?_
    have hstart := expression_start he
    rw [← heq, hk₁] at hstart
    cases hstart

theorem statements_turn (done : List Stmt) (c : Cursor) :
    statements done c = if c.check .rbrace then .ok (done.reverse, c)
      else statement c >>= fun r => statements (r.1 :: done) r.2 := by
  rw [statements]
  cases hs : statement c with
  | error failure => rfl
  | ok r =>
    dsimp only [ok_bind]
    rw [if_pos (statement_before hs)]

theorem reading_statements (done : List Stmt) (c : Cursor) :
    Reading (Opens (Parts DerivesStmt) c) (statements done) c := by
  induction c using Cursor.before_induction generalizing done with
  | step c ih =>
    by_cases hk : c.kind = .rbrace
    · refine .pass (a := done.reverse) fun c' hc' => ?_
      rw [statements_turn, if_pos (Cursor.check_of_kind ((kind_congr hc').trans hk))]
    · refine (reading_parts accepts_statement (reading_statement c)
        fun s d hs => ih d (statement_before hs) (s :: done)).congr fun c' hc' => ?_
      rw [statements_turn, if_neg (Cursor.not_check_of_kind (kind_congr hc' ▸ hk))]

theorem derivesBody_of_nil :
    DerivesBody [.lbrace, .rbrace] { locals := [], statements := [], span := .dummy } :=
  .intro .dummy [] [] (by simp) (by simp)

theorem reading_body (c : Cursor) : Reading (Opens DerivesBody c) body c := by
  have h₀ := crosses_refl c
  refine .bind (reading_expect (by simp) (by simp) (h₀.opens derivesBody_of_nil)) fun t d hd => ?_
  obtain ⟨hk, rfl⟩ := Cursor.expect_eq_ok hd
  have h₁ := h₀.token hk (by simp)
  refine .bind ((reading_variableDeclarations [] _).mono fun d hd => h₁.opensWithin hd ?_)
    fun vs d hvs => ?_
  · rintro w parts ⟨hparts, rfl⟩
    exact ⟨[.rbrace], _, DerivesBody.intro .dummy parts [] hparts (by simp)⟩
  refine .bind ((reading_statements [] d).mono fun d' hd' hc => ?_) fun ss d' hss => ?_
  · obtain ⟨parts, hparts, -, hkinds, hd⟩ := variableDeclarations_sound (h₁ hc).2 hvs
    refine (h₁.trans fun _ => ⟨hkinds, hd⟩).opensWithin hd' ?_ hc
    rintro w parts' ⟨hparts', rfl⟩
    exact ⟨[.rbrace], _, by simpa using DerivesBody.intro .dummy parts parts' hparts hparts'⟩
  have hopens : Opens DerivesBody c d' := by
    intro hc
    obtain ⟨parts, hparts, -, hkinds, hd⟩ := variableDeclarations_sound (h₁ hc).2 hvs
    obtain ⟨parts', hparts', -, hkinds', hd'⟩ := statements_sound hd hss
    have h₃ := (h₁.trans fun _ => ⟨hkinds, hd⟩).trans fun _ => ⟨hkinds', hd'⟩
    have hbody := DerivesBody.intro .dummy parts parts' hparts hparts'
    rw [← List.append_assoc, ← List.cons_append] at hbody
    exact h₃.opens hbody hc
  exact .bind (reading_expect (by simp) (by simp) hopens) fun close d' _ => .pass fun _ _ => rfl

/-- Read on behind a prototype: the semicolon of a declaration, or a body. -/
def afterPrototype (p : Prototype) (c : Cursor) : Except Failure (Item × Cursor) :=
  match c.kind with
  | .semicolon => .ok (.declaration { prototype := p, span := p.span.merge c.span }, c.advance)
  | .lbrace => body c >>= fun r =>
    .ok (.definition { prototype := p, body := r.1, span := p.span.merge r.1.span }, r.2)
  | _ => .error (.refused ((c.unexpected .unexpectedToken "`;` or `\x7b`").addHelp
      "end a declaration with `;` or give the function a body"))

theorem item_eq (c : Cursor) : item c = prototype c >>= fun r => afterPrototype r.1 r.2 := by
  unfold item
  refine bind_congr fun ⟨p, d⟩ => ?_
  unfold afterPrototype
  dsimp only
  cases d.kind <;> rfl

theorem reading_afterPrototype {p : Prototype} (h : Opens DerivesItem c d)
    (hbody : ∀ d', Opens DerivesBody d d' → Opens DerivesItem c d') :
    Reading (Opens DerivesItem c) (afterPrototype p) d := by
  by_cases hsemi : d.kind = .semicolon
  · refine .take (by simp [hsemi]) (Cursor.not_repeats_of_kind (by simp [hsemi]))
      (a := .declaration { prototype := p, span := p.span.merge d.span }) fun c' hc' => ?_
    rw [afterPrototype, (kind_congr hc').trans hsemi, span_congr hc']
  by_cases hbrace : d.kind = .lbrace
  · have hb : Reading (Opens DerivesItem c) (fun d => body d >>= fun r =>
        .ok (Item.definition { prototype := p, body := r.1, span := p.span.merge r.1.span }, r.2))
        d :=
      .bind ((reading_body d).mono hbody) fun b d' _ =>
        .pass (a := Item.definition { prototype := p, body := b, span := p.span.merge b.span })
          fun _ _ => rfl
    refine hb.congr fun c' hc' => ?_
    rw [afterPrototype, (kind_congr hc').trans hbrace]
  · have href := (refusal_unexpected d .unexpectedToken "`;` or `\x7b`" rfl).addHelp
      "end a declaration with `;` or give the function a body"
    refine .refuse href h fun c' hc' => ?_
    rw [afterPrototype, kind_congr hc', Cursor.unexpected, kind_congr hc', span_congr hc']
    split
    next hk => exact absurd hk hsemi
    next hk => exact absurd hk hbrace
    · rfl

theorem reading_item (c : Cursor) : Reading (Opens DerivesItem c) item c := by
  refine .congr ?_ fun c' _ => item_eq c'
  refine .bind ((reading_prototype c).mono fun d hd => (crosses_refl c).opensWithin hd ?_)
    fun p d hp => reading_afterPrototype (fun hc => ?_) fun d' hd' hc => ?_
  · exact fun w p hw => ⟨[.semicolon], _, DerivesItem.declaration (.intro .dummy hw)⟩
  · obtain ⟨w, hw, hk, hd⟩ := accepts_prototype c p d hc hp
    have hcross : Crosses c w d := fun _ => ⟨hk, hd⟩
    exact hcross.opens (DerivesItem.declaration (.intro .dummy hw)) hc
  · obtain ⟨w, hw, hk, hd⟩ := accepts_prototype c p d hc hp
    have hcross : Crosses c w d := fun _ => ⟨hk, hd⟩
    exact hcross.opensWithin hd' (fun v b hv =>
      ⟨[], _, by simpa using DerivesItem.definition (.intro .dummy hw hv)⟩) hc

theorem prototype_reaches {p : Prototype} (h : prototype c = .ok (p, d)) :
    c.kind = .intWord ∧ c.Reaches d := by
  refine ⟨?_, ((reading_prototype c).accepted p d h).1⟩
  rw [prototype_eq] at h
  obtain ⟨⟨type, c₁⟩, ht, -⟩ := bind_eq_ok_iff.mp h
  exact (typeName_eq_ok ht).1

theorem body_reaches {b : FunctionBody} (h : body c = .ok (b, d)) :
    ∃ d', c.Reaches d' ∧ d'.kind = .rbrace ∧ d'.advance = d := by
  obtain ⟨⟨opening, c₁⟩, ho, h⟩ := bind_eq_ok_iff.mp h
  obtain ⟨⟨locals, c₂⟩, hl, h⟩ := bind_eq_ok_iff.mp h
  obtain ⟨⟨ss, c₃⟩, hs, h⟩ := bind_eq_ok_iff.mp h
  obtain ⟨⟨close, c₄⟩, hr, h⟩ := bind_eq_ok_iff.mp h
  obtain ⟨hk, rfl⟩ := Cursor.expect_eq_ok ho
  obtain ⟨hk₃, rfl⟩ := Cursor.expect_eq_ok hr
  cases h
  have h₁ : c.Reaches c.advance :=
    .advance (by simp [hk]) (Cursor.not_repeats_of_kind (by simp [hk]))
  have h₂ := ((reading_variableDeclarations [] c.advance).accepted _ _ hl).1
  have h₃ := ((reading_statements [] c₂).accepted _ _ hs).1
  exact ⟨c₃, (h₁.trans h₂).trans h₃, hk₃, rfl⟩

theorem item_before {i : Item} (h : item c = .ok (i, d)) : c.Before d := by
  rw [item_eq] at h
  obtain ⟨⟨p, c₁⟩, hp, h⟩ := bind_eq_ok_iff.mp h
  obtain ⟨hk, hreach⟩ := prototype_reaches hp
  unfold afterPrototype at h
  dsimp only at h
  split at h
  next hsemi =>
    cases h
    exact hreach.before_advance (by simp [hsemi]) (by simp [hk, hsemi])
  · obtain ⟨⟨b, c₂⟩, hb, h⟩ := bind_eq_ok_iff.mp h
    obtain ⟨d', hreach', hk', rfl⟩ := body_reaches hb
    cases h
    exact (hreach.trans hreach').before_advance (by simp [hk']) (by simp [hk, hk'])
  · cases h

theorem items_turn (declarations : List FunctionDeclaration)
    (definitions : List FunctionDefinition) (c : Cursor) :
    items declarations definitions c =
      if c.atEnd then
        .ok { declarations := declarations.reverse, definitions := definitions.reverse }
      else item c >>= fun r => afterItem declarations definitions r.1 r.2 := by
  rw [items]
  cases hi : item c with
  | error failure => rfl
  | ok r =>
    dsimp only [ok_bind]
    rw [if_pos (item_before hi)]
    cases r.1 <;> rfl

theorem DerivesItem.unit {i : Item} {w : List TokenKind} {u : SourceUnit} (hi : DerivesItem w i)
    (hu : DerivesUnit ks u) : ∃ u', DerivesUnit (w ++ ks) u' := by
  cases hi with
  | declaration hd => exact ⟨_, .declaration hd hu⟩
  | definition hd => exact ⟨_, .definition hd hu⟩

/-- A unit is refused behind the beginning of one. -/
theorem failing_items (declarations : List FunctionDeclaration)
    (definitions : List FunctionDefinition) (c : Cursor) :
    Failing (Opens DerivesUnit c) (items declarations definitions) c := by
  induction c using Cursor.before_induction generalizing declarations definitions with
  | step c ih =>
    by_cases hk : c.kind = .eof
    · exact .ofOk ((items_turn declarations definitions c).trans (if_pos (decide_eq_true hk)))
    have hloop : Failing (Opens DerivesUnit c)
        (fun c => item c >>= fun r => afterItem declarations definitions r.1 r.2) c := by
      refine .bind ((reading_item c).mono fun d hd => (crosses_refl c).opensWithin hd ?_)
        fun i d hi => ?_
      · intro w i hw
        obtain ⟨u, hu⟩ := hw.unit .nil
        exact ⟨[], u, by simpa using hu⟩
      · have hrest : Failing (Opens DerivesUnit d) (afterItem declarations definitions i) d := by
          cases i with
          | declaration f => exact ih d (item_before hi) _ _
          | definition f => exact ih d (item_before hi) _ _
        refine hrest.mono fun d' hd' hc => ?_
        obtain ⟨w, hw, hk, hd⟩ := accepts_item c i d hc hi
        have hcross : Crosses c w d := fun _ => ⟨hk, hd⟩
        refine hcross.opensWithin hd' (fun v u hv => ?_) hc
        obtain ⟨u', hu'⟩ := hw.unit hv
        exact ⟨[], u', by simpa using hu'⟩
    refine hloop.congr fun c' hc' => ?_
    have hend : ¬ c'.atEnd = true := by rwa [Cursor.atEnd, decide_eq_true_eq, kind_congr hc']
    rw [items_turn, if_neg hend]

end Grammar

end MiniC
