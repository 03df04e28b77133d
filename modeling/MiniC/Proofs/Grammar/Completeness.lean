import MiniC.Proofs.Grammar.Operands

/-! # All sentences are read

A reader that stands before kinds which derive a tree reads just these kinds, and the tree it
makes is the derived one up to spans. A loop that reads as long as some kind stands next, or does
not, stops where the derivation ends, since the first kind of each part tells what it is.
-/

namespace MiniC

namespace Grammar

variable {e : Expr} {c : Cursor} {k : TokenKind} {ks more : List TokenKind}

/-- A reader reads the kinds that stand in the relation to a tree, and its tree is that one where
`drop` drops the spans. -/
def Reads {α : Type} (R : List TokenKind → α → Prop) (drop : α → α)
    (read : Cursor → Except Failure (α × Cursor)) : Prop :=
  ∀ c ks a more, R ks a → c.kinds = ks ++ more →
    ∃ a' d, read c = .ok (a', d) ∧ d.kinds = more ∧ drop a' = drop a

theorem DerivesParameter.exists_cons {p : Parameter} (h : DerivesParameter ks p) :
    ∃ ks', ks = .intWord :: ks' := by
  cases h
  exact ⟨_, rfl⟩

theorem DerivesParameter.ne_nil {p : Parameter} (h : DerivesParameter ks p) : ks ≠ [] := by
  obtain ⟨ks', rfl⟩ := h.exists_cons
  exact List.cons_ne_nil _ _

theorem typeName_of_kinds (h : c.kinds = .intWord :: ks) :
    typeName c = .ok (⟨"int", c.span⟩, c.advance) := by
  rw [typeName, Cursor.check_of_kinds h]
  rfl

theorem reads_parameter : Reads DerivesParameter (·.relabel .spanless) parameter := by
  rintro c ks p more ⟨name, typeSpan, nameSpan, span⟩ hc
  have h₁ := Cursor.kinds_advance hc (by simp)
  have h₂ := Cursor.kinds_advance h₁ (by simp)
  refine ⟨.ofName ⟨"int", c.span⟩ name c.advance.span, c.advance.advance, ?_, h₂, rfl⟩
  refine bind_eq_ok_iff.mpr ⟨_, typeName_of_kinds hc, ?_⟩
  exact bind_eq_ok_iff.mpr ⟨_, Cursor.expectIdent_of_kinds h₁, rfl⟩

theorem before_of_append {d : Cursor} (hc : c.kinds = ks ++ more) (hne : ks ≠ [])
    (hd : d.kinds.length ≤ more.length) : c.Before d := by
  have hpos : 0 < ks.length := List.length_pos_iff.mpr hne
  rw [Cursor.before_iff, hc, List.length_append]
  omega

theorem parameters_complete (parts : List (List TokenKind × Parameter)) (hne : parts ≠ [])
    (h : ∀ a ∈ parts, DerivesParameter a.1 a.2) (done : List Parameter)
    (hc : c.kinds = commaSeparated (parts.map (·.1)) ++ .rparen :: more) :
    ∃ ps d, parameters done c = .ok (done.reverse ++ ps, d) ∧ d.kinds = .rparen :: more ∧
      ps.map (·.relabel .spanless) = parts.map (·.2.relabel .spanless) := by
  induction parts generalizing c done with
  | nil => exact absurd rfl hne
  | cons part parts ih =>
    have hpart := h part (by simp)
    cases parts with
    | nil =>
      obtain ⟨p, d, hp, hd, hr⟩ := reads_parameter c part.1 part.2 (.rparen :: more) hpart
        (by simpa [commaSeparated] using hc)
      have hcomma : ¬ d.check .comma = true := by simp [Cursor.check_of_kinds hd]
      refine ⟨[p], d, ?_, hd, by simpa using hr⟩
      rw [parameters, hp]
      dsimp only
      rw [if_neg hcomma, List.reverse_cons]
    | cons part' parts =>
      have hc' : c.kinds = part.1 ++
          (.comma :: (commaSeparated ((part' :: parts).map (·.1)) ++ .rparen :: more)) := by
        simpa [commaSeparated] using hc
      obtain ⟨p, d, hp, hd, hr⟩ := reads_parameter c part.1 part.2 _ hpart hc'
      have hd' := Cursor.kinds_advance hd (by simp)
      have hcomma : d.check .comma = true := by simp [Cursor.check_of_kinds hd]
      have hb : c.Before d.advance :=
        before_of_append hc' hpart.ne_nil (by rw [hd', List.length_cons]; omega)
      obtain ⟨ps, d', hps, hk, hrs⟩ := ih (by simp)
        (fun a ha => h a (List.mem_cons_of_mem _ ha)) (p :: done) hd'
      refine ⟨p :: ps, d', ?_, hk, ?_⟩
      · rw [parameters, hp]
        dsimp only
        rw [if_pos hcomma, if_pos hb, hps, List.reverse_cons, List.append_assoc,
          List.singleton_append]
      · rw [List.map_cons, List.map_cons, hrs]
        exact congrArg (· :: _) hr

theorem parameterList_complete (parts : List (List TokenKind × Parameter))
    (h : ∀ a ∈ parts, DerivesParameter a.1 a.2)
    (hc : c.kinds = commaSeparated (parts.map (·.1)) ++ .rparen :: more) :
    ∃ ps d, parameterList c = .ok (ps, d) ∧ d.kinds = .rparen :: more ∧
      ps.map (·.relabel .spanless) = parts.map (·.2.relabel .spanless) := by
  cases parts with
  | nil =>
    have hk : c.check .rparen = true := by simp [Cursor.check_of_kinds hc]
    exact ⟨[], c, by rw [parameterList, if_pos hk], hc, rfl⟩
  | cons part parts =>
    obtain ⟨ks, hks⟩ := (h part (by simp)).exists_cons
    have hk : ¬ c.check .rparen = true := by
      have hc' := hc
      rw [List.map_cons, commaSeparated_cons, hks] at hc'
      simp [Cursor.check_of_kinds hc']
    obtain ⟨ps, d, hps, hd, hrs⟩ := parameters_complete (part :: parts) (by simp) h [] hc
    exact ⟨ps, d, by rw [parameterList, if_neg hk, hps]; rfl, hd, hrs⟩

theorem reads_prototype : Reads DerivesPrototype (·.relabel .spanless) prototype := by
  rintro c ks p more ⟨name, typeSpan, nameSpan, span, params, hparams⟩ hc
  have h₁ := Cursor.kinds_advance hc (by simp)
  have h₂ := Cursor.kinds_advance h₁ (by simp)
  have h₃ : c.advance.advance.advance.kinds
      = commaSeparated (params.map (·.1)) ++ .rparen :: more := by
    simpa using Cursor.kinds_advance h₂ (by simp)
  obtain ⟨ps, d, hps, hd, hrs⟩ := parameterList_complete params hparams h₃
  refine ⟨⟨⟨"int", c.span⟩, name, c.advance.span, ps, c.span.merge d.span⟩, d.advance, ?_,
    Cursor.kinds_advance hd (by simp), ?_⟩
  · rw [prototype_eq]
    refine bind_eq_ok_iff.mpr ⟨_, typeName_of_kinds hc, ?_⟩
    refine bind_eq_ok_iff.mpr ⟨_, Cursor.expectIdent_of_kinds h₁, ?_⟩
    refine bind_eq_ok_iff.mpr ⟨_, Cursor.expect_of_kinds h₂, ?_⟩
    refine bind_eq_ok_iff.mpr ⟨_, hps, ?_⟩
    exact bind_eq_ok_iff.mpr ⟨_, Cursor.expect_of_kinds hd, rfl⟩
  · simp [Prototype.relabel, TypeName.relabel, hrs, Function.comp_def]

theorem reads_variableDeclaration :
    Reads DerivesVariable (·.relabel .spanless) variableDeclaration := by
  rintro c ks v more ⟨name, typeSpan, nameSpan, span⟩ hc
  have h₁ := Cursor.kinds_advance hc (by simp)
  have h₂ := Cursor.kinds_advance h₁ (by simp)
  refine ⟨⟨⟨"int", c.span⟩, name, c.advance.span, c.span.merge c.advance.advance.span, none⟩, _, ?_,
    Cursor.kinds_advance h₂ (by simp), rfl⟩
  refine bind_eq_ok_iff.mpr ⟨_, typeName_of_kinds hc, ?_⟩
  refine bind_eq_ok_iff.mpr ⟨_, Cursor.expectIdent_of_kinds h₁, ?_⟩
  exact bind_eq_ok_iff.mpr ⟨_, Cursor.expect_of_kinds h₂, rfl⟩

theorem DerivesVariable.exists_cons {v : VariableDeclaration} (h : DerivesVariable ks v) :
    ∃ ks', ks = .intWord :: ks' := by
  cases h
  exact ⟨_, rfl⟩

theorem variableDeclarations_complete (parts : List (List TokenKind × VariableDeclaration))
    (h : ∀ a ∈ parts, DerivesVariable a.1 a.2) (done : List VariableDeclaration)
    (hc : c.kinds = parts.flatMap (·.1) ++ k :: more) (hk : k ≠ .intWord) :
    ∃ vs d, variableDeclarations done c = .ok (done.reverse ++ vs, d) ∧ d.kinds = k :: more ∧
      vs.map (·.relabel .spanless) = parts.map (·.2.relabel .spanless) := by
  induction parts generalizing c done with
  | nil =>
    have hint : ¬ c.check .intWord = true := by
      simp [Cursor.check_of_kinds (show c.kinds = k :: more from hc), hk]
    refine ⟨[], c, ?_, hc, rfl⟩
    rw [variableDeclarations, if_neg hint, List.append_nil]
  | cons part parts ih =>
    have hpart := h part (by simp)
    obtain ⟨ks', hks⟩ := hpart.exists_cons
    have hc' : c.kinds = part.1 ++ (parts.flatMap (·.1) ++ k :: more) := by simpa using hc
    obtain ⟨v, d, hv, hd, hr⟩ := reads_variableDeclaration c part.1 part.2 _ hpart hc'
    have hint : c.check .intWord = true := by
      rw [hks] at hc'
      simp [Cursor.check_of_kinds hc']
    have hb : c.Before d := before_of_append hc' (by simp [hks]) (Nat.le_of_eq (congrArg _ hd))
    obtain ⟨vs, d', hvs, hd', hrs⟩ :=
      ih (fun a ha => h a (List.mem_cons_of_mem _ ha)) (v :: done) hd
    refine ⟨v :: vs, d', ?_, hd', ?_⟩
    · rw [variableDeclarations, if_pos hint, hv]
      dsimp only
      rw [if_pos hb, hvs, List.reverse_cons, List.append_assoc, List.singleton_append]
    · rw [List.map_cons, List.map_cons, hrs]
      exact congrArg (· :: _) hr

theorem DerivesStmt.exists_cons {s : Stmt} (h : DerivesStmt ks s) :
    ∃ k ks', ks = k :: ks' ∧ k ≠ .intWord ∧ k ≠ .rbrace := by
  cases h with
  | ret => exact ⟨_, _, rfl, by simp, by simp⟩
  | expr he =>
    obtain ⟨k, ks', rfl, hk⟩ := he.exists_cons
    refine ⟨k, _, rfl, ?_, ?_⟩ <;> (rintro rfl; cases hk)

theorem reads_statement : Reads DerivesStmt (·.relabel .spanless) statement := by
  rintro c ks s more hs hc
  cases hs with
  | @ret ks e span he =>
    have hret : c.check .returnWord = true := by
      simp [Cursor.check_of_kinds (show c.kinds = _ :: _ from hc)]
    have h₁ : c.advance.kinds = ks ++ .semicolon :: more := by
      simpa using Cursor.kinds_advance hc (by simp)
    obtain ⟨e', d, hv, hd, hr⟩ := he.reads h₁
    refine ⟨.ret e' (c.span.merge d.span), d.advance, ?_, Cursor.kinds_advance hd (by simp), ?_⟩
    · rw [statement, if_pos hret]
      refine bind_eq_ok_iff.mpr ⟨_, hv, ?_⟩
      exact bind_eq_ok_iff.mpr ⟨_, Cursor.expect_of_kinds hd, rfl⟩
    · simp [Stmt.relabel, hr]
  | @expr ks e he =>
    obtain ⟨k, ks', hks, hk⟩ := he.exists_cons
    have hret : ¬ c.check .returnWord = true := by
      have hc' := hc
      rw [hks] at hc'
      rw [Cursor.check_of_kinds hc', decide_eq_true_eq]
      rintro rfl
      cases hk
    have h₁ : c.kinds = ks ++ .semicolon :: more := by simpa using hc
    obtain ⟨e', d, hv, hd, hr⟩ := he.reads h₁
    refine ⟨.expr e', d.advance, ?_, Cursor.kinds_advance hd (by simp), ?_⟩
    · rw [statement, if_neg hret]
      refine bind_eq_ok_iff.mpr ⟨_, hv, ?_⟩
      exact bind_eq_ok_iff.mpr ⟨_, mapError_eq_ok_iff.mpr (Cursor.expect_of_kinds hd), rfl⟩
    · simp [Stmt.relabel, hr]

theorem statements_complete (parts : List (List TokenKind × Stmt))
    (h : ∀ a ∈ parts, DerivesStmt a.1 a.2) (done : List Stmt)
    (hc : c.kinds = parts.flatMap (·.1) ++ .rbrace :: more) :
    ∃ ss d, statements done c = .ok (done.reverse ++ ss, d) ∧ d.kinds = .rbrace :: more ∧
      ss.map (·.relabel .spanless) = parts.map (·.2.relabel .spanless) := by
  induction parts generalizing c done with
  | nil =>
    have hclose : c.check .rbrace = true := by
      simp [Cursor.check_of_kinds (show c.kinds = .rbrace :: more from hc)]
    refine ⟨[], c, ?_, hc, rfl⟩
    rw [statements, if_pos hclose, List.append_nil]
  | cons part parts ih =>
    have hpart := h part (by simp)
    obtain ⟨k, ks', hks, -, hk⟩ := hpart.exists_cons
    have hc' : c.kinds = part.1 ++ (parts.flatMap (·.1) ++ .rbrace :: more) := by simpa using hc
    obtain ⟨s, d, hs, hd, hr⟩ := reads_statement c part.1 part.2 _ hpart hc'
    have hclose : ¬ c.check .rbrace = true := by
      rw [hks] at hc'
      simpa [Cursor.check_of_kinds hc'] using hk
    have hb : c.Before d := before_of_append hc' (by simp [hks]) (Nat.le_of_eq (congrArg _ hd))
    obtain ⟨ss, d', hss, hd', hrs⟩ :=
      ih (fun a ha => h a (List.mem_cons_of_mem _ ha)) (s :: done) hd
    refine ⟨s :: ss, d', ?_, hd', ?_⟩
    · rw [statements, if_neg hclose, hs]
      dsimp only
      rw [if_pos hb, hss, List.reverse_cons, List.append_assoc, List.singleton_append]
    · rw [List.map_cons, List.map_cons, hrs]
      exact congrArg (· :: _) hr

theorem DerivesStmt.statements_ne_intWord {parts : List (List TokenKind × Stmt)}
    (h : ∀ a ∈ parts, DerivesStmt a.1 a.2) (more : List TokenKind) :
    ∃ k ks, parts.flatMap (·.1) ++ .rbrace :: more = k :: ks ∧ k ≠ .intWord := by
  cases parts with
  | nil => exact ⟨_, _, rfl, by simp⟩
  | cons part parts =>
    obtain ⟨k, ks, hks, hk, -⟩ := (h part (by simp)).exists_cons
    exact ⟨k, _, by rw [List.flatMap_cons, hks]; rfl, hk⟩

theorem reads_body : Reads DerivesBody (·.relabel .spanless) body := by
  rintro c ks b more ⟨span, locals, ss, hlocals, hss⟩ hc
  have h₁ : c.advance.kinds
      = locals.flatMap (·.1) ++ (ss.flatMap (·.1) ++ .rbrace :: more) := by
    simpa using Cursor.kinds_advance hc (by simp)
  obtain ⟨k, ks, hks, hk⟩ := DerivesStmt.statements_ne_intWord hss more
  obtain ⟨vs, d, hvs, hd, hrvs⟩ :=
    variableDeclarations_complete locals hlocals [] (hks ▸ h₁) hk
  obtain ⟨ss', d', hss', hd', hrss⟩ := statements_complete ss hss [] (hd.trans hks.symm)
  refine ⟨⟨vs, ss', c.span.merge d'.span⟩, d'.advance, ?_, Cursor.kinds_advance hd' (by simp), ?_⟩
  · refine bind_eq_ok_iff.mpr ⟨_, Cursor.expect_of_kinds hc, ?_⟩
    refine bind_eq_ok_iff.mpr ⟨_, hvs, ?_⟩
    refine bind_eq_ok_iff.mpr ⟨_, hss', ?_⟩
    exact bind_eq_ok_iff.mpr ⟨_, Cursor.expect_of_kinds hd', rfl⟩
  · simp [FunctionBody.relabel, hrvs, hrss, Function.comp_def]

theorem item_declaration {d : FunctionDeclaration} (h : DerivesDeclaration ks d)
    (hc : c.kinds = ks ++ more) :
    ∃ d' c', item c = .ok (.declaration d', c') ∧ c'.kinds = more ∧
      d'.relabel .spanless = d.relabel .spanless := by
  obtain ⟨span, hp⟩ := h
  rw [List.append_assoc] at hc
  obtain ⟨p', c', hp', hc', hr⟩ := reads_prototype c _ _ _ hp hc
  refine ⟨{ prototype := p', span := p'.span.merge c'.span }, c'.advance, ?_,
    Cursor.kinds_advance hc' (by simp), ?_⟩
  · refine bind_eq_ok_iff.mpr ⟨_, hp', ?_⟩
    dsimp only
    rw [Cursor.kind_of_kinds hc']
    rfl
  · simpa [FunctionDeclaration.relabel] using hr

theorem item_definition {d : FunctionDefinition} (h : DerivesDefinition ks d)
    (hc : c.kinds = ks ++ more) :
    ∃ d' c', item c = .ok (.definition d', c') ∧ c'.kinds = more ∧
      d'.relabel .spanless = d.relabel .spanless := by
  obtain ⟨span, hp, hb⟩ := h
  rw [List.append_assoc] at hc
  obtain ⟨p', c', hp', hc', hr⟩ := reads_prototype c _ _ _ hp hc
  obtain ⟨b', d', hb', hd', hrb⟩ := reads_body c' _ _ _ hb hc'
  have hk : c'.kind = .lbrace := by
    cases hb
    exact Cursor.kind_of_kinds hc'
  refine ⟨{ prototype := p', body := b', span := p'.span.merge b'.span }, d', ?_, hd', ?_⟩
  · refine bind_eq_ok_iff.mpr ⟨_, hp', ?_⟩
    dsimp only
    rw [hk]
    exact bind_eq_ok_iff.mpr ⟨_, hb', rfl⟩
  · simpa [FunctionDefinition.relabel] using ⟨hr, hrb⟩

theorem DerivesPrototype.exists_cons {p : Prototype} (h : DerivesPrototype ks p) :
    ∃ ks', ks = .intWord :: ks' := by
  cases h
  exact ⟨_, rfl⟩

def afterItem (declarations : List FunctionDeclaration) (definitions : List FunctionDefinition) :
    Item → Cursor → Except Failure SourceUnit
  | .declaration d, c => items (d :: declarations) definitions c
  | .definition d, c => items declarations (d :: definitions) c

theorem items_of_item {declarations : List FunctionDeclaration}
    {definitions : List FunctionDefinition} {i : Item} {c' : Cursor}
    (hc : c.kinds = .intWord :: ks ++ more) (hi : item c = .ok (i, c')) (hc' : c'.kinds = more) :
    items declarations definitions c = afterItem declarations definitions i c' := by
  have hend : ¬ c.atEnd = true := by simp [Cursor.atEnd, Cursor.kind_of_kinds hc]
  have hb : c.Before c' := before_of_append hc (by simp) (Nat.le_of_eq (congrArg _ hc'))
  rw [items, if_neg hend, hi]
  dsimp only
  rw [if_pos hb]
  cases i <;> rfl

/-- Kinds that derive a unit are read up to the end mark behind them. -/
theorem DerivesUnit.reads {u : SourceUnit} (h : DerivesUnit ks u)
    (declarations : List FunctionDeclaration) (definitions : List FunctionDefinition)
    (hc : c.kinds = ks ++ .eof :: more) :
    ∃ u' : SourceUnit, u'.relabel .spanless = u.relabel .spanless ∧
      items declarations definitions c = .ok { u' with
        declarations := declarations.reverse ++ u'.declarations
        definitions := definitions.reverse ++ u'.definitions } := by
  induction h generalizing c declarations definitions with
  | nil =>
    have hend : c.atEnd = true := by simp [Cursor.atEnd, Cursor.kind_of_kinds hc]
    refine ⟨{}, rfl, ?_⟩
    rw [items, if_pos hend]
    simp
  | declaration hd _ ih =>
    rw [List.append_assoc] at hc
    obtain ⟨d', c', hi, hc', hr⟩ := item_declaration hd hc
    obtain ⟨u', hu, hu'⟩ := ih (d' :: declarations) definitions hc'
    refine ⟨{ u' with declarations := d' :: u'.declarations }, ?_, ?_⟩
    · simp only [SourceUnit.relabel, SourceUnit.mk.injEq, Relabelling.spanless_scope] at hu ⊢
      simp [hu, hr]
    · obtain ⟨_, hp⟩ := hd
      obtain ⟨ks₁, rfl⟩ := hp.exists_cons
      rw [items_of_item hc hi hc', afterItem, hu']
      simp
  | definition hd _ ih =>
    rw [List.append_assoc] at hc
    obtain ⟨d', c', hi, hc', hr⟩ := item_definition hd hc
    obtain ⟨u', hu, hu'⟩ := ih declarations (d' :: definitions) hc'
    refine ⟨{ u' with definitions := d' :: u'.definitions }, ?_, ?_⟩
    · simp only [SourceUnit.relabel, SourceUnit.mk.injEq, Relabelling.spanless_scope] at hu ⊢
      simp [hu, hr]
    · obtain ⟨_, hp, _⟩ := hd
      obtain ⟨ks₁, rfl⟩ := hp.exists_cons
      rw [items_of_item hc hi hc', afterItem, hu']
      simp

end Grammar

end MiniC
