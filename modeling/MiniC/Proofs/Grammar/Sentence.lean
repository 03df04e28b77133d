import MiniC.Proofs.Grammar.Completeness
import MiniC.Proofs.Grammar.Soundness
import MiniC.Proofs.Token.EndMark

/-! # The parser accepts the sentences

A list of tokens that closes with its only end mark is accepted just if the kinds before the mark
form a sentence. The program is then the tree of a derivation, bound to nothing, and up to spans
there is no other tree. No sentence holds a lexical error, so no program is read from a list with
one.
-/

namespace MiniC

namespace Grammar

variable {r : Rank} {ks : List TokenKind} {e : Expr} {cause : LexError}

theorem map_snd_eq_of_forall {α : Type} {parts : List (List TokenKind × α)} {f : α → α}
    (h : ∀ a ∈ parts, f a.2 = a.2) : (parts.map (·.2)).map f = parts.map (·.2) := by
  rw [List.map_map]
  exact List.map_congr_left h

theorem Derives.unbound (h : Derives r ks e) : e.relabel .unbound = e := by
  induction h with
  | assign _ _ _ _ ih => simp [ih]
  | ofAdditive _ ih => exact ih
  | sum _ _ _ _ ih ih' => simp [ih, ih']
  | ofMultiplicative _ ih => exact ih
  | product _ _ _ _ ih ih' => simp [ih, ih']
  | ofCall _ ih => exact ih
  | call _ _ _ args _ ih =>
    rw [Expr.relabel_call, map_snd_eq_of_forall ih]
    rfl
  | ofPrimary _ ih => exact ih
  | identifier => simp
  | number => simp
  | group _ ih => exact ih

theorem DerivesParameter.unbound {p : Parameter} (h : DerivesParameter ks p) :
    p.relabel .unbound = p := by
  cases h
  rfl

theorem DerivesPrototype.unbound {p : Prototype} (h : DerivesPrototype ks p) :
    p.relabel .unbound = p := by
  obtain ⟨name, typeSpan, nameSpan, span, params, hparams⟩ := h
  simp only [Prototype.relabel, map_snd_eq_of_forall fun a ha => (hparams a ha).unbound]
  rfl

theorem DerivesVariable.unbound {v : VariableDeclaration} (h : DerivesVariable ks v) :
    v.relabel .unbound = v := by
  cases h
  rfl

theorem DerivesStmt.unbound {s : Stmt} (h : DerivesStmt ks s) : s.relabel .unbound = s := by
  cases h with
  | ret span he => rw [Stmt.relabel, he.unbound, Relabelling.unbound_span]
  | expr he => rw [Stmt.relabel, he.unbound]

theorem DerivesBody.unbound {b : FunctionBody} (h : DerivesBody ks b) :
    b.relabel .unbound = b := by
  obtain ⟨span, locals, ss, hlocals, hss⟩ := h
  simp only [FunctionBody.relabel, map_snd_eq_of_forall fun a ha => (hlocals a ha).unbound,
    map_snd_eq_of_forall fun a ha => (hss a ha).unbound]
  rfl

theorem DerivesDeclaration.unbound {d : FunctionDeclaration} (h : DerivesDeclaration ks d) :
    d.relabel .unbound = d := by
  obtain ⟨span, hp⟩ := h
  simp [FunctionDeclaration.relabel, hp.unbound]

theorem DerivesDefinition.unbound {d : FunctionDefinition} (h : DerivesDefinition ks d) :
    d.relabel .unbound = d := by
  obtain ⟨span, hp, hb⟩ := h
  simp [FunctionDefinition.relabel, hp.unbound, hb.unbound]

theorem DerivesUnit.unbound {u : SourceUnit} (h : DerivesUnit ks u) : u.relabel .unbound = u := by
  induction h with
  | nil => rfl
  | declaration hd _ ih =>
    rw [SourceUnit.relabel_eq_self_iff] at ih ⊢
    exact ⟨by rw [List.map_cons, hd.unbound, ih.1], ih.2⟩
  | definition hd _ ih =>
    rw [SourceUnit.relabel_eq_self_iff] at ih ⊢
    exact ⟨ih.1, by rw [List.map_cons, hd.unbound, ih.2.1], ih.2.2⟩

/-- Neither the end mark nor a token that the lexer could not form. -/
def Terminal (k : TokenKind) : Bool := k != .eof && k.lexError?.isNone

theorem terminal_token (op : BinaryOp) : Terminal op.token = true := by
  cases op <;> rfl

theorem all_commaSeparated {P : TokenKind → Bool} {kss : List (List TokenKind)}
    (hcomma : P .comma = true) (h : ∀ ks ∈ kss, ks.all P = true) :
    (commaSeparated kss).all P = true := by
  induction kss with
  | nil => rfl
  | cons ks kss ih =>
    have ih := ih fun ks' hks' => h ks' (List.mem_cons_of_mem _ hks')
    cases kss with
    | nil => exact h ks List.mem_cons_self
    | cons ks' kss =>
      simp only [commaSeparated, List.all_append, List.all_cons, Bool.and_eq_true]
      exact ⟨h ks List.mem_cons_self, hcomma, ih⟩

theorem all_flatMap_fst {α : Type} {P : TokenKind → Bool} {parts : List (List TokenKind × α)}
    (h : ∀ a ∈ parts, a.1.all P = true) : (parts.flatMap (·.1)).all P = true := by
  rw [List.all_flatMap, List.all_eq_true]
  exact h

theorem Derives.terminal (h : Derives r ks e) : ks.all Terminal = true := by
  induction h with
  | assign _ _ _ _ ih =>
    simp only [List.all_cons, Bool.and_eq_true]
    exact ⟨rfl, rfl, ih⟩
  | ofAdditive _ ih => exact ih
  | sum _ _ _ _ ih ih' =>
    simp only [List.all_append, List.all_cons, Bool.and_eq_true]
    exact ⟨ih, terminal_token _, ih'⟩
  | ofMultiplicative _ ih => exact ih
  | product _ _ _ _ ih ih' =>
    simp only [List.all_append, List.all_cons, Bool.and_eq_true]
    exact ⟨ih, terminal_token _, ih'⟩
  | ofCall _ ih => exact ih
  | call _ _ _ args _ ih =>
    simp only [List.all_append, List.all_cons, List.all_nil, Bool.and_true, Bool.and_eq_true]
    exact ⟨rfl, rfl, all_commaSeparated rfl (List.forall_mem_map.mpr ih), rfl⟩
  | ofPrimary _ ih => exact ih
  | identifier => rfl
  | number => rfl
  | group _ ih =>
    simp only [List.all_append, List.all_cons, List.all_nil, Bool.and_true, Bool.and_eq_true]
    exact ⟨rfl, ih, rfl⟩

theorem DerivesParameter.terminal {p : Parameter} (h : DerivesParameter ks p) :
    ks.all Terminal = true := by
  cases h
  rfl

theorem DerivesPrototype.terminal {p : Prototype} (h : DerivesPrototype ks p) :
    ks.all Terminal = true := by
  obtain ⟨name, typeSpan, nameSpan, span, params, hparams⟩ := h
  have hp : (commaSeparated (params.map (·.1))).all Terminal = true :=
    all_commaSeparated rfl (List.forall_mem_map.mpr fun a ha => (hparams a ha).terminal)
  simp only [List.all_append, List.all_cons, List.all_nil, Bool.and_true, Bool.and_eq_true]
  exact ⟨rfl, rfl, rfl, hp, rfl⟩

theorem DerivesVariable.terminal {v : VariableDeclaration} (h : DerivesVariable ks v) :
    ks.all Terminal = true := by
  cases h
  rfl

theorem DerivesStmt.terminal {s : Stmt} (h : DerivesStmt ks s) : ks.all Terminal = true := by
  cases h with
  | ret span he =>
    simp only [List.all_append, List.all_cons, List.all_nil, Bool.and_true, Bool.and_eq_true]
    exact ⟨rfl, he.terminal, rfl⟩
  | expr he =>
    simp only [List.all_append, Bool.and_eq_true]
    exact ⟨he.terminal, rfl⟩

theorem DerivesBody.terminal {b : FunctionBody} (h : DerivesBody ks b) :
    ks.all Terminal = true := by
  obtain ⟨span, locals, ss, hlocals, hss⟩ := h
  simp only [List.all_append, List.all_cons, List.all_nil, Bool.and_true, Bool.and_eq_true]
  exact ⟨rfl, all_flatMap_fst fun a ha => (hlocals a ha).terminal,
    all_flatMap_fst fun a ha => (hss a ha).terminal, rfl⟩

theorem DerivesUnit.terminal {u : SourceUnit} (h : DerivesUnit ks u) :
    ks.all Terminal = true := by
  induction h with
  | nil => rfl
  | declaration hd _ ih =>
    obtain ⟨span, hp⟩ := hd
    simp only [List.all_append, Bool.and_eq_true]
    exact ⟨⟨hp.terminal, rfl⟩, ih⟩
  | definition hd _ ih =>
    obtain ⟨span, hp, hb⟩ := hd
    simp only [List.all_append, Bool.and_eq_true]
    exact ⟨⟨hp.terminal, hb.terminal⟩, ih⟩

theorem DerivesUnit.not_mem_error {u : SourceUnit} (h : DerivesUnit ks u) :
    .error cause ∉ ks := fun hmem => by
  cases List.all_eq_true.mp h.terminal _ hmem

theorem DerivesUnit.not_mem_eof {u : SourceUnit} (h : DerivesUnit ks u) : .eof ∉ ks :=
  fun hmem => by
  cases List.all_eq_true.mp h.terminal _ hmem

end Grammar

namespace Program

open Grammar

variable {tokens : List Token} {ks : List TokenKind} {name : String}

theorem parse_eq_ok_iff {p : Program} :
    parse tokens name = .ok p ↔ p.name = name ∧ items [] [] (.ofTokens tokens) = .ok p.unit := by
  unfold parse
  rw [bind_eq_ok_iff]
  constructor
  · rintro ⟨u, hu, h⟩
    cases h
    exact ⟨rfl, hu⟩
  · rintro ⟨rfl, hu⟩
    exact ⟨_, hu, rfl⟩

theorem append_eof_inj {ks ks' rest : List TokenKind} (h : ks ++ [.eof] = ks' ++ .eof :: rest)
    (hk : .eof ∉ ks) : ks' = ks := by
  rcases List.append_eq_append_iff.mp h with ⟨as, rfl, ha⟩ | ⟨as, rfl, ha⟩
  · cases as with
    | nil => exact List.append_nil _
    | cons a as => simp at ha
  · cases as with
    | nil => exact (List.append_nil _).symm
    | cons a as =>
      obtain ⟨rfl, -⟩ := List.cons.inj ha
      exact absurd (by simp) hk

/-- The tree that is read is derived. -/
theorem derivesUnit_of_parse {p : Program} (ht : Token.Closes tokens ks)
    (h : parse tokens name = .ok p) : DerivesUnit ks p.unit := by
  have hkinds := (Cursor.kinds_ofTokens tokens).trans ht.1
  have hended : (Cursor.ofTokens tokens).Ended := by simp [Cursor.Ended, hkinds]
  obtain ⟨ks', u, rest, hu, hk, he⟩ := items_sound hended (parse_eq_ok_iff.mp h).2
  obtain rfl := append_eof_inj (hkinds.symm.trans hk) ht.2
  rw [he]
  exact hu

/-- Every tree that is derived is read, up to spans. -/
theorem parse_of_derivesUnit {u : SourceUnit} (ht : tokens.map (·.kind) = ks ++ [.eof])
    (h : DerivesUnit ks u) :
    ∃ p, parse tokens name = .ok p ∧ p.unit.relabel .spanless = u.relabel .spanless := by
  obtain ⟨u', hr, hu⟩ := h.reads [] [] ((Cursor.kinds_ofTokens tokens).trans ht)
  exact ⟨{ name, unit := u' }, parse_eq_ok_iff.mpr ⟨rfl, hu⟩, hr⟩

/-- The lists that sources are cut into close with their only end mark. Of such a list, the
sentences of the grammar are accepted and nothing else, with the derived tree. -/
theorem parse_accepts_sentences :
    (∀ source, ∃ ks, Token.Closes (Token.lex source) ks) ∧
      ∀ tokens ks name, Token.Closes tokens ks →
        ((∃ p, parse tokens name = .ok p) ↔ Sentence ks) ∧
        (∀ p, parse tokens name = .ok p →
          p.name = name ∧ DerivesUnit ks p.unit ∧ p.relabel .unbound = p ∧
            ∀ u, DerivesUnit ks u → u.relabel .spanless = p.unit.relabel .spanless) ∧
        ∀ cause, .error cause ∈ ks → ∀ p, parse tokens name ≠ .ok p := by
  refine ⟨Token.lex_closes, fun tokens ks name ht => ⟨⟨?_, ?_⟩, ?_, ?_⟩⟩
  · rintro ⟨p, hp⟩
    exact ⟨p.unit, derivesUnit_of_parse ht hp⟩
  · rintro ⟨u, hu⟩
    obtain ⟨p, hp, -⟩ := parse_of_derivesUnit ht.1 hu
    exact ⟨p, hp⟩
  · intro p hp
    have hd := derivesUnit_of_parse ht hp
    refine ⟨(parse_eq_ok_iff.mp hp).1, hd, by rw [relabel, hd.unbound], fun u hu => ?_⟩
    obtain ⟨q, hq, hr⟩ := parse_of_derivesUnit ht.1 hu
    obtain rfl := Except.ok.inj (hp.symm.trans hq)
    exact hr.symm
  · intro cause hcause p hp
    exact (derivesUnit_of_parse ht hp).not_mem_error hcause

/-- The kinds of `int f(int a) { int b; b = a * (2 + 1); return f(b); }`. -/
def recursive : List TokenKind :=
  [.intWord, .ident "f", .lparen, .intWord, .ident "a", .rparen, .lbrace,
    .intWord, .ident "b", .semicolon,
    .ident "b", .equals, .ident "a", .star, .lparen, .number 2, .plus, .number 1, .rparen,
    .semicolon, .returnWord, .ident "f", .lparen, .ident "b", .rparen, .semicolon, .rbrace]

def recursiveTree : FunctionDefinition where
  prototype :=
    ⟨⟨"int", .dummy⟩, "f", .dummy, [⟨⟨"int", .dummy⟩, "a", .dummy, .dummy, none⟩], .dummy⟩
  body :=
    { locals := [⟨⟨"int", .dummy⟩, "b", .dummy, .dummy, none⟩]
      statements := [
        .expr (.binary .assign (.identifier "b" .dummy none)
          (.binary .mul (.identifier "a" .dummy none)
            (.binary .add (.number 2 .dummy) (.number 1 .dummy) .dummy) .dummy) .dummy),
        .ret (.call "f" .dummy [.identifier "b" .dummy none] .dummy none) .dummy]
      span := .dummy }
  span := .dummy

theorem derivesUnit_recursive : DerivesUnit recursive { definitions := [recursiveTree] } := by
  have hadd : BinaryOp.add.rank = .additive := rfl
  have hmul : BinaryOp.mul.rank = .multiplicative := rfl
  have hsum : Derives .assignment _ _ :=
    .ofAdditive (.sum hadd .dummy (.ofMultiplicative (.ofCall (.ofPrimary (.number 2 .dummy))))
      (.ofCall (.ofPrimary (.number 1 .dummy))))
  have hproduct : Derives .additive _ _ :=
    .ofMultiplicative (.product hmul .dummy (.ofCall (.ofPrimary (.identifier "a" .dummy)))
      (.ofPrimary (.group hsum)))
  have hargument : Derives .assignment _ _ :=
    .ofAdditive (.ofMultiplicative (.ofCall (.ofPrimary (.identifier "b" .dummy))))
  have hcall : Derives .assignment _ _ :=
    .ofAdditive (.ofMultiplicative (.ofCall (.call "f" .dummy .dummy [(_, _)]
      (by simpa using hargument))))
  have hproto : DerivesPrototype _ recursiveTree.prototype :=
    .intro "f" .dummy .dummy .dummy [([.intWord, .ident "a"], _)]
      (by simpa using .intro "a" .dummy .dummy .dummy)
  have hbody : DerivesBody _ recursiveTree.body :=
    .intro .dummy [([.intWord, .ident "b", .semicolon], _)] [(_, _), (_, _)]
      (by simpa using .intro "b" .dummy .dummy .dummy)
      (List.forall_mem_cons.mpr ⟨.expr (.assign "b" .dummy .dummy hproduct),
        by simpa using .ret .dummy hcall⟩)
  exact .definition (.intro .dummy hproto hbody) .nil

/-- A function that declares, assigns and calls is read as the tree that it should be. -/
theorem parse_accepts_recursive :
    ∃ p, parse ((recursive ++ [TokenKind.eof]).map (Token.mk · .dummy)) "m" = .ok p ∧
      p.unit.relabel .spanless = { definitions := [recursiveTree] } := by
  have hclosed : Token.Closes ((recursive ++ [TokenKind.eof]).map (Token.mk · .dummy))
      recursive := ⟨rfl, by decide⟩
  obtain ⟨haccepts, htree, -⟩ := parse_accepts_sentences.2 _ _ "m" hclosed
  obtain ⟨p, hp⟩ := haccepts.mpr ⟨_, derivesUnit_recursive⟩
  obtain ⟨-, -, -, hunique⟩ := htree p hp
  exact ⟨p, hp, (hunique _ derivesUnit_recursive).symm⟩

end Program

end MiniC
