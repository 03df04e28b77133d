import MiniC.Proofs.Grammar.FirstOperand
import MiniC.Proofs.Grammar.Parting

/-! # The help for a missing semicolon

The help that names where an expression statement starts is given for nothing but an expression
statement that is read and not followed by a semicolon, and then it is given. The place that it
names is where the tree of the expression starts. Since brackets around an expression leave no
trace in its tree, this is the first token of the statement only if that token opens no group; in
general it is the first one behind the brackets.
-/

namespace MiniC

namespace Grammar

/-- The reader of the list comes to an item. -/
inductive ItemDue (tokens : List Token) : Cursor → Prop
  | first : ItemDue tokens (.ofTokens tokens)
  | next {c d : Cursor} {i : Item} (h : ItemDue tokens c) (hi : item c = .ok (i, d)) :
      ItemDue tokens d

/-- The reader of the list comes to a statement, or to the end of a body. -/
inductive StatementDue (tokens : List Token) : Cursor → Prop
  | first {c d f : Cursor} {proto : Prototype} {locals : List VariableDeclaration}
      (h : ItemDue tokens c) (hproto : prototype c = .ok (proto, d)) (hopen : d.kind = .lbrace)
      (hlocals : variableDeclarations [] d.advance = .ok (locals, f)) : StatementDue tokens f
  | next {c d : Cursor} {s : Stmt} (h : StatementDue tokens c) (hs : statement c = .ok (s, d)) :
      StatementDue tokens d

/-- The reader comes to an expression statement without a semicolon: the expression `value` stands
between the cursors. -/
structure Unterminated (tokens : List Token) (c : Cursor) (value : Expr) (d : Cursor) : Prop where
  due : StatementDue tokens c
  read : expression c = .ok (value, d)
  unterminated : d.kind ≠ .semicolon

def unterminatedError (value : Expr) (d : Cursor) : ParseError :=
  (d.unexpected .unexpectedToken "`;`").addHelp (semicolonMissingAt value.span.start)

/-- Errors with the help have the property. -/
def Blames {α : Type} (P : ParseError → Prop) (x : Except Failure α) : Prop :=
  ∀ e, x = .error (.refused e) → (∃ p, semicolonMissingAt p ∈ e.help) → P e

def Silent (e : ParseError) : Prop := ∀ p, semicolonMissingAt p ∉ e.help

variable {α β : Type} {P : ParseError → Prop} {x : Except Failure α} {c d : Cursor}

theorem Blames.ok (a : α) : Blames P (.ok a : Except Failure α) := by
  intro e h
  cases h

theorem Blames.endless : Blames P (.error .endless : Except Failure α) := by
  intro e h
  cases h

theorem Blames.error {e : ParseError} (h : (∃ p, semicolonMissingAt p ∈ e.help) → P e) :
    Blames P (.error (.refused e) : Except Failure α) := by
  intro e' he
  cases he
  exact h

theorem Blames.fail {failure : Failure} (h : x = .error failure) (hx : Blames P x) :
    Blames P (.error failure : Except Failure β) := by
  intro e he
  cases he
  exact hx e h

theorem Silent.blames {e : ParseError} (h : Silent e) :
    Blames P (.error (.refused e) : Except Failure α) :=
  .error fun ⟨p, hp⟩ => absurd hp (h p)

theorem Blames.bind {f : α → Except Failure β} (hx : Blames P x)
    (hf : ∀ a, x = .ok a → Blames P (f a)) : Blames P (x >>= f) := by
  intro e h
  rcases bind_eq_error_iff.mp h with h | ⟨a, ha, h⟩
  · exact hx e h
  · exact hf a ha e h

theorem Silent.addHelp {e : ParseError} {help : String} (h : Silent e)
    (hhelp : help.toList.head? ≠ some 't') : Silent (e.addHelp help) := by
  intro p hp
  rw [ParseError.addHelp, List.mem_append, List.mem_singleton] at hp
  exact hp.elim (h p) (semicolonMissingAt_ne hhelp p)

theorem silent_ofLexError (cause : LexError) (span : Span) : Silent (.ofLexError cause span) := by
  intro p hp
  cases cause with
  | invalidCharacter => cases hp
  | invalidInteger =>
    exact semicolonMissingAt_ne (by decide +kernel) p (List.mem_singleton.mp hp)
  | unterminatedComment =>
    exact semicolonMissingAt_ne (by decide +kernel) p (List.mem_singleton.mp hp)

theorem silent_unexpected (c : Cursor) (code : Code) (expected : String) :
    Silent (c.unexpected code expected) := by
  rw [Cursor.unexpected, ParseError.unexpected]
  split
  · exact silent_ofLexError _ _
  · intro p hp
    cases hp

theorem silent_unexpectedName (c : Cursor) : Silent c.unexpectedName := by
  have h := silent_unexpected c .expectedIdentifier "identifier"
  unfold Cursor.unexpectedName
  split
  · next hk => exact h.addHelp (by rw [hk]; decide +kernel)
  · next hk => exact h.addHelp (by rw [hk]; decide +kernel)
  · exact h

theorem blames_expect (c : Cursor) (k : TokenKind) : Blames P (c.expect k) := by
  rw [Cursor.expect_eq]
  split
  · exact .ok _
  · exact (silent_unexpected c _ _).blames

theorem blames_expectIdent (c : Cursor) : Blames P c.expectIdent := by
  rw [Cursor.expectIdent_eq]
  split
  · exact .ok _
  · exact (silent_unexpectedName c).blames

theorem blames_typeName (c : Cursor) : Blames P (typeName c) := by
  unfold typeName
  split
  · exact .ok _
  · exact (silent_unexpected c _ _).blames

theorem blames_parameter (c : Cursor) : Blames P (parameter c) :=
  (blames_typeName c).bind fun _ _ => (blames_expectIdent _).bind fun _ _ => .ok _

theorem blames_parameters (done : List Parameter) (c : Cursor) : Blames P (parameters done c) := by
  induction c using Cursor.before_induction generalizing done with
  | step c ih =>
    rw [parameters_turn]
    refine (blames_parameter c).bind fun r hr => ?_
    split
    · exact ih _ (before_advance_of_before (parameter_before hr)) _
    · exact .ok _

theorem blames_prototype (c : Cursor) : Blames P (prototype c) := by
  have hparams : ∀ c, Blames P (parameterList c) := by
    intro c
    unfold parameterList
    split
    · exact .ok _
    · exact blames_parameters [] c
  rw [prototype_eq]
  refine (blames_typeName c).bind fun _ _ => (blames_expectIdent _).bind fun _ _ => ?_
  refine (blames_expect _ _).bind fun _ _ => (hparams _).bind fun _ _ => ?_
  exact (blames_expect _ _).bind fun _ _ => .ok _

theorem blames_variableDeclaration (c : Cursor) : Blames P (variableDeclaration c) :=
  (blames_typeName c).bind fun _ _ => (blames_expectIdent _).bind fun _ _ =>
    (blames_expect _ _).bind fun _ _ => .ok _

theorem blames_variableDeclarations (done : List VariableDeclaration) (c : Cursor) :
    Blames P (variableDeclarations done c) := by
  induction c using Cursor.before_induction generalizing done with
  | step c ih =>
    rw [variableDeclarations_turn]
    split
    · exact (blames_variableDeclaration c).bind fun r hr => ih _ (variableDeclaration_before hr) _
    · exact .ok _

section Expressions

variable {e : Expr} {l : Level} {enclosing : Enclosing}

theorem blames_afterOperand_of_closing
    (h : c.kind.Closing → Blames P (afterAssignment (l.assignment e) c enclosing)) :
    Blames P (afterOperand e l c enclosing) := by
  by_cases hk : c.kind.Closing
  · rw [afterOperand_of_closing hk]
    exact h hk
  · obtain ⟨l', hl⟩ :
        ∃ l', afterOperand e l c enclosing = .ok (.operand l' enclosing c.advance) :=
      afterOperand_of_not_closing hk
    rw [hl]
    exact .ok _

theorem blames_afterOperand : Blames P (afterOperand e l c enclosing) := by
  induction enclosing generalizing e l c with
  | nil => exact blames_afterOperand_of_closing fun _ => .ok _
  | cons frame enclosing ih =>
    refine blames_afterOperand_of_closing fun _ => ?_
    obtain ⟨bracket, outer⟩ := frame
    rcases bracket.ends_or_goesOn c.kind with hend | ⟨hcomma, callee, calleeSpan, args, rfl⟩
    · rw [afterAssignment_of_end hend]
      exact (blames_expect c _).bind fun _ _ => ih
    · rw [afterAssignment_comma hcomma]
      exact .ok _

theorem blames_operand : Blames P (operand l enclosing c) := by
  unfold operand
  cases c.kind with
  | ident name =>
    dsimp only
    split
    · exact .ok _
    · split
      · split
        · exact blames_afterOperand
        · exact .ok _
      · exact blames_afterOperand
  | number value => exact blames_afterOperand
  | lparen => exact .ok _
  | _ => exact (silent_unexpected c _ _).blames

theorem blames_operands : Blames P (operands l enclosing c) := by
  fun_induction operands l enclosing c with
  | case1 l enclosing c failure ho => exact .fail ho blames_operand
  | case2 => exact .ok _
  | case3 l enclosing c l' enclosing' c' ho hb ih => exact ih
  | case4 => exact .endless

theorem blames_expression (c : Cursor) : Blames P (expression c) := blames_operands

end Expressions

theorem kind_ne_of_expression {value : Expr} {k : TokenKind} (h : expression c = .ok (value, d))
    (hk : k.canStartExpr = false) : c.kind ≠ k := by
  rintro rfl
  exact Bool.false_ne_true (hk.symm.trans (expression_start h))

theorem expect_semicolon_of_ne (h : d.kind ≠ .semicolon) :
    d.expect .semicolon = .error (.refused (d.unexpected .unexpectedToken "`;`")) := by
  rw [Cursor.expect_eq, if_neg (Cursor.not_check_of_kind h)]
  rfl

theorem statement_unterminated {value : Expr} (h : expression c = .ok (value, d))
    (hk : d.kind ≠ .semicolon) :
    statement c = .error (.refused (unterminatedError value d)) := by
  have hreturn : c.kind ≠ .returnWord := kind_ne_of_expression h rfl
  rw [statement_of_expression hreturn, h, ok_bind, expect_semicolon_of_ne hk, missingSemicolon_eq]
  rfl

theorem blames_statement (h : ∀ value d, expression c = .ok (value, d) → d.kind ≠ .semicolon →
    P (unterminatedError value d)) : Blames P (statement c) := by
  by_cases hreturn : c.kind = .returnWord
  · rw [statement_of_return hreturn]
    refine (blames_expression _).bind fun _ _ => (blames_expect _ _).bind fun _ _ => .ok _
  · cases hvalue : expression c with
    | error failure =>
      rw [statement_of_expression hreturn, hvalue]
      exact .fail hvalue (blames_expression c)
    | ok r =>
      obtain ⟨value, d⟩ := r
      by_cases hk : d.kind = .semicolon
      · rw [statement_of_expression hreturn, hvalue, ok_bind, Cursor.expect_eq,
          if_pos (Cursor.check_of_kind hk)]
        exact .ok _
      · rw [statement_unterminated hvalue hk]
        exact .error fun _ => h value d hvalue hk

variable {tokens : List Token} {e : ParseError}

/-- The error is that for some expression statement of the list that lacks its semicolon. -/
def Owed (tokens : List Token) (e : ParseError) : Prop :=
  ∃ c value d, Unterminated tokens c value d ∧ e = unterminatedError value d

theorem blames_statements (done : List Stmt) (h : StatementDue tokens c) :
    Blames (Owed tokens) (statements done c) := by
  induction c using Cursor.before_induction generalizing done with
  | step c ih =>
    rw [statements_turn]
    split
    · exact .ok _
    · have hstatement : Blames (Owed tokens) (statement c) :=
        blames_statement fun value d hvalue hk => ⟨c, value, d, ⟨h, hvalue, hk⟩, rfl⟩
      exact hstatement.bind fun r hr => ih _ (statement_before hr) _ (.next h hr)

theorem blames_item (h : ItemDue tokens c) : Blames (Owed tokens) (item c) := by
  rw [item_eq]
  refine (blames_prototype c).bind fun r hproto => ?_
  obtain ⟨proto, d⟩ := r
  dsimp only
  unfold afterPrototype
  split
  · exact .ok _
  next hopen =>
    refine Blames.bind ?_ fun _ _ => .ok _
    refine (blames_expect d _).bind fun r hr => ?_
    obtain ⟨-, hd⟩ := Cursor.expect_eq_ok hr
    refine (blames_variableDeclarations [] _).bind fun r' hlocals => ?_
    rw [← hd] at hlocals
    refine (blames_statements [] (.first h hproto hopen hlocals)).bind fun _ _ => ?_
    exact (blames_expect _ _).bind fun _ _ => .ok _
  · exact ((silent_unexpected d _ _).addHelp (by decide +kernel)).blames

theorem blames_items (declarations : List FunctionDeclaration)
    (definitions : List FunctionDefinition) (h : ItemDue tokens c) :
    Blames (Owed tokens) (items declarations definitions c) := by
  induction c using Cursor.before_induction generalizing declarations definitions with
  | step c ih =>
    rw [items_turn]
    split
    · exact .ok _
    · refine (blames_item h).bind fun r hr => ?_
      obtain ⟨i, d⟩ := r
      cases i with
      | declaration f => exact ih d (item_before hr) _ _ (.next h hr)
      | definition f => exact ih d (item_before hr) _ _ (.next h hr)

theorem ItemDue.items_eq (h : ItemDue tokens c) : ∃ declarations definitions,
    items [] [] (.ofTokens tokens) = items declarations definitions c := by
  induction h with
  | first => exact ⟨[], [], rfl⟩
  | @next c d i _ hi ih =>
    obtain ⟨declarations, definitions, ih⟩ := ih
    have hend : ¬ c.atEnd = true := by
      obtain ⟨r, hr, -⟩ := bind_eq_ok_iff.mp (item_eq c ▸ hi)
      rw [Cursor.atEnd, decide_eq_true_eq, (prototype_reaches hr).1]
      simp
    rw [ih, items_turn, if_neg hend, hi, ok_bind]
    cases i with
    | declaration f => exact ⟨_, _, rfl⟩
    | definition f => exact ⟨_, _, rfl⟩

theorem StatementDue.statements_eq (h : StatementDue tokens c) :
    ∃ (i : Cursor) (proto : Prototype) (d f : Cursor) (locals : List VariableDeclaration)
      (done : List Stmt), ItemDue tokens i ∧ prototype i = .ok (proto, d) ∧ d.kind = .lbrace ∧
        variableDeclarations [] d.advance = .ok (locals, f) ∧
        statements [] f = statements done c := by
  induction h with
  | first h hproto hopen hlocals => exact ⟨_, _, _, _, _, [], h, hproto, hopen, hlocals, rfl⟩
  | @next c d s _ hs ih =>
    obtain ⟨i, proto, b, f, locals, done, hi, hproto, hopen, hlocals, ih⟩ := ih
    have hbrace : ¬ c.check .rbrace = true := by
      refine Cursor.not_check_of_kind fun hk => ?_
      have hstart : c.kind ≠ .returnWord := by simp [hk]
      rw [statement_of_expression hstart] at hs
      obtain ⟨r, hr, -⟩ := bind_eq_ok_iff.mp hs
      exact kind_ne_of_expression hr rfl hk
    refine ⟨i, proto, b, f, locals, s :: done, hi, hproto, hopen, hlocals, ?_⟩
    rw [ih, statements_turn, if_neg hbrace, hs, ok_bind]

/-- A statement that is refused makes the reader of the list stop. -/
theorem StatementDue.refused {failure : Failure} (h : StatementDue tokens c)
    (hk : c.kind ≠ .rbrace) (hs : statement c = .error failure) :
    items [] [] (.ofTokens tokens) = .error failure := by
  obtain ⟨i, proto, d, f, locals, done, hi, hproto, hopen, hlocals, hstatements⟩ :=
    h.statements_eq
  obtain ⟨declarations, definitions, hitems⟩ := hi.items_eq
  have hrefused : statements [] f = .error failure := by
    rw [hstatements, statements_turn, if_neg (Cursor.not_check_of_kind hk), hs]
    rfl
  have hbody : body d = .error failure := by
    unfold body
    rw [Cursor.expect_eq, if_pos (Cursor.check_of_kind hopen), ok_bind]
    dsimp only
    rw [hlocals, ok_bind]
    dsimp only
    rw [hrefused]
    rfl
  have hitem : item i = .error failure := by
    rw [item_eq, hproto, ok_bind, afterPrototype, hopen, hbody]
    rfl
  have hend : ¬ i.atEnd = true := by
    rw [Cursor.atEnd, decide_eq_true_eq, (prototype_reaches hproto).1]
    simp
  rw [hitems, items_turn, if_neg hend, hitem]
  rfl

theorem Unterminated.refused {value : Expr} (h : Unterminated tokens c value d) :
    items [] [] (.ofTokens tokens) = .error (.refused (unterminatedError value d)) :=
  h.due.refused (kind_ne_of_expression h.read rfl) (statement_unterminated h.read h.unterminated)

theorem ItemDue.reaches (h : ItemDue tokens c) : (Cursor.ofTokens tokens).Reaches c := by
  induction h with
  | first => exact Cursor.reaches_refl _
  | next _ hi ih => exact ih.trans ((reading_item _).accepted _ _ hi).1

theorem StatementDue.reaches (h : StatementDue tokens c) :
    (Cursor.ofTokens tokens).Reaches c := by
  induction h with
  | @first c d f _ _ h hproto hopen hlocals =>
    have hbrace : d.Reaches d.advance :=
      .advance (by simp [hopen]) (Cursor.not_repeats_of_kind (by simp [hopen]))
    have hlocals := ((reading_variableDeclarations [] _).accepted _ _ hlocals).1
    exact ((h.reaches.trans (prototype_reaches hproto).2).trans hbrace).trans hlocals
  | next _ hs ih => exact ih.trans ((reading_statement _).accepted _ _ hs).1

theorem StatementDue.leads {opened more : List Token} {first : Token} (h : StatementDue tokens c)
    (hpasses : c.Passes (opened ++ first :: more) d) (ho : Token.InOrder tokens)
    (heof : .eof ∈ tokens.map (·.kind)) : first.Leads more := by
  obtain ⟨hdrop, -⟩ := hpasses.drop (h.reaches.on heof)
  have hread : (opened ++ first :: more).Sublist tokens :=
    (List.sublist_append_left _ _).trans (hdrop ▸ List.drop_sublist _ _)
  exact Token.leads_of_inOrder ho ((List.sublist_append_right _ _).trans hread)
    (hpasses.kind_ne_eof _ (List.mem_append_right _ List.mem_cons_self))

end Grammar

namespace Program

open Grammar

/-- The help for a missing semicolon is given just for an expression statement that is read and
not followed by a semicolon. It names the place of the first token of this statement that opens no
group, unless a later token of the statement starts before it, as in no list that is in order. -/
theorem parse_missing_semicolon (tokens : List Token) (name : String) :
    (∀ e, (parse tokens name = .error (.refused e) ∧ ∃ p, semicolonMissingAt p ∈ e.help) ↔
      ∃ c value d, Unterminated tokens c value d ∧ e = unterminatedError value d) ∧
    ∀ c value d, Unterminated tokens c value d →
      ∃ (opened : List Token) (first : Token) (more : List Token),
        c.Passes (opened ++ first :: more) d ∧ (∀ t ∈ opened, t.kind = .lparen) ∧
        first.kind ≠ .lparen ∧ (first.Leads more → value.span.start = first.span.start) ∧
        (Token.InOrder tokens → .eof ∈ tokens.map (·.kind) → first.Leads more) := by
  refine ⟨fun e => ⟨?_, ?_⟩, fun c value d h => ?_⟩
  · rintro ⟨h, hhelp⟩
    exact blames_items [] [] .first e (parse_eq_error_iff.mp h) hhelp
  · rintro ⟨c, value, d, h, rfl⟩
    refine ⟨parse_eq_error_iff.mpr h.refused, value.span.start, ?_⟩
    exact List.mem_append_right _ List.mem_cons_self
  · obtain ⟨opened, first, more, hpasses, hopened, hfirst, hstart⟩ := expression_begins h.read
    exact ⟨opened, first, more, hpasses, hopened, hfirst, hstart, h.due.leads hpasses⟩

def grouped : String := "int f() \x7b (a) \x7d"

def groupedAt (i : Nat) : Cursor := (Cursor.ofTokens (Token.lex grouped)).moveTo i

theorem unterminated_grouped : Unterminated (Token.lex grouped) (groupedAt 5)
    (.identifier "a" ⟨⟨1, 12⟩, ⟨1, 13⟩⟩ none) (groupedAt 8) := by
  have hproto : prototype (groupedAt 0) = .ok (⟨⟨"int", ⟨⟨1, 1⟩, ⟨1, 4⟩⟩⟩, "f",
      ⟨⟨1, 5⟩, ⟨1, 6⟩⟩, [], ⟨⟨1, 1⟩, ⟨1, 8⟩⟩⟩, groupedAt 4) := by decide +kernel
  have hlocals : variableDeclarations [] (groupedAt 4).advance = .ok ([], groupedAt 5) := by
    decide +kernel
  exact ⟨.first .first hproto (by decide +kernel) hlocals, by decide +kernel, by decide +kernel⟩

/-- Behind one bracket the first token is the name `a`. -/
theorem parse_missing_semicolon_grouped :
    Unterminated (Token.lex grouped) (groupedAt 5)
      (.identifier "a" ⟨⟨1, 12⟩, ⟨1, 13⟩⟩ none) (groupedAt 8) ∧
    ∃ (opened : List Token) (first : Token) (more : List Token),
      (groupedAt 5).Passes (opened ++ first :: more) (groupedAt 8) ∧
      (∀ t ∈ opened, t.kind = .lparen) ∧ first.kind ≠ .lparen ∧ first.Leads more ∧
      first.span.start = ⟨1, 12⟩ := by
  refine ⟨unterminated_grouped, ?_⟩
  obtain ⟨opened, first, more, hpasses, hopened, hfirst, hstart, hleads⟩ :=
    (parse_missing_semicolon (Token.lex grouped) "m").2 _ _ _ unterminated_grouped
  have hleads : first.Leads more :=
    hleads (Token.inOrder_lex (by decide +kernel)) (by decide +kernel)
  exact ⟨opened, first, more, hpasses, hopened, hfirst, hleads, (hstart hleads).symm⟩

/-- The help names the place behind the bracket, which is not where the statement starts. -/
theorem grouped_misplaced : ∃ (c : Cursor) (value : Expr) (d : Cursor) (e : ParseError),
    Unterminated (Token.lex grouped) c value d ∧ ofSource grouped "m" = .error (.refused e) ∧
      e.help = [semicolonMissingAt ⟨1, 12⟩] ∧ c.span.start = ⟨1, 11⟩ ∧
      semicolonMissingAt c.span.start ∉ e.help := by
  have hrefused : ofSource grouped "m" = .error _ :=
    parse_eq_error_iff.mpr unterminated_grouped.refused
  have hhelp : (unterminatedError (.identifier "a" ⟨⟨1, 12⟩, ⟨1, 13⟩⟩ none) (groupedAt 8)).help
      = [semicolonMissingAt ⟨1, 12⟩] := by decide +kernel
  refine ⟨_, _, _, _, unterminated_grouped, hrefused, hhelp, by decide +kernel, ?_⟩
  rw [hhelp]
  decide +kernel

end Program

end MiniC
