import MiniC.Proofs.Grammar.Endless
import MiniC.Proofs.Grammar.Parting

/-! # Lexical errors of a list of tokens

A token that the lexer could not form is refused as soon as what stands before it begins a
sentence. The error is the lexer's own, with one exception: where the parser would take a semicolon
behind an expression statement or behind a prototype, it adds the help that it gives for a missing
semicolon. Which help that is can be told from the tokens before alone, by reading them with the
semicolon in place.
-/

namespace MiniC

namespace Cursor

variable {tokens : List Token} {d : Cursor}

/-- What a cursor has seen on its way, it also sees in some list with an end mark. -/
theorem exists_sameTo_ended (hne : tokens ≠ []) (hd : (ofTokens tokens).Reaches d)
    (hk : d.kind.isIdent = false) :
    ∃ more : List Token, .eof ∈ (tokens ++ more).map (·.kind) ∧
      SameTo d.position (ofTokens tokens) (ofTokens (tokens ++ more)) := by
  rcases Nat.lt_or_ge d.position tokens.length with hlt | hge
  · refine ⟨[.endMark], by simp [Token.endMark], sameTo_of_take ?_ hlt⟩
    rw [List.take_append_of_le_length hlt]
  · have ht : tokens.getLast? = some (tokens.getLast hne) := List.getLast?_eq_some_getLast hne
    have hlast : d.current = tokens.getLast hne :=
      (congrArg current hd.eq_moveTo).trans (current_ofTokens_of_length_le ht hge)
    refine ⟨List.replicate (d.position + 1) (tokens.getLast hne) ++ [.endMark],
      by simp [Token.endMark], sameTo_append_replicate ht (hlast ▸ hk) (by omega)⟩

end Cursor

namespace Program

open Grammar

variable {tokens before rest : List Token} {name : String} {cause : LexError} {span : Span}
  {e : ParseError}

/-- The help for a semicolon that is missing behind the tokens: with it and a closing brace they
are a program whose last statement it ends, or with it alone a program that ends with a
declaration. -/
def semicolonHelp (before : List Token) : List String :=
  match parse (before ++ [⟨.semicolon, .dummy⟩, ⟨.rbrace, .dummy⟩, .endMark]) "" with
  | .ok p => (p.unit.definitions.getLast?.map (·.body.unfinished)).getD []
  | .error _ =>
    match parse (before ++ [⟨.semicolon, .dummy⟩, .endMark]) "" with
    | .ok _ => [Prototype.unfinished]
    | .error _ => []

theorem exists_error_of_refused (h : parse tokens name = .error (.refused e))
    (hphase : e.code.phase = .lexer) : ∃ cause, .error cause ∈ tokens.map (·.kind) := by
  obtain ⟨d, hd, href, -⟩ := refused_at h
  obtain ⟨cause, hk⟩ := href.lexical.mp hphase
  refine ⟨cause, hk ▸ List.mem_map_of_mem ?_⟩
  have htokens : d.tokens = tokens.toArray := hd.tokens
  rw [← List.mem_toArray, ← htokens]
  apply Cursor.current_mem
  intro hempty
  rw [Cursor.kind, Cursor.current, hempty] at hk
  cases hk

theorem exists_split_of_refused (h : parse tokens name = .error (.refused e))
    (hphase : e.code.phase = .lexer) : ∃ (before : List Token) (cause : LexError) (span : Span)
      (rest : List Token), tokens = before ++ ⟨.error cause, span⟩ :: rest ∧
        Begins (before.map (·.kind)) := by
  obtain ⟨d, hd, href, -, hsame⟩ := refused_at h
  obtain ⟨cause, hk⟩ := href.lexical.mp hphase
  obtain ⟨cause', hmem⟩ := exists_error_of_refused h hphase
  have hne : tokens ≠ [] := by
    rintro rfl
    cases hmem
  -- An end mark behind the list makes every position one of the list.
  obtain ⟨more, heof, hmore⟩ := Cursor.exists_sameTo_ended hne hd (by rw [hk]; rfl)
  obtain ⟨d', hd', href', hopens, -⟩ := refused_at (hsame _ hmore)
  obtain ⟨cause, hk⟩ := href'.lexical.mp hphase
  have hbegins := begins_of_opens hd' hopens heof
  have hlt : d'.position < tokens.length := by
    apply Nat.lt_of_not_le
    intro hle
    rw [List.take_append, List.take_of_length_le hle, List.map_append] at hbegins
    exact hbegins.viable.not_mem_error (List.mem_append_left _ hmem)
  have ht := (hd'.on heof).getElem?
  rw [List.getElem?_append_left hlt] at ht
  rw [List.take_append_of_le_length (Nat.le_of_lt hlt)] at hbegins
  obtain ⟨hlt, hget⟩ := List.getElem?_eq_some_iff.mp ht
  have hcurrent : tokens[d'.position] = ⟨.error cause, d'.span⟩ := by rw [hget, ← hk]; rfl
  refine ⟨tokens.take d'.position, cause, d'.span, tokens.drop (d'.position + 1), ?_, hbegins⟩
  rw [← hcurrent, ← List.drop_eq_getElem_cons hlt, List.take_append_drop]

/-- Behind what begins a sentence the token is refused, whatever comes after it. -/
theorem exists_refused_of_begins (hbegins : Begins (before.map (·.kind))) :
    ∃ e, e.code.phase = .lexer ∧
      parse (before ++ ⟨.error cause, span⟩ :: rest) name = .error (.refused e) := by
  obtain ⟨tokens, htokens⟩ : ∃ tokens : List Token,
      tokens = before ++ [⟨.error cause, span⟩, .endMark] := ⟨_, rfl⟩
  have hcloses : Token.Closes tokens (before.map (·.kind) ++ [.error cause]) :=
    ⟨by simp [htokens, Token.endMark], by simpa using hbegins.not_mem_eof⟩
  have heof : .eof ∈ tokens.map (·.kind) := by simp [hcloses.1]
  have hlen : before.length < tokens.length := by simp [htokens]
  have ht : tokens[before.length]? = some ⟨.error cause, span⟩ := by simp [htokens]
  cases hparse : parse tokens name with
  | ok p =>
    have hunit := derivesUnit_of_parse hcloses hparse
    exact absurd (List.mem_append_right _ List.mem_cons_self) hunit.not_mem_error
  | error failure =>
    cases failure with
    | endless => exact absurd hparse (parse_ne_endless heof)
    | refused e =>
      obtain ⟨d, hd, href, hopens, hsame⟩ := refused_at hparse
      have hge : before.length ≤ d.position := by
        apply Nat.le_of_not_lt
        intro hlt
        apply not_viable_of_refused (Nat.lt_trans hlt hlen) hsame
        rw [htokens, List.take_append_of_le_length hlt]
        exact hbegins.viable.shorten ((List.take_prefix _ _).map _)
      have hle : d.position ≤ before.length := by
        apply Nat.le_of_not_lt
        intro hlt
        have hmem : ⟨.error cause, span⟩ ∈ tokens.take d.position :=
          List.mem_of_getElem? ((List.getElem?_take_of_lt hlt).trans ht)
        exact (begins_of_opens hd hopens heof).viable.not_mem_error
          (List.mem_map_of_mem (f := Token.kind) hmem)
      have hposition : d.position = before.length := Nat.le_antisymm hle hge
      have hcurrent : d.current = ⟨.error cause, span⟩ := by
        have hget := (hd.on heof).getElem?
        rw [hposition, ht] at hget
        exact (Option.some.inj hget).symm
      refine ⟨e, href.lexical.mpr ⟨cause, congrArg Token.kind hcurrent⟩, hsame _ ?_⟩
      rw [hposition]
      apply Cursor.sameTo_of_take _ hlen
      rw [htokens, List.take_append, List.take_append, Nat.add_sub_cancel_left]
      rfl

theorem helped_inj {help help' : List String} (h : e.helped help = e.helped help') :
    help = help' :=
  List.append_cancel_left (congrArg ParseError.help h)

theorem missingSemicolon_ne_unfinished (value : Expr) :
    missingSemicolon value ≠ Prototype.unfinished := by
  rw [missingSemicolon_eq]
  exact semicolonMissingAt_ne (by decide +kernel) _

theorem unfinished_ne (s : Stmt) : s.unfinished ≠ [Prototype.unfinished] := by
  cases s with
  | expr value => simpa [Stmt.unfinished] using missingSemicolon_ne_unfinished value
  | decl | ret => simp [Stmt.unfinished]

theorem exists_helped (p : Parting) (hshared : ∀ cause, .error cause ∉ p.shared.map (·.kind))
    (h : parse p.stopped name = .error (.refused e)) (hphase : e.code.phase = .lexer) :
    ∃ help, e = p.error.helped help ∧
      ((∃ q, parse p.ended "" = .ok q ∧ p.LastOf help q.unit) ∨
        ∃ failure, parse p.ended "" = .error failure ∧ (help = [] ∨ p.Hidden help)) := by
  have hended : ∀ cause, .error cause ∉ p.ended.map (·.kind) := by
    intro cause hmem
    rw [Parting.ended, List.map_append, List.mem_append] at hmem
    rcases hmem with hmem | hmem
    · exact hshared cause hmem
    · rw [Parting.tail] at hmem
      split at hmem <;> simp [Token.endMark] at hmem
  have houtcome : Parting.Outcome p Eq p.LastOf (items [] [] (.ofTokens p.stopped))
      (items [] [] (.ofTokens p.ended)) := Parting.outcome_items p.at_ofTokens
  rw [parse_eq_error_iff.mp h] at houtcome
  cases hitems : items [] [] (.ofTokens p.ended) with
  | ok u =>
    have hparse : parse p.ended "" = .ok ⟨"", u⟩ := parse_eq_ok_iff.mpr ⟨rfl, hitems⟩
    rw [hitems] at houtcome
    cases houtcome with
    | beyond hlast => exact ⟨_, rfl, Or.inl ⟨_, hparse, hlast⟩⟩
  | error failure =>
    have hparse : parse p.ended "" = .error failure := parse_eq_error_iff.mpr hitems
    rw [hitems] at houtcome
    cases houtcome with
    | same =>
      obtain ⟨cause, hmem⟩ := exists_error_of_refused hparse hphase
      exact absurd hmem (hended cause)
    | stop hhelp => exact ⟨_, rfl, Or.inr ⟨failure, hparse, hhelp⟩⟩

theorem refused_eq_helped (hbefore : ∀ cause, .error cause ∉ before.map (·.kind))
    (h : parse (before ++ ⟨.error cause, span⟩ :: rest) name = .error (.refused e))
    (hphase : e.code.phase = .lexer) :
    e = (ParseError.ofLexError cause span).helped (semicolonHelp before) := by
  obtain ⟨help, rfl, hclosed⟩ :=
    exists_helped ⟨before, cause, span, rest, true⟩ hbefore h hphase
  obtain ⟨help', hhelp, hopen⟩ :=
    exists_helped ⟨before, cause, span, rest, false⟩ hbefore h hphase
  obtain rfl := helped_inj hhelp
  apply congrArg
  rcases hclosed with ⟨q, hq, d, hd, hlast⟩ | ⟨failure, hfailure, hhidden⟩
  · have hparse : parse (before ++ [⟨.semicolon, .dummy⟩, ⟨.rbrace, .dummy⟩, .endMark]) ""
      = .ok q := hq
    simp only [semicolonHelp, hparse, hd]
    exact hlast
  · have hparse : parse (before ++ [⟨.semicolon, .dummy⟩, ⟨.rbrace, .dummy⟩, .endMark]) ""
      = .error failure := hfailure
    rcases hopen with ⟨q, hq, hlast⟩ | ⟨failure', hfailure', hhidden'⟩
    · have hparse' : parse (before ++ [⟨.semicolon, .dummy⟩, .endMark]) "" = .ok q := hq
      simp only [semicolonHelp, hparse, hparse']
      exact hlast
    · have hparse' : parse (before ++ [⟨.semicolon, .dummy⟩, .endMark]) "" = .error failure' :=
        hfailure'
      simp only [semicolonHelp, hparse, hparse']
      -- The two lists leave different helps open, so there is none.
      rcases hhidden with hnone | hproto
      · exact hnone
      · rcases hhidden' with hnone | ⟨s, hs⟩
        · exact hnone
        · exact absurd (hs.symm.trans hproto) (unfinished_ne s)

/-- A list of tokens is refused for a token that the lexer could not form just if such a token
stands behind what begins a sentence. The error is that of the lexer for this token, with the help
for a semicolon that is missing there. -/
theorem refused_lexical_iff (tokens : List Token) (name : String) (e : ParseError) :
    (parse tokens name = .error (.refused e) ∧ e.code.phase = .lexer) ↔
      ∃ (before : List Token) (cause : LexError) (span : Span) (rest : List Token),
        tokens = before ++ ⟨.error cause, span⟩ :: rest ∧ Begins (before.map (·.kind)) ∧
        e = (ParseError.ofLexError cause span).helped (semicolonHelp before) := by
  constructor
  · rintro ⟨h, hphase⟩
    obtain ⟨before, cause, span, rest, rfl, hbegins⟩ := exists_split_of_refused h hphase
    exact ⟨before, cause, span, rest, rfl, hbegins,
      refused_eq_helped (fun _ => hbegins.viable.not_mem_error) h hphase⟩
  · rintro ⟨before, cause, span, rest, rfl, hbegins, rfl⟩
    obtain ⟨e, hphase, h⟩ : ∃ e, e.code.phase = .lexer ∧
        parse (before ++ ⟨.error cause, span⟩ :: rest) name = .error (.refused e) :=
      exists_refused_of_begins hbegins
    have he := refused_eq_helped (fun _ => hbegins.viable.not_mem_error) h hphase
    exact ⟨he ▸ h, he ▸ hphase⟩

def straySource : String := "int f() \x7b a $ \x7d"

/-- The error for the stray character also says that the statement before it needs a semicolon. -/
theorem stray_refused_with_help : ∃ e, ofSource straySource "m" = .error (.refused e) ∧
    e.code.phase = .lexer ∧ ∀ cause span, e ≠ .ofLexError cause span := by
  have h : (match ofSource straySource "m" with
      | .error (.refused e) => decide (e.code = .invalidCharacter ∧ e.help.length = 1)
      | _ => false) = true := by
    decide +kernel
  split at h
  next e hparse =>
    obtain ⟨hcode, hhelp⟩ := of_decide_eq_true h
    refine ⟨e, hparse, by rw [hcode]; rfl, ?_⟩
    rintro cause span rfl
    cases cause with
    | invalidCharacter => cases hhelp
    | invalidInteger | unterminatedComment => cases hcode
  · cases h

end Program

end MiniC
