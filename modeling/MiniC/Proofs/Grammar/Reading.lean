import MiniC.Grammar.Program
import MiniC.Proofs.Grammar.Movement

/-! # What a reader looks at

Three things are said of a reader at a cursor. It gives its result for every cursor that sees the
same up to where the result leaves off. It gives its error for every cursor that sees the same up
to the token that the error tells of; that place has a property of its own, which says what was
read before. And it reads on for ever only in a list without an end mark that closes with an
opening bracket. The lemmas here derive this for a reader from its parts.
-/

namespace MiniC

namespace Grammar

/-- The error tells of the token that the cursor stands at. -/
structure Refusal (e : ParseError) (c : Cursor) : Prop where
  span : e.span = c.span
  lexical : e.code.phase = .lexer ↔ ∃ cause, c.kind = .error cause
  phase : e.code.phase = .lexer ∨ e.code.phase = .parser

/-- How a reader fails at a cursor. -/
structure Failing {α : Type} (Q : Cursor → Prop) (read : Cursor → Except Failure α) (c : Cursor) :
    Prop where
  refused : ∀ e, read c = .error (.refused e) →
    ∃ d, c.Reaches d ∧ Refusal e d ∧ Q d ∧
      ∀ c', Cursor.SameTo d.position c c' → read c' = .error (.refused e)
  endless : read c = .error .endless → ¬ c.Ended ∧ c.OpenEnded

/-- How a reader fails at a cursor, and how it succeeds. -/
structure Reading {α : Type} (Q : Cursor → Prop) (read : Cursor → Except Failure (α × Cursor))
    (c : Cursor) : Prop extends Failing Q read c where
  accepted : ∀ a d, read c = .ok (a, d) →
    c.Reaches d ∧ ∀ c', Cursor.SameTo d.position c c' → read c' = .ok (a, c'.moveTo d.position)

section Refusals

variable {c : Cursor} {e : ParseError}

theorem refusal_unexpected (c : Cursor) (code : Code) (expected : String)
    (h : code.phase = .parser) : Refusal (c.unexpected code expected) c := by
  rw [Cursor.unexpected, ParseError.unexpected]
  cases hk : c.kind with
  | error cause =>
    refine ⟨rfl, ?_, Or.inl ?_⟩ <;>
      cases cause <;> simp [TokenKind.lexError?, ParseError.ofLexError, Code.phase, hk]
  | _ =>
    refine ⟨rfl, ?_, Or.inr h⟩
    simp [TokenKind.lexError?, h, hk]

theorem Refusal.addHelp (h : Refusal e c) (help : String) : Refusal (e.addHelp help) c :=
  ⟨h.span, h.lexical, h.phase⟩

theorem refusal_unexpectedName : Refusal c.unexpectedName c := by
  have h : Refusal (c.unexpected .expectedIdentifier "identifier") c :=
    refusal_unexpected c _ _ rfl
  unfold Cursor.unexpectedName
  dsimp only
  split
  · exact h.addHelp _
  · exact h.addHelp _
  · exact h

end Refusals

theorem kind_congr {c c' : Cursor} (h : c'.current = c.current) : c'.kind = c.kind :=
  congrArg Token.kind h

theorem span_congr {c c' : Cursor} (h : c'.current = c.current) : c'.span = c.span :=
  congrArg Token.span h

variable {α β : Type} {Q Q' : Cursor → Prop} {c : Cursor}

namespace Failing

variable {read read' : Cursor → Except Failure α}

theorem congr (h : Failing Q read' c) (he : ∀ c', c'.current = c.current → read c' = read' c') :
    Failing Q read c where
  refused := by
    intro e hr
    obtain ⟨d, hd, href, hq, hs⟩ := h.refused e (he c rfl ▸ hr)
    exact ⟨d, hd, href, hq, fun c' hc' => (he c' (hc'.current_eq hd.le)).trans (hs c' hc')⟩
  endless := fun hr => h.endless (he c rfl ▸ hr)

theorem ofOk {a : α} (h : read c = .ok a) : Failing Q read c where
  refused := fun e hr => by
    rw [h] at hr
    cases hr
  endless := fun hr => by
    rw [h] at hr
    cases hr

theorem mono (h : Failing Q read c) (hq : ∀ d, Q d → Q' d) : Failing Q' read c where
  refused := by
    intro e hr
    obtain ⟨d, hd, href, hqd, hs⟩ := h.refused e hr
    exact ⟨d, hd, href, hq d hqd, hs⟩
  endless := h.endless

end Failing

theorem Failing.bind {f : Cursor → Except Failure (α × Cursor)}
    {g : α × Cursor → Except Failure β} (hf : Reading Q f c)
    (hg : ∀ a d, f c = .ok (a, d) → Failing Q (fun d => g (a, d)) d) :
    Failing Q (fun c => f c >>= g) c where
  refused := by
    intro e hr
    cases hfc : f c with
    | error failure =>
      rw [hfc] at hr
      cases hr
      obtain ⟨d, hd, href, hq, hs⟩ := hf.refused e hfc
      exact ⟨d, hd, href, hq, fun c' hc' => by rw [hs c' hc']; rfl⟩
    | ok result =>
      obtain ⟨a, d⟩ := result
      rw [hfc, ok_bind] at hr
      obtain ⟨hd, hs⟩ := hf.accepted a d hfc
      obtain ⟨d', hd', href, hq, hs'⟩ := (hg a d hfc).refused e hr
      refine ⟨d', hd.trans hd', href, hq, fun c' hc' => ?_⟩
      rw [hs c' (hc'.mono hd'.le), ok_bind]
      exact hs' _ (hc'.moveTo hd)
  endless := by
    intro hr
    cases hfc : f c with
    | error failure =>
      rw [hfc] at hr
      cases hr
      exact hf.endless hfc
    | ok result =>
      obtain ⟨a, d⟩ := result
      rw [hfc, ok_bind] at hr
      have hd := (hf.accepted a d hfc).1
      obtain ⟨hc, ho⟩ := (hg a d hfc).endless hr
      exact ⟨fun h => hc (hd.ended h), hd.openEnded ho⟩

namespace Reading

variable {read read' : Cursor → Except Failure (α × Cursor)} {a : α} {e : ParseError}
  {help : String}

theorem congr (h : Reading Q read' c) (he : ∀ c', c'.current = c.current → read c' = read' c') :
    Reading Q read c where
  toFailing := h.toFailing.congr he
  accepted := by
    intro a d hr
    obtain ⟨hd, hs⟩ := h.accepted a d (he c rfl ▸ hr)
    exact ⟨hd, fun c' hc' => (he c' (hc'.current_eq hd.le)).trans (hs c' hc')⟩

theorem mono (h : Reading Q read c) (hq : ∀ d, Q d → Q' d) : Reading Q' read c where
  toFailing := h.toFailing.mono hq
  accepted := h.accepted

theorem bind {f : Cursor → Except Failure (α × Cursor)}
    {g : α × Cursor → Except Failure (β × Cursor)} (hf : Reading Q f c)
    (hg : ∀ a d, f c = .ok (a, d) → Reading Q (fun d => g (a, d)) d) :
    Reading Q (fun c => f c >>= g) c where
  toFailing := .bind hf fun a d h => (hg a d h).toFailing
  accepted := by
    intro b d' hr
    obtain ⟨⟨a, d⟩, hfc, hr⟩ := bind_eq_ok_iff.mp hr
    obtain ⟨hd, hs⟩ := hf.accepted a d hfc
    obtain ⟨hd', hs'⟩ := (hg a d hfc).accepted b d' hr
    refine ⟨hd.trans hd', fun c' hc' => ?_⟩
    rw [hs c' (hc'.mono hd'.le), ok_bind]
    exact hs' _ (hc'.moveTo hd)

theorem pass (h : ∀ c', c'.current = c.current → read c' = .ok (a, c')) : Reading Q read c where
  toFailing := .ofOk (h c rfl)
  accepted := by
    intro a' d hr
    rw [h c rfl] at hr
    cases hr
    refine ⟨Cursor.reaches_refl c, fun c' hc' => ?_⟩
    rw [h c' (hc'.current_eq (Nat.le_refl _)), Cursor.moveTo_position hc'.position.symm]

theorem refuse (hr : Refusal e c) (hq : Q c)
    (h : ∀ c', c'.current = c.current → read c' = .error (.refused e)) : Reading Q read c where
  refused := by
    intro e' he
    rw [h c rfl] at he
    cases he
    exact ⟨c, Cursor.reaches_refl c, hr, hq, fun c' hc' => h c' (hc'.current_eq (Nat.le_refl _))⟩
  endless := fun he => by
    rw [h c rfl] at he
    cases he
  accepted := fun a d he => by
    rw [h c rfl] at he
    cases he

theorem ofEndless (h : read c = .error .endless) (hc : ¬ c.Ended) (ho : c.OpenEnded) :
    Reading Q read c where
  refused := fun e he => by
    rw [h] at he
    cases he
  endless := fun _ => ⟨hc, ho⟩
  accepted := fun a d he => by
    rw [h] at he
    cases he

/-- Behind the token at the cursor, and at a name by the kind behind it. -/
theorem advanceName (hk : c.kind ≠ .eof) (hr : ¬ c.Repeats) (h : Reading Q read' c.advance)
    (he : ∀ c', c'.current = c.current → (c.kind.isIdent = true → c'.nextKind = c.nextKind) →
      read c' = read' c'.advance) : Reading Q read c where
  refused := by
    intro e hc
    rw [he c rfl fun _ => rfl] at hc
    obtain ⟨d, hd, href, hq, hs⟩ := h.refused e hc
    have hlt : c.position < d.position := hd.lt_of_advance hk
    refine ⟨d, (Cursor.Reaches.advance hk hr).trans hd, href, hq, fun c' hc' => ?_⟩
    rw [he c' (hc'.current_eq (Nat.le_of_lt hlt)) (hc'.nextKind_eq hlt)]
    exact hs _ (hc'.advance (Nat.le_of_lt hlt) hk hr)
  endless := by
    intro hc
    rw [he c rfl fun _ => rfl] at hc
    obtain ⟨hn, ho⟩ := h.endless hc
    have hd := Cursor.Reaches.advance hk hr
    exact ⟨fun hended => hn (hd.ended hended), hd.openEnded ho⟩
  accepted := by
    intro a d hc
    rw [he c rfl fun _ => rfl] at hc
    obtain ⟨hd, hs⟩ := h.accepted a d hc
    have hlt : c.position < d.position := hd.lt_of_advance hk
    refine ⟨(Cursor.Reaches.advance hk hr).trans hd, fun c' hc' => ?_⟩
    have hcur := hc'.current_eq (Nat.le_of_lt hlt)
    have hk' : c'.kind ≠ .eof := by rwa [Cursor.kind, hcur]
    rw [he c' hcur (hc'.nextKind_eq hlt), hs _ (hc'.advance (Nat.le_of_lt hlt) hk hr),
      Cursor.advance_eq_moveTo hk', Cursor.moveTo_moveTo]

theorem advance (hk : c.kind ≠ .eof) (hr : ¬ c.Repeats) (h : Reading Q read' c.advance)
    (he : ∀ c', c'.current = c.current → read c' = read' c'.advance) : Reading Q read c :=
  h.advanceName hk hr fun c' hc' _ => he c' hc'

theorem take (hk : c.kind ≠ .eof) (hr : ¬ c.Repeats)
    (h : ∀ c', c'.current = c.current → read c' = .ok (a, c'.advance)) : Reading Q read c := by
  have hpass : Reading Q (fun d => .ok (a, d)) c.advance := .pass fun _ _ => rfl
  exact .advance hk hr hpass h

theorem mapError (h : Reading Q read c) :
    Reading Q (fun c => (read c).mapError (·.addHelp help)) c where
  refused := by
    intro e hr
    obtain ⟨failure, hc, hf⟩ := mapError_eq_error_iff.mp hr
    cases failure with
    | refused e' =>
      cases hf
      obtain ⟨d, hd, href, hq, hs⟩ := h.refused e' hc
      refine ⟨d, hd, href.addHelp help, hq, fun c' hc' => ?_⟩
      exact mapError_eq_error_iff.mpr ⟨_, hs c' hc', rfl⟩
    | endless => cases hf
  endless := by
    intro hr
    obtain ⟨failure, hc, hf⟩ := mapError_eq_error_iff.mp hr
    cases failure with
    | refused e' => cases hf
    | endless => exact h.endless hc
  accepted := by
    intro a d hr
    obtain ⟨hd, hs⟩ := h.accepted a d (mapError_eq_ok_iff.mp hr)
    exact ⟨hd, fun c' hc' => mapError_eq_ok_iff.mpr (hs c' hc')⟩

end Reading

variable {k : TokenKind}

theorem reading_typeName (hq : Q c) : Reading Q typeName c := by
  by_cases hk : c.kind = .intWord
  · refine .take (by simp [hk]) (Cursor.not_repeats_of_kind (by simp [hk])) (a := ⟨"int", c.span⟩)
      fun c' hc' => ?_
    rw [typeName, if_pos (Cursor.check_of_kind ((kind_congr hc').trans hk)), span_congr hc']
    rfl
  · refine .refuse (refusal_unexpected c .expectedType "type `int`" rfl) hq fun c' hc' => ?_
    rw [typeName, if_neg (Cursor.not_check_of_kind (kind_congr hc' ▸ hk)), Cursor.unexpected,
      Cursor.unexpected, kind_congr hc', span_congr hc']

theorem reading_expect (hk : k ≠ .eof) (hr : k = .lparen → ¬ c.Repeats) (hq : Q c) :
    Reading Q (·.expect k) c := by
  by_cases hc : c.kind = k
  · have hrep : ¬ c.Repeats := by
      by_cases hl : k = .lparen
      · exact hr hl
      · exact Cursor.not_repeats_of_kind (hc ▸ hl)
    refine .take (hc ▸ hk) hrep (a := c.current) fun c' hc' => ?_
    rw [Cursor.expect_eq, if_pos (Cursor.check_of_kind ((kind_congr hc').trans hc)), hc']
  · refine .refuse (refusal_unexpected c .unexpectedToken k.displayName rfl) hq fun c' hc' => ?_
    rw [Cursor.expect_eq, if_neg (Cursor.not_check_of_kind (kind_congr hc' ▸ hc)),
      Cursor.unexpected, Cursor.unexpected, kind_congr hc', span_congr hc']

theorem reading_expectIdent (hq : Q c) : Reading Q (·.expectIdent) c := by
  by_cases hk : ∃ name, c.kind = .ident name
  · obtain ⟨name, hk⟩ := hk
    refine .take (by simp [hk]) (Cursor.not_repeats_of_kind (by simp [hk])) (a := (name, c.span))
      fun c' hc' => ?_
    rw [Cursor.expectIdent_eq, (kind_congr hc').trans hk, span_congr hc']
  · refine .refuse refusal_unexpectedName hq fun c' hc' => ?_
    have hk' : c'.kind = c.kind := kind_congr hc'
    have hname : c'.unexpectedName = c.unexpectedName := by
      unfold Cursor.unexpectedName Cursor.unexpected
      rw [span_congr hc', hk']
    rw [Cursor.expectIdent_eq]
    split
    next name hname => exact absurd ⟨name, hk'.symm.trans hname⟩ hk
    · rw [hname]

end Grammar

end MiniC
