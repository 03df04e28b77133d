import MiniC.Proofs.Grammar.Reading
import MiniC.Proofs.Grammar.Soundness
import MiniC.Proofs.Grammar.Turns

/-! # Expressions can be completed

While an expression is read, what was read of it can always be completed to one: a number stands
for the operand that is due, and the brackets that are open can be closed. So where the reader of
expressions refuses a token, the tokens before it begin an expression.
-/

namespace MiniC

open Grammar

variable {all ke kl ko ka kb ks : List TokenKind} {e : Expr} {l : Level} {bracket : Bracket}
  {outer : Level} {enclosing : Enclosing} {c d start : Cursor}

/-- Open brackets can be closed behind an assignment. -/
theorem Enclosing.Read.completes (hE : Enclosing.Read enclosing ke)
    (h : Derives .assignment ka e) : ∃ more e', Derives .assignment (ke ++ ka ++ more) e' := by
  induction enclosing generalizing ke ka e with
  | nil =>
    rw [show ke = [] from hE]
    exact ⟨[], e, by simpa using h⟩
  | cons frame enclosing ih =>
    obtain ⟨bracket, outer⟩ := frame
    obtain ⟨ke', kl', kb, hE', hl', hb, rfl⟩ := hE
    obtain ⟨more, e', hd⟩ := ih hE' (hl'.assignment (hb.closed h .dummy))
    exact ⟨.rparen :: more, e', by simpa using hd⟩

namespace Grammar

/-- The kinds between the two cursors begin what the relation derives, as far as the list closes. -/
def Opens {α : Type} (R : List TokenKind → α → Prop) (c d : Cursor) : Prop :=
  c.Ended → ∃ ks more a, c.kinds = ks ++ d.kinds ∧ R (ks ++ more) a

/-- Of the kinds `all`, those before the cursor have been read into the state and the operand. -/
def Behind (all : List TokenKind) (e : Expr) (l : Level) (enclosing : Enclosing) (c : Cursor) :
    Prop :=
  ∃ ke kl ko, Enclosing.Read enclosing ke ∧ l.Read kl ∧ Derives .call ko e ∧
    all = ke ++ kl ++ ko ++ c.kinds ∧ c.Ended

theorem Behind.opens (h : Behind all e l enclosing c) :
    ∃ ks more a, all = ks ++ c.kinds ∧ Derives .assignment (ks ++ more) a := by
  obtain ⟨ke, kl, ko, hE, hl, he, hall, -⟩ := h
  obtain ⟨more, a, hd⟩ := hE.completes (hl.assignment he)
  exact ⟨ke ++ kl ++ ko, more, a, hall, by simpa using hd⟩

theorem Behind.close (h : Behind all e l ((bracket, outer) :: enclosing) c)
    (hc : c.kind = .rparen) (close : Span) :
    Behind all (bracket.closed (l.assignment e) close) outer enclosing c.advance := by
  obtain ⟨ke, kl, ko, hE, hl, he, rfl, hc'⟩ := h
  obtain ⟨ke', kl', kb, hE', hl', hb, rfl⟩ := hE
  obtain ⟨ha, hd⟩ := hc'.advance (by simp [hc])
  refine ⟨ke', kl', _, hE', hl', hb.closed (hl.assignment he) close, ?_, hd⟩
  rw [ha, hc]
  simp

theorem opens_of_read (h : Progress.Read all (.operand l enclosing c)) :
    ∃ ks more a, all = ks ++ c.kinds ∧ Derives .assignment (ks ++ more) a := by
  obtain ⟨ke, kl, hE, hl, hall, -⟩ := h
  obtain ⟨more, a, hd⟩ := hE.completes (hl.assignment (.ofPrimary (.number 0 .dummy)))
  exact ⟨ke ++ kl, .number 0 :: more, a, hall, by simpa using hd⟩

theorem behind_of_read (h : Progress.Read all (.operand l enclosing c)) (he : Derives .call ks e)
    (hk : c.kinds = ks ++ d.kinds) (hd : d.Ended) : Behind all e l enclosing d := by
  obtain ⟨ke, kl, hE, hl, rfl, -⟩ := h
  exact ⟨ke, kl, ks, hE, hl, he, by rw [hk, List.append_assoc _ ks], hd⟩

end Grammar

end MiniC
