import MiniC.Proofs.Grammar.Extents
import MiniC.Proofs.Span.Merging

/-! # Where an expression starts

The span of an expression is merged from the spans of its parts, and brackets around an expression
leave no trace in it. So it starts with its first token that opens no bracket, as long as none of
the tokens behind this one, up to the end of the expression, starts before it. What is held while
operands are read stands in a row, and the first part of that row always starts there.
-/

namespace MiniC

namespace Span

/-- The second span starts no earlier than the first one; a dummy span does not start at all. -/
def Leads (s u : Span) : Prop := u = dummy ∨ s ≠ dummy ∧ s.start ≤ u.start

/-- The second span starts where the first one does, and does not vanish in a merge. -/
def Heads (s a : Span) : Prop := a.start = s.start ∧ (a = dummy → s = dummy)

variable {s a u v : Span}

theorem Heads.refl (s : Span) : s.Heads s := ⟨rfl, id⟩

theorem Leads.of_le (hs : s ≠ dummy) (h : s.start ≤ u.start) : s.Leads u := Or.inr ⟨hs, h⟩

theorem Leads.merge (hu : s.Leads u) (hv : s.Leads v) : s.Leads (u.merge v) := by
  rcases hu with rfl | ⟨hs, hu⟩
  · rwa [merge_dummy_left]
  rcases hv with rfl | ⟨-, hv⟩
  · rw [merge_dummy_right]
    exact .of_le hs hu
  by_cases hdummy : u = dummy
  · rw [hdummy, merge_dummy_left]
    exact .of_le hs hv
  by_cases hdummy' : v = dummy
  · rw [hdummy', merge_dummy_right]
    exact .of_le hs hu
  rw [merge_of_ne hdummy hdummy']
  exact .of_le hs (le_min hu hv)

theorem Heads.merge (h : s.Heads a) (hu : s.Leads u) : s.Heads (a.merge u) := by
  obtain ⟨hstart, hne⟩ := h
  rcases hu with rfl | ⟨hs, hle⟩
  · rw [merge_dummy_right]
    exact ⟨hstart, hne⟩
  have ha : a ≠ dummy := fun ha => hs (hne ha)
  by_cases hdummy : u = dummy
  · rw [hdummy, merge_dummy_right]
    exact ⟨hstart, hne⟩
  refine ⟨?_, fun hmerge => absurd hmerge (merge_ne_dummy ha hdummy)⟩
  rw [merge_of_ne ha hdummy, min_eq_left (hstart ▸ hle)]
  exact hstart

end Span

/-- No token of the list starts before this one. -/
def Token.Leads (t : Token) (ts : List Token) : Prop := ∀ u ∈ ts, t.span.Leads u.span

namespace Cursor

/-- The tokens that a reader reads on its way from one cursor to another. -/
inductive Passes (c : Cursor) : List Token → Cursor → Prop
  | refl : c.Passes [] c
  | step {ts : List Token} {d : Cursor} (h : c.Passes ts d) (hk : d.kind ≠ .eof) :
      c.Passes (ts ++ [d.current]) d.advance

variable {c d : Cursor} {ts tokens : List Token} {t : Token}

theorem Passes.kind_ne_eof (h : c.Passes ts d) : ∀ t ∈ ts, t.kind ≠ .eof := by
  induction h with
  | refl => simp
  | step _ hk ih => exact List.forall_mem_append.mpr ⟨ih, List.forall_mem_singleton.mpr hk⟩

theorem Passes.drop (hc : c.On tokens) (h : c.Passes ts d) :
    tokens.drop c.position = ts ++ tokens.drop d.position ∧ d.On tokens := by
  induction h with
  | refl => exact ⟨rfl, hc⟩
  | step _ hk ih =>
    obtain ⟨hdrop, hd⟩ := ih
    obtain ⟨hlt, hget⟩ := List.getElem?_eq_some_iff.mp hd.getElem?
    refine ⟨?_, hd.advance hk⟩
    rw [hdrop, position_advance hk, List.drop_eq_getElem_cons hlt, hget, List.append_assoc]
    rfl

end Cursor

namespace Token

variable {t : Token} {ts us tokens : List Token}

theorem Leads.left (h : t.Leads (ts ++ us)) : t.Leads ts :=
  fun u hu => h u (List.mem_append_left us hu)

theorem Leads.last {u : Token} (h : t.Leads (ts ++ [u])) : t.span.Leads u.span :=
  h u (List.mem_append_right ts (List.mem_singleton_self u))

/-- Of tokens that stand in order, the first one is the earliest. -/
theorem leads_of_inOrder (ho : InOrder tokens) (h : (t :: ts).Sublist tokens)
    (hk : t.kind ≠ .eof) : t.Leads ts := by
  have hproper := ho.proper t (h.subset List.mem_cons_self) hk
  intro u hu
  have hprecedes := List.rel_of_pairwise_cons (ho.precedes.sublist h) hu
  exact .of_le hproper.ne_dummy (le_trans (le_of_lt hproper) hprecedes)

end Token

namespace Grammar

variable {c d start : Cursor} {e : Expr} {row row' before mid : List Extent} {a b w : Extent}
  {s u : Span}

/-- The row starts where the span does. -/
def Led (s : Span) : List Extent → Prop
  | [] => False
  | a :: row => s.Heads a.span ∧ ∀ b ∈ row, s.Leads b.span

theorem Led.append (h : Led s row) (ha : s.Leads a.span) : Led s (row ++ [a]) := by
  cases row with
  | nil => exact h.elim
  | cons b row =>
    obtain ⟨hhead, hrow⟩ := h
    exact ⟨hhead, List.forall_mem_append.mpr ⟨hrow, List.forall_mem_singleton.mpr ha⟩⟩

/-- Only the first part of the row starts where the span does; the others follow. -/
theorem Led.leads (h : Led s (before ++ a :: mid)) (hb : b ∈ mid) : s.Leads b.span := by
  cases before with
  | nil => exact h.2 b hb
  | cons c before => exact h.2 b (List.mem_append_right _ (List.mem_cons_of_mem _ hb))

theorem Led.wrap (h : Led s (before ++ a :: mid)) (hu : s.Leads u)
    (hmerge : w.span = a.span.merge u) : Led s (before ++ [w]) := by
  cases before with
  | nil => exact ⟨hmerge ▸ h.1.merge hu, by simp⟩
  | cons c before =>
    obtain ⟨hhead, hrow⟩ := h
    obtain ⟨hbefore, hmid⟩ := List.forall_mem_append.mp hrow
    refine ⟨hhead, List.forall_mem_append.mpr ⟨hbefore, List.forall_mem_singleton.mpr ?_⟩⟩
    rw [hmerge]
    exact (hmid a List.mem_cons_self).merge hu

/-- All that was read since the start: opening brackets, and then tokens of which the first one
leads the row. -/
inductive Begun (start : Cursor) : List Extent → Cursor → Prop
  | brackets {opened : List Token} {c : Cursor} (h : start.Passes opened c)
      (hopened : ∀ t ∈ opened, t.kind = .lparen) : Begun start [] c
  | operand {opened more : List Token} {first : Token} {row : List Extent} {c : Cursor}
      (h : start.Passes (opened ++ first :: more) c) (hopened : ∀ t ∈ opened, t.kind = .lparen)
      (hfirst : first.kind ≠ .lparen) (hrow : first.Leads more → Led first.span row) :
      Begun start row c

namespace Begun

/-- A token is read: what happens to a row does not depend on what leads it. -/
theorem advance (h : Begun start row c) (hk : c.kind ≠ .eof)
    (hopen : ∀ opened : List Token, start.Passes opened c → (∀ t ∈ opened, t.kind = .lparen) →
      row = [] → Begun start row' c.advance)
    (hrow : ∀ s : Span, Led s row → s.Leads c.span → Led s row') :
    Begun start row' c.advance := by
  cases h with
  | brackets h hopened => exact hopen _ h hopened rfl
  | @operand opened more first _ _ h hopened hfirst hled =>
    have hpasses : start.Passes (opened ++ first :: (more ++ [c.current])) c.advance := by
      simpa using h.step hk
    exact .operand hpasses hopened hfirst fun hmore => hrow _ (hled hmore.left) hmore.last

theorem leaf (h : Begun start row c) (hk : c.kind ≠ .eof) (hparen : c.kind ≠ .lparen)
    (ha : a.span = c.span) : Begun start (row ++ [a]) c.advance := by
  refine h.advance hk (fun opened hpasses hopened hnil => ?_) fun s hs hc => hs.append (ha ▸ hc)
  subst hnil
  exact .operand (hpasses.step hk) hopened hparen fun _ => ⟨ha ▸ .refl c.span, by simp⟩

theorem close (h : Begun start row c) (hk : c.kind = .rparen) (hne : row ≠ [])
    (hrow : ∀ s : Span, Led s row → s.Leads c.span → Led s row') : Begun start row' c.advance :=
  h.advance (by simp [hk]) (fun _ _ _ hnil => absurd hnil hne) hrow

theorem join {lhs : Expr} {op : BinaryOp} (h : Begun start (row ++ [lhs.extent, e.extent]) c) :
    Begun start (row ++ [(Expr.ofOperands op lhs e).extent]) c := by
  generalize hrow : row ++ [lhs.extent, e.extent] = row' at h
  cases h with
  | brackets => exact absurd hrow (by simp)
  | operand h hopened hfirst hled =>
    subst hrow
    refine .operand h hopened hfirst fun hmore => ?_
    exact (hled hmore).wrap ((hled hmore).leads List.mem_cons_self) rfl

end Begun

theorem rowInvariant_begun (start : Cursor) : RowInvariant (Begun start) where
  skip := by
    intro row c h hk hrow
    refine h.advance hk (fun opened hpasses hopened hnil => ?_) fun _ hs _ => hs
    subst hnil
    have hparen : c.kind = .lparen := hrow.resolve_left fun hne => hne rfl
    exact .brackets (hpasses.step hk)
      (List.forall_mem_append.mpr ⟨hopened, List.forall_mem_singleton.mpr hparen⟩)
  identifier h hk := h.leaf (by simp [hk]) (by simp [hk]) rfl
  number h hk := h.leaf (by simp [hk]) (by simp [hk]) rfl
  join h := h.join
  close := by
    intro row c bracket e h hk
    refine h.close hk (by simp) fun s hs hclose => ?_
    cases bracket with
    | group => exact hs
    | call callee calleeSpan args => exact hs.wrap hclose rfl
  callNil h hk := h.close hk (by simp) fun _ hs hclose => hs.wrap hclose rfl

/-- The tokens of an expression are some opening brackets and then those from which on it has its
span: it starts with the first one of these, unless another one starts before it. -/
theorem expression_begins (h : expression c = .ok (e, d)) :
    ∃ (opened : List Token) (first : Token) (more : List Token),
      c.Passes (opened ++ first :: more) d ∧ (∀ t ∈ opened, t.kind = .lparen) ∧
      first.kind ≠ .lparen ∧ (first.Leads more → e.span.start = first.span.start) := by
  have hbegun := (rowInvariant_begun c).expression_holding (.brackets .refl (by simp)) h
  cases hbegun with
  | operand h hopened hfirst hled =>
    exact ⟨_, _, _, h, hopened, hfirst, fun hmore => (hled hmore).1.1⟩

end Grammar

end MiniC
