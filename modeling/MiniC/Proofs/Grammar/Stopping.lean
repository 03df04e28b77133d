import MiniC.Proofs.Grammar.Earliest

/-! # Nothing is read behind the end mark

Whatever is asked of a cursor, one call moves it to the next token at most, and no run of calls
takes it past the first end mark of its list. A reader looks ahead at names only, so it does not see
behind the end mark either: two lists that agree up to there are read alike.
-/

namespace MiniC

inductive Call
  | advance
  | expect (kind : TokenKind)
  | expectIdent
  | check (kind : TokenKind)
  | checkIdent
  | atEnd
  | current
  | kind
  | span
  | nextKind
  | previousSpan

inductive Reply
  | token (t : Token)
  | name (name : String) (span : Span)
  | truth (b : Bool)
  | kind (k : TokenKind)
  | span (s : Span)
  | failure (f : Failure)

def Reply.ofRead {α : Type} (reply : α → Reply) : Except Failure α → Reply
  | .ok a => reply a
  | .error f => .failure f

namespace Cursor

variable {c : Cursor} {tokens : List Token}

def call (c : Cursor) : Call → Reply × Cursor
  | .advance => (.token c.current, c.advance)
  | .expect kind => let r := c.accept kind; (.ofRead .token r.1, r.2)
  | .expectIdent => let r := c.acceptIdent; (.ofRead (fun x => .name x.1 x.2) r.1, r.2)
  | .check kind => (.truth (c.check kind), c)
  | .checkIdent => (.truth c.checkIdent, c)
  | .atEnd => (.truth c.atEnd, c)
  | .current => (.token c.current, c)
  | .kind => (.kind c.kind, c)
  | .span => (.span c.span, c)
  | .nextKind => (.kind c.nextKind, c)
  | .previousSpan => (.span c.previousSpan, c)

def after (c : Cursor) (calls : List Call) : Cursor := calls.foldl (fun c x => (c.call x).2) c

/-- A call leaves the cursor where it is or reads a token, and one that fails reads none. -/
theorem call_cases (c : Cursor) (x : Call) :
    (c.call x).2 = c ∨ (c.call x).2 = c.advance ∧ ∀ f, (c.call x).1 ≠ .failure f := by
  cases x with
  | advance => exact Or.inr ⟨rfl, nofun⟩
  | expect kind =>
    rw [call, accept]
    split
    · exact Or.inr ⟨rfl, nofun⟩
    · exact Or.inl rfl
  | expectIdent =>
    rw [call, acceptIdent]
    split
    · exact Or.inr ⟨rfl, nofun⟩
    · exact Or.inl rfl
  | check | checkIdent | atEnd | current | kind | span | nextKind | previousSpan => exact Or.inl rfl

theorem position_advance_bounds (c : Cursor) :
    c.position ≤ c.advance.position ∧ c.advance.position ≤ c.position + 1 := by
  unfold advance
  split
  · exact ⟨Nat.le_refl _, Nat.le_succ _⟩
  · exact ⟨Nat.le_succ _, Nat.le_refl _⟩

def endIndex (tokens : List Token) : Nat := tokens.findIdx (·.kind = .eof)

theorem kind_endIndex {t : Token} (h : tokens[endIndex tokens]? = some t) : t.kind = .eof := by
  obtain ⟨hlt, rfl⟩ := List.getElem?_eq_some_iff.mp h
  exact of_decide_eq_true (List.findIdx_getElem (w := hlt))

theorem exists_endIndex (heof : .eof ∈ tokens.map (·.kind)) :
    ∃ t, tokens[endIndex tokens]? = some t := by
  obtain ⟨t, ht, hk⟩ := List.mem_map.mp heof
  exact ⟨_, List.getElem?_eq_getElem
    (List.findIdx_lt_length_of_exists ⟨t, ht, decide_eq_true hk⟩)⟩

/-- The cursor stands in the list, and not behind the first end mark. -/
structure UpToEnd (ts : List Token) (c : Cursor) : Prop extends On ts c where
  position_le : c.position ≤ endIndex ts

theorem upToEnd_ofTokens (heof : .eof ∈ tokens.map (·.kind)) :
    (ofTokens tokens).UpToEnd tokens :=
  ⟨(reaches_refl _).on heof, Nat.zero_le _⟩

namespace UpToEnd

theorem advance (h : c.UpToEnd tokens) : c.advance.UpToEnd tokens := by
  by_cases hk : c.kind = .eof
  · rwa [Cursor.advance, atEnd, decide_eq_true hk, if_pos rfl]
  refine ⟨h.toOn.advance hk, ?_⟩
  rw [position_advance hk]
  refine Nat.lt_of_le_of_ne h.position_le fun hend => hk ?_
  exact kind_endIndex (hend ▸ h.toOn.getElem?)

theorem call (h : c.UpToEnd tokens) (x : Call) : (c.call x).2.UpToEnd tokens := by
  rcases c.call_cases x with hcall | ⟨hcall, -⟩
  · rwa [hcall]
  · rw [hcall]
    exact h.advance

theorem after (h : c.UpToEnd tokens) (calls : List Call) : (c.after calls).UpToEnd tokens := by
  induction calls generalizing c with
  | nil => exact h
  | cons x calls ih => exact ih (h.call x)

end UpToEnd

/-- A cursor in a list, and what one more call does to it. -/
structure Steady (tokens : List Token) (c : Cursor) : Prop where
  position_le : c.position ≤ endIndex tokens
  current : tokens[c.position]? = some c.current
  step : ∀ x, c.position ≤ (c.call x).2.position ∧ (c.call x).2.position ≤ c.position + 1
  failed : ∀ x f, (c.call x).1 = .failure f → (c.call x).2 = c

theorem UpToEnd.steady (h : c.UpToEnd tokens) : c.Steady tokens where
  position_le := h.position_le
  current := h.toOn.getElem?
  step := by
    intro x
    rcases c.call_cases x with hcall | ⟨hcall, -⟩
    · rw [hcall]
      exact ⟨Nat.le_refl _, Nat.le_succ _⟩
    · rw [hcall]
      exact c.position_advance_bounds
  failed := by
    intro x f hf
    rcases c.call_cases x with hcall | ⟨-, hne⟩
    · exact hcall
    · exact absurd hf (hne f)

end Cursor

namespace Grammar

variable {c : Cursor} {declarations : List FunctionDeclaration}
  {definitions : List FunctionDefinition} {u : SourceUnit}

theorem items_accepted (h : items declarations definitions c = .ok u) :
    ∃ d, c.Reaches d ∧ ∀ c', Cursor.SameTo d.position c c' →
      items declarations definitions c' = .ok u := by
  induction c using Cursor.before_induction generalizing declarations definitions with
  | step c ih =>
    have hatEnd : ∀ c' : Cursor, c'.current = c.current → c'.atEnd = c.atEnd := by
      intro c' hc'
      rw [Cursor.atEnd, kind_congr hc']
      rfl
    by_cases hend : c.atEnd = true
    · refine ⟨c, Cursor.reaches_refl c, fun c' hc' => ?_⟩
      rw [items_turn, if_pos hend] at h
      rw [items_turn, hatEnd c' (hc'.current_eq (Nat.le_refl _)), if_pos hend, h]
    · rw [items_turn, if_neg hend] at h
      obtain ⟨⟨i, d⟩, hitem, hrest⟩ := bind_eq_ok_iff.mp h
      obtain ⟨hd, hsame⟩ := (reading_item c).accepted i d hitem
      -- Behind the item, the rest is read on with the item put to the others of its kind.
      obtain ⟨f, hf, hsame'⟩ : ∃ f, d.Reaches f ∧ ∀ d', Cursor.SameTo f.position d d' →
          afterItem declarations definitions i d' = .ok u := by
        cases i with
        | declaration => exact ih d (item_before hitem) hrest
        | definition => exact ih d (item_before hitem) hrest
      refine ⟨f, hd.trans hf, fun c' hc' => ?_⟩
      have hcurrent := hc'.current_eq (Nat.le_trans hd.le hf.le)
      rw [items_turn, hatEnd c' hcurrent, if_neg hend, hsame c' (hc'.mono hf.le), ok_bind]
      exact hsame' _ (hc'.moveTo hd)

end Grammar

namespace Program

open Grammar

variable {tokens : List Token} {n : Nat}

/-- A list with an end mark is read up to one of its tokens, whether it is accepted or refused. -/
theorem parse_looks (heof : .eof ∈ tokens.map (·.kind)) (name : String) :
    ∃ d, (Cursor.ofTokens tokens).Reaches d ∧ ∀ tokens',
      Cursor.SameTo d.position (.ofTokens tokens) (.ofTokens tokens') →
        parse tokens' name = parse tokens name := by
  cases h : parse tokens name with
  | ok p =>
    obtain ⟨hname, hitems⟩ := parse_eq_ok_iff.mp h
    obtain ⟨d, hd, hsame⟩ := items_accepted hitems
    exact ⟨d, hd, fun tokens' h' => parse_eq_ok_iff.mpr ⟨hname, hsame _ h'⟩⟩
  | error failure =>
    cases failure with
    | endless => exact absurd h (parse_ne_endless heof)
    | refused e =>
      obtain ⟨d, hd, -, -, hsame⟩ := refused_at h
      exact ⟨d, hd, hsame⟩

/-- What stands behind an end mark is not looked at. -/
theorem parse_take {t : Token} (ht : tokens[n]? = some t) (hk : t.kind = .eof) (name : String) :
    parse (tokens.take (n + 1)) name = parse tokens name := by
  have hn : n < tokens.length := (List.getElem?_eq_some_iff.mp ht).1
  have hlength : (tokens.take (n + 1)).length = n + 1 := List.length_take_of_le hn
  have htake : (tokens.take (n + 1))[n]? = some t := by
    rw [List.getElem?_take_of_lt (Nat.lt_succ_self n), ht]
  have heof : .eof ∈ (tokens.take (n + 1)).map (·.kind) :=
    List.mem_map.mpr ⟨t, List.mem_of_getElem? htake, hk⟩
  obtain ⟨d, hd, hsame⟩ := parse_looks heof name
  have hlt : d.position < n + 1 := by
    have hon := (hd.on heof).ended.lt_size
    rwa [hd.tokens, Cursor.ofTokens, List.size_toArray, hlength] at hon
  refine (hsame tokens ?_).symm
  have hagree : (tokens.take (n + 1)).take (n + 1) = tokens.take (n + 1) := by
    rw [List.take_take, Nat.min_self]
  exact (Cursor.sameTo_of_take hagree (by omega)).mono (Nat.le_of_lt_succ hlt)

/-- A cursor stays between the beginning and the first end mark of its list, whatever it is asked,
and the tokens behind that end mark have no influence on what is parsed. -/
theorem parse_stops (heof : .eof ∈ tokens.map (·.kind)) :
    (∀ calls, ((Cursor.ofTokens tokens).after calls).Steady tokens) ∧
    ∀ tokens' name, tokens'.take (Cursor.endIndex tokens + 1)
        = tokens.take (Cursor.endIndex tokens + 1) →
      parse tokens' name = parse tokens name := by
  refine ⟨fun calls => ((Cursor.upToEnd_ofTokens heof).after calls).steady, ?_⟩
  obtain ⟨t, ht⟩ := Cursor.exists_endIndex heof
  have hk : t.kind = .eof := Cursor.kind_endIndex ht
  intro tokens' name h
  have ht' : tokens'[Cursor.endIndex tokens]? = some t := by
    rw [← List.getElem?_take_of_lt (Nat.lt_succ_self _), h,
      List.getElem?_take_of_lt (Nat.lt_succ_self _), ht]
  calc parse tokens' name
    _ = parse (tokens'.take (Cursor.endIndex tokens + 1)) name := (parse_take ht' hk name).symm
    _ = parse (tokens.take (Cursor.endIndex tokens + 1)) name := by rw [h]
    _ = parse tokens name := parse_take ht hk name

/-- The list of `int f();` and its end mark, with a bracket and one more end mark behind it. -/
def overlong : List Token :=
  [.intWord, .ident "f", .lparen, .rparen, .semicolon, .eof, .lparen, .eof].map
    (Token.mk · .dummy)

/-- Nine tokens are asked for, and five are read. -/
theorem parse_stops_overlong :
    let c := (Cursor.ofTokens overlong).after (List.replicate 9 .advance)
    .eof ∈ overlong.map (·.kind) ∧ c.Steady overlong ∧ c.position = 5 ∧
      (overlong.take 6).take 6 = overlong.take 6 ∧
      parse (overlong.take 6) "m" = parse overlong "m" := by
  intro c
  have heof : .eof ∈ overlong.map (·.kind) := by decide
  obtain ⟨hsteady, hparse⟩ := parse_stops heof
  have hagree : (overlong.take 6).take 6 = overlong.take 6 := rfl
  exact ⟨heof, hsteady _, rfl, hagree, hparse _ "m" hagree⟩

end Program

end MiniC
