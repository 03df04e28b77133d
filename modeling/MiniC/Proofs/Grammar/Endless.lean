import MiniC.Proofs.Grammar.Earliest
import MiniC.Proofs.Grammar.Rendering

/-! # Lists that are read for ever

A list of tokens is read to a program or to an error, unless it has no end mark and closes with an
opening bracket where an operand is due. Behind such a list the bracket is seen again and opens
one more operand, for ever. Whether an operand is due at the end can be told from the grammar: the
list with its last bracket once more behind it still begins a sentence.
-/

namespace MiniC

namespace Cursor

variable {tokens tail : List Token} {t : Token} {c d : Cursor} {n : Nat}

theorem current_mem (h : c.tokens ≠ #[]) : c.current ∈ c.tokens := by
  rw [current]
  split
  next ht => exact Array.mem_of_getElem? ht
  · cases ht : c.tokens.back? with
    | none => exact absurd (Array.back?_eq_none_iff.mp ht) h
    | some t => exact Array.mem_of_back? ht

theorem openEnded_ofTokens_iff :
    (ofTokens tokens).OpenEnded ↔ ∃ t, tokens.getLast? = some t ∧ t.kind = .lparen := by
  rw [OpenEnded, ofTokens, List.back?_toArray]

theorem current_ofTokens_of_length_le {i : Nat} (ht : tokens.getLast? = some t)
    (hi : tokens.length ≤ i) : ((ofTokens tokens).moveTo i).current = t := by
  rw [current_of_size_le (by simpa [moveTo, ofTokens] using hi)]
  simp [moveTo, ofTokens, ht]

/-- A list sees its last token again and again, and so looks the same with it some more times
behind it, unless that is a name: what stands behind a name is seen as well. -/
theorem sameTo_append_replicate {m : Nat} (ht : tokens.getLast? = some t)
    (hk : t.kind.isIdent = false) (hn : n < tokens.length + m) :
    SameTo n (ofTokens tokens) (ofTokens (tokens ++ (List.replicate m t ++ tail))) := by
  refine ⟨rfl, fun i _ hi => ?_, fun i _ hi hident => ?_⟩
  · rcases Nat.lt_or_ge i tokens.length with hlt | hge
    · have hget : tokens[i]? = some tokens[i] := List.getElem?_eq_getElem hlt
      rw [current_ofTokens hget,
        current_ofTokens ((List.getElem?_append_left hlt).trans hget)]
    · have hlt : i - tokens.length < (List.replicate m t).length := by
        rw [List.length_replicate]
        omega
      rw [current_ofTokens_of_length_le ht hge]
      refine current_ofTokens ?_
      rw [List.getElem?_append_right hge, List.getElem?_append_left hlt,
        List.getElem?_replicate_of_lt (by simpa using hlt)]
  · rcases Nat.lt_trichotomy (i + 1) tokens.length with hlt | hlast | hgt
    · rw [nextKind_ofTokens, nextKind_ofTokens, List.getElem?_append_left hlt]
    · have hget : tokens[i]? = some t := by
        rw [← ht, List.getLast?_eq_getElem?, ← hlast, Nat.succ_sub_one]
      rw [kind, current_ofTokens hget, hk] at hident
      cases hident
    · rw [kind, current_ofTokens_of_length_le ht (Nat.le_of_lt_succ hgt), hk] at hident
      cases hident

theorem sameTo_append_last (ht : tokens.getLast? = some t) (hk : t.kind = .lparen)
    (hn : n ≤ tokens.length) :
    SameTo n (ofTokens tokens) (ofTokens (tokens ++ t :: tail)) :=
  sameTo_append_replicate (m := 1) ht (by rw [hk]; rfl) (Nat.lt_succ_of_le hn)

end Cursor

namespace Grammar

theorem items_reach_eof {declarations : List FunctionDeclaration}
    {definitions : List FunctionDefinition} {c : Cursor} {u : SourceUnit}
    (h : items declarations definitions c = .ok u) : ∃ d, c.Reaches d ∧ d.kind = .eof := by
  fun_induction items declarations definitions c with
  | case1 declarations definitions c hend =>
    exact ⟨c, c.reaches_refl, by simpa [Cursor.atEnd] using hend⟩
  | case2 => cases h
  | case3 declarations definitions c hend c' hb d hi ih =>
    obtain ⟨f, hf, hk⟩ := ih h
    exact ⟨f, ((reading_item c).accepted _ _ hi).1.trans hf, hk⟩
  | case4 declarations definitions c hend c' hb d hi ih =>
    obtain ⟨f, hf, hk⟩ := ih h
    exact ⟨f, ((reading_item c).accepted _ _ hi).1.trans hf, hk⟩
  | case5 => cases h

end Grammar

namespace Program

open Grammar

variable {tokens : List Token} {name : String} {t : Token}

theorem parse_ne_ok (hne : tokens ≠ []) (heof : .eof ∉ tokens.map (·.kind)) (p : Program) :
    parse tokens name ≠ .ok p := by
  intro h
  obtain ⟨d, hd, hk⟩ := items_reach_eof (parse_eq_ok_iff.mp h).2
  have hmem : d.current ∈ tokens.toArray := by
    have hmem := Cursor.current_mem (c := d) (by simpa [hd.tokens, Cursor.ofTokens] using hne)
    rwa [hd.tokens] at hmem
  exact heof (hk ▸ List.mem_map_of_mem (List.mem_toArray.mp hmem))

/-- The list has no end mark and closes with an opening bracket, and with this once more it begins
a sentence: an operand is due at its end. -/
def Stuck (tokens : List Token) : Prop :=
  .eof ∉ tokens.map (·.kind) ∧ (tokens.map (·.kind)).getLast? = some .lparen ∧
    Viable (tokens.map (·.kind) ++ [.lparen])

/-- If reading does not end, an operand is due at the end of the list: with the last bracket once
more, the list is not refused before the end mark behind it. -/
theorem viable_of_endless (ht : tokens.getLast? = some t) (hk : t.kind = .lparen)
    (heof : .eof ∉ tokens.map (·.kind)) (h : parse tokens name = .error .endless) :
    Viable (tokens.map (·.kind) ++ [.lparen]) := by
  have hcloses : Token.Closes (tokens ++ [t, .endMark]) (tokens.map (·.kind) ++ [.lparen]) :=
    ⟨by simp [hk, Token.endMark], by simpa using heof⟩
  have hmem : .eof ∈ (tokens ++ [t, .endMark]).map (·.kind) := by simp [hcloses.1]
  cases hparse : parse (tokens ++ [t, .endMark]) name with
  | ok p => exact viable_of_sentence ⟨p.unit, derivesUnit_of_parse hcloses hparse⟩
  | error failure =>
    cases failure with
    | endless => exact absurd hparse (parse_ne_endless hmem)
    | refused e =>
      obtain ⟨d, hd, -, hopens, hsame⟩ := refused_at hparse
      by_cases hp : d.position ≤ tokens.length
      · cases h.symm.trans (hsame _ (Cursor.sameTo_append_last ht hk hp).symm)
      · refine (viable_of_opens hd hopens hmem).shorten ?_
        have htake : tokens.map (·.kind) ++ [.lparen]
            = ((tokens ++ [t, .endMark]).map (·.kind)).take (tokens.length + 1) := by
          rw [hcloses.1, List.take_append_of_le_length (by simp), List.take_of_length_le (by simp)]
        rw [htake, List.map_take]
        exact List.take_prefix_take_left (Nat.lt_of_not_le hp)

/-- If an operand is due at the end of the list, reading does not end: no token of the list is
refused, since the list begins one that is accepted, and the repeated bracket is not either. -/
theorem endless_of_viable (ht : tokens.getLast? = some t) (hk : t.kind = .lparen)
    (heof : .eof ∉ tokens.map (·.kind)) (h : Viable (tokens.map (·.kind) ++ [.lparen])) :
    parse tokens name = .error .endless := by
  have hviable : Viable ((tokens ++ [t]).map (·.kind)) := by simpa [hk] using h
  obtain ⟨tail, p, hp⟩ := exists_accepted_append name hviable
  rw [List.append_assoc, List.singleton_append] at hp
  cases hparse : parse tokens name with
  | ok q =>
    have hne : tokens ≠ [] := by
      rintro rfl
      cases ht
    exact absurd hparse (parse_ne_ok hne heof q)
  | error failure =>
    cases failure with
    | endless => rfl
    | refused e =>
      obtain ⟨d, hd, -, -, hsame⟩ := refused_at hparse
      have hle := hd.within (Cursor.openEnded_ofTokens_iff.mpr ⟨t, ht, hk⟩) (Nat.zero_le _)
      rw [hd.tokens] at hle
      cases hp.symm.trans (hsame _ (Cursor.sameTo_append_last ht hk hle))

theorem parse_endless_iff : parse tokens name = .error .endless ↔ Stuck tokens := by
  have hlast : (tokens.map (·.kind)).getLast? = some .lparen ↔
      ∃ t, tokens.getLast? = some t ∧ t.kind = .lparen := by
    rw [List.getLast?_map, Option.map_eq_some_iff]
  constructor
  · intro h
    obtain ⟨heof, hopen⟩ := openEnded_of_endless h
    obtain ⟨t, ht, hk⟩ := Cursor.openEnded_ofTokens_iff.mp hopen
    exact ⟨heof, hlast.mpr ⟨t, ht, hk⟩, viable_of_endless ht hk heof h⟩
  · rintro ⟨heof, hopen, hviable⟩
    obtain ⟨t, ht, hk⟩ := hlast.mp hopen
    exact endless_of_viable ht hk heof hviable

/-- Every list is read to a program or to an error, but for those that are stuck. Where operands
are read without a result, it is because their turns would go on for ever; no other loop ever
stops for want of progress. -/
theorem parse_answers_iff :
    (∀ tokens name, ((∃ p, parse tokens name = .ok p) ∨
      ∃ e, parse tokens name = .error (.refused e)) ↔ ¬ Stuck tokens) ∧
    (∀ l enclosing c, operands l enclosing c = .error .endless ↔ EndlessRun (l, enclosing, c)) ∧
    (∀ done c, parameters done c = parameter c >>= fun r =>
      if r.2.check .comma then parameters (r.1 :: done) r.2.advance
      else .ok ((r.1 :: done).reverse, r.2)) ∧
    (∀ done c, variableDeclarations done c = if c.check .intWord then
        variableDeclaration c >>= fun r => variableDeclarations (r.1 :: done) r.2
      else .ok (done.reverse, c)) ∧
    (∀ done c, statements done c = if c.check .rbrace then .ok (done.reverse, c)
      else statement c >>= fun r => statements (r.1 :: done) r.2) ∧
    ∀ declarations definitions c, items declarations definitions c = if c.atEnd then
        .ok { declarations := declarations.reverse, definitions := definitions.reverse }
      else item c >>= fun r => afterItem declarations definitions r.1 r.2 := by
  refine ⟨fun tokens name => ?_, fun l enclosing c => operands_endless_iff, parameters_turn,
    variableDeclarations_turn, statements_turn, items_turn⟩
  have hstuck : parse tokens name = .error .endless ↔ Stuck tokens := parse_endless_iff
  rw [← hstuck]
  cases parse tokens name with
  | ok p => simp
  | error failure => cases failure <;> simp

/-- The list of `int f() { return (`, which breaks off without an end mark. -/
def unfinished : List Token :=
  [.intWord, .ident "f", .lparen, .rparen, .lbrace, .returnWord, .lparen].map (Token.mk · .dummy)

/-- One more bracket is no error yet: the list goes on to `int f() { return ((1)); }`. -/
theorem stuck_unfinished : Stuck unfinished := by
  have hone : Derives .assignment [.number 1] (.number 1 .dummy) :=
    Derives.loosen (.number 1 .dummy) (by decide)
  have hvalue : Derives .assignment [.lparen, .lparen, .number 1, .rparen, .rparen]
      (.number 1 .dummy) :=
    hone.parenthesize 2 (by decide)
  have hreturn : DerivesStmt
      [.returnWord, .lparen, .lparen, .number 1, .rparen, .rparen, .semicolon]
      (.ret (.number 1 .dummy) .dummy) := .ret .dummy hvalue
  have hprototype : DerivesPrototype [.intWord, .ident "f", .lparen, .rparen]
      ⟨⟨"int", .dummy⟩, "f", .dummy, [], .dummy⟩ :=
    .intro "f" .dummy .dummy .dummy [] (by simp)
  have hbody := DerivesBody.intro .dummy [] [(_, _)] (by simp)
    (List.forall_mem_singleton.mpr hreturn)
  have hunit := DerivesUnit.definition (.intro .dummy hprototype hbody) .nil
  have hsplit : DerivesUnit (unfinished.map (·.kind) ++ [.lparen] ++
      [.number 1, .rparen, .rparen, .semicolon, .rbrace]) _ := hunit
  exact ⟨by decide, rfl, viable_of_append hsplit⟩

/-- Behind `return` of the unfinished list the turns go on for ever, and so there is neither a
program nor an error. -/
theorem parse_unfinished :
    ¬ ((∃ p, parse unfinished "m" = .ok p) ∨
      ∃ e, parse unfinished "m" = .error (.refused e)) ∧
    EndlessRun (.empty, [], (Cursor.ofTokens unfinished).moveTo 6) := by
  refine ⟨?_, ?_⟩
  · rw [parse_endless_iff.mpr stuck_unfinished]
    simp
  · -- The turn at the last bracket leads behind the list.
    have hbehind : EndlessRun (.empty, [(.group, .empty)],
        (Cursor.ofTokens unfinished).moveTo 7) :=
      endlessRun_of_size_le (Nat.le_refl 7) rfl
    exact hbehind.prepend (operand_of_lparen rfl)

end Program

end MiniC
