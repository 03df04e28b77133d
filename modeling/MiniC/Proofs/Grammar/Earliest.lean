import Mathlib.Order.Bounds.Defs
import MiniC.Proofs.Grammar.ReadingPrograms
import MiniC.Proofs.Grammar.Sentence

/-! # The earliest error

A list of kinds is viable if it begins a sentence with its end mark. A list of tokens that is not
accepted is refused at the first token with which its kinds are no longer viable: what was read
before can be completed to a sentence, and if the kinds up to the token began a sentence, that
sentence would be refused as well, since the parser has looked no further.
-/

namespace MiniC

namespace Grammar

/-- The kinds begin a sentence with its end mark. -/
def Viable (ks : List TokenKind) : Prop := ∃ s, Sentence s ∧ ks <+: s ++ [.eof]

variable {ks ks' : List TokenKind} {cause : LexError}

theorem Viable.shorten (h : Viable ks') (hks : ks <+: ks') : Viable ks := by
  obtain ⟨s, hs, hks'⟩ := h
  exact ⟨s, hs, hks.trans hks'⟩

theorem viable_of_sentence (h : Sentence ks) : Viable ks := ⟨ks, h, List.prefix_append _ _⟩

def Begins (ks : List TokenKind) : Prop := ∃ more, Sentence (ks ++ more)

theorem Begins.viable (h : Begins ks) : Viable ks := by
  obtain ⟨more, hs⟩ := h
  exact (viable_of_sentence hs).shorten (List.prefix_append ks more)

theorem Begins.not_mem_eof (h : Begins ks) : .eof ∉ ks := by
  obtain ⟨more, u, hu⟩ := h
  exact fun hmem => hu.not_mem_eof (List.mem_append_left _ hmem)

theorem viable_of_append {more : List TokenKind} {u : SourceUnit} (h : DerivesUnit (ks ++ more) u) :
    Viable ks :=
  Begins.viable ⟨more, u, h⟩

theorem Viable.not_mem_error (h : Viable ks) : .error cause ∉ ks := by
  obtain ⟨s, ⟨u, hu⟩, hks⟩ := h
  intro hmem
  rcases List.mem_append.mp (hks.subset hmem) with hs | heof
  · exact hu.not_mem_error hs
  · simp at heof

end Grammar

theorem TokenKind.isSome_lexError? {k : TokenKind} :
    k.lexError?.isSome = true ↔ ∃ cause, k = .error cause := by
  cases k <;> simp [lexError?]

theorem Code.text_mem_iff (code : Code) :
    code.text ∈ ["E0001", "E0002", "E0003"] ↔ code.phase = .lexer := by
  cases code <;> decide

namespace Cursor

variable {tokens tokens' : List Token} {n : Nat}

theorem current_ofTokens {t : Token} {i : Nat} (h : tokens[i]? = some t) :
    ((ofTokens tokens).moveTo i).current = t := by
  simp [current, moveTo, ofTokens, h]

theorem nextKind_ofTokens (tokens : List Token) (i : Nat) :
    ((ofTokens tokens).moveTo i).nextKind = (tokens[i + 1]?.map (·.kind)).getD .eof := by
  simp [nextKind, moveTo, ofTokens]

theorem ended_ofTokens_iff : (ofTokens tokens).Ended ↔ .eof ∈ tokens.map (·.kind) := by
  rw [Ended, kinds_ofTokens]

theorem Reaches.on {d : Cursor} (hd : (ofTokens tokens).Reaches d)
    (heof : .eof ∈ tokens.map (·.kind)) : d.On tokens :=
  ⟨hd.tokens, hd.ended (ended_ofTokens_iff.mpr heof)⟩

theorem sameTo_of_take (h : tokens.take (n + 1) = tokens'.take (n + 1)) (hn : n < tokens.length) :
    SameTo n (ofTokens tokens) (ofTokens tokens') := by
  have hget : ∀ i ≤ n, tokens'[i]? = tokens[i]? := by
    intro i hi
    have := congrArg (·[i]?) h
    simpa [List.getElem?_take, Nat.lt_succ_of_le hi] using this.symm
  refine ⟨rfl, fun i _ hi => ?_, fun i _ hi _ => ?_⟩
  · have ht : tokens[i]? = some tokens[i] := List.getElem?_eq_getElem (Nat.lt_of_le_of_lt hi hn)
    rw [current_ofTokens ht, current_ofTokens ((hget i hi).trans ht)]
  · rw [nextKind_ofTokens, nextKind_ofTokens, hget (i + 1) hi]

end Cursor

namespace Program

open Grammar

variable {tokens : List Token} {ks : List TokenKind} {name : String} {e : ParseError}

theorem parse_eq_error_iff {failure : Failure} :
    parse tokens name = .error failure ↔ items [] [] (.ofTokens tokens) = .error failure := by
  unfold parse
  rw [bind_eq_error_iff]
  constructor
  · rintro (h | ⟨u, -, h⟩)
    · exact h
    · cases h
  · exact Or.inl

/-- A list that is read on for ever has no end mark, and closes with an opening bracket. -/
theorem openEnded_of_endless (h : parse tokens name = .error .endless) :
    .eof ∉ tokens.map (·.kind) ∧ (Cursor.ofTokens tokens).OpenEnded := by
  rw [← Cursor.ended_ofTokens_iff]
  exact (failing_items [] [] (.ofTokens tokens)).endless (parse_eq_error_iff.mp h)

theorem parse_ne_endless (heof : .eof ∈ tokens.map (·.kind)) :
    parse tokens name ≠ .error .endless :=
  fun h => (openEnded_of_endless h).1 heof

/-- A list is refused at a token, and with it every list that looks the same up to there. -/
theorem refused_at (h : parse tokens name = .error (.refused e)) :
    ∃ d, (Cursor.ofTokens tokens).Reaches d ∧ Refusal e d ∧
      Opens DerivesUnit (.ofTokens tokens) d ∧
      ∀ tokens', Cursor.SameTo d.position (.ofTokens tokens) (.ofTokens tokens') →
        parse tokens' name = .error (.refused e) := by
  obtain ⟨d, hd, href, hopens, hsame⟩ :=
    (failing_items [] [] (.ofTokens tokens)).refused e (parse_eq_error_iff.mp h)
  exact ⟨d, hd, href, hopens, fun tokens' h' => parse_eq_error_iff.mpr (hsame _ h')⟩

theorem phase_of_refused (h : parse tokens name = .error (.refused e)) :
    e.code.phase = .lexer ∨ e.code.phase = .parser := by
  obtain ⟨d, -, href, -⟩ := refused_at h
  exact href.phase

/-- A list with viable kinds begins a list that is accepted. -/
theorem exists_accepted_append (name : String) (h : Viable (tokens.map (·.kind))) :
    ∃ tail p, parse (tokens ++ tail) name = .ok p := by
  obtain ⟨s, ⟨u, hu⟩, tail, htail⟩ := h
  have hkinds : (tokens ++ tail.map (Token.mk · .dummy)).map (·.kind) = s ++ [.eof] := by
    rw [← htail, List.map_append, List.map_map]
    simp [Function.comp_def]
  obtain ⟨p, hp, -⟩ := parse_of_derivesUnit hkinds hu
  exact ⟨_, p, hp⟩

/-- With the token that is refused, the list begins no sentence. -/
theorem not_viable_of_refused {n : Nat} (hn : n < tokens.length)
    (hsame : ∀ tokens', Cursor.SameTo n (.ofTokens tokens) (.ofTokens tokens') →
      parse tokens' name = .error (.refused e)) :
    ¬ Viable ((tokens.take (n + 1)).map (·.kind)) := by
  intro h
  obtain ⟨tail, p, hp⟩ := exists_accepted_append name h
  have htake : tokens.take (n + 1) = (tokens.take (n + 1) ++ tail).take (n + 1) := by
    rw [List.take_append_of_le_length (by simp; omega), List.take_take, Nat.min_self]
  cases hp.symm.trans (hsame _ (Cursor.sameTo_of_take htake hn))

theorem begins_of_opens {d : Cursor} (hd : (Cursor.ofTokens tokens).Reaches d)
    (hopens : Opens DerivesUnit (.ofTokens tokens) d) (heof : .eof ∈ tokens.map (·.kind)) :
    Begins ((tokens.take d.position).map (·.kind)) := by
  have hended : (Cursor.ofTokens tokens).Ended := Cursor.ended_ofTokens_iff.mpr heof
  obtain ⟨ks, more, u, hkinds, hu⟩ := hopens hended
  have hlen : ks.length = d.position := by
    have h := congrArg List.length hkinds
    have hlt := (hd.ended hended).lt_size
    rw [List.length_append, ← Cursor.remaining_eq_length_kinds, ← Cursor.remaining_eq_length_kinds,
      Cursor.remaining, Cursor.remaining, hd.tokens] at h
    rw [hd.tokens] at hlt
    simp only [Cursor.ofTokens] at h hlt
    omega
  rw [Cursor.kinds_ofTokens] at hkinds
  rw [List.map_take, hkinds, ← hlen, List.take_left]
  exact ⟨more, u, hu⟩

theorem viable_of_opens {d : Cursor} (hd : (Cursor.ofTokens tokens).Reaches d)
    (hopens : Opens DerivesUnit (.ofTokens tokens) d) (heof : .eof ∈ tokens.map (·.kind)) :
    Viable ((tokens.take d.position).map (·.kind)) :=
  (begins_of_opens hd hopens heof).viable

theorem refused_earliest (heof : .eof ∈ tokens.map (·.kind)) (h : ∀ p, parse tokens name ≠ .ok p) :
    ∃ k t e, parse tokens name = .error (.refused e) ∧ tokens[k]? = some t ∧
      IsLeast {i | ¬ Viable ((tokens.take (i + 1)).map (·.kind))} k ∧ e.span = t.span ∧
      (e.code.phase = .lexer ↔ ∃ cause, t.kind = .error cause) := by
  cases hparse : parse tokens name with
  | ok p => exact absurd hparse (h p)
  | error failure =>
    cases failure with
    | endless => exact absurd hparse (parse_ne_endless heof)
    | refused e =>
      obtain ⟨d, hd, href, hopens, hsame⟩ := refused_at hparse
      have ht := (hd.on heof).getElem?
      obtain ⟨hlt, -⟩ := List.getElem?_eq_some_iff.mp ht
      refine ⟨d.position, d.current, e, rfl, ht,
        ⟨not_viable_of_refused hlt hsame, fun i hi => ?_⟩, href.span, href.lexical⟩
      refine Nat.le_of_not_lt fun hid => hi ?_
      refine (viable_of_opens hd hopens heof).shorten ?_
      rw [List.map_take, List.map_take]
      exact List.take_prefix_take_left hid

/-- The parser reports the earliest error. A list that closes with its only end mark and is not
accepted is refused at the first token with which its kinds begin no sentence, and the error is a
lexical one just if this token is. So a source with a lexical error is refused, at the first such
error or at another error before it. -/
theorem parse_reports_earliest :
    (∀ tokens ks name, Token.Closes tokens ks → (∀ p, parse tokens name ≠ .ok p) →
      ∃ k t e, parse tokens name = .error (.refused e) ∧ tokens[k]? = some t ∧
        IsLeast {i | ¬ Viable ((tokens.take (i + 1)).map (·.kind))} k ∧ e.span = t.span ∧
        (e.code.text ∈ ["E0001", "E0002", "E0003"] ↔ ∃ cause, t.kind = .error cause)) ∧
    ∀ source name i, (Token.lex source).findIdx? (·.kind.lexError?.isSome) = some i →
      ∃ k t e, ofSource source name = .error (.refused e) ∧ (Token.lex source)[k]? = some t ∧
        e.span = t.span ∧ k ≤ i ∧ (e.code.text ∈ ["E0001", "E0002", "E0003"] ↔ k = i) := by
  refine ⟨fun tokens ks name ht h => ?_, fun source name i hi => ?_⟩
  · have heof : .eof ∈ tokens.map (·.kind) := by simp [ht.1]
    obtain ⟨k, t, e, hparse, hk, hleast, hspan, hcode⟩ := refused_earliest heof h
    exact ⟨k, t, e, hparse, hk, hleast, hspan, (Code.text_mem_iff _).trans hcode⟩
  · obtain ⟨ks, ht⟩ := Token.lex_closes source
    obtain ⟨hlt, hfirst, hbefore⟩ := List.findIdx?_eq_some_iff_getElem.mp hi
    obtain ⟨cause, hcause⟩ := TokenKind.isSome_lexError?.mp hfirst
    have hmem : .error cause ∈ (Token.lex source).map (·.kind) :=
      hcause ▸ List.mem_map_of_mem (List.getElem_mem hlt)
    have hrejected : ∀ p, parse (Token.lex source) name ≠ .ok p := by
      intro p hp
      rw [ht.1] at hmem
      exact (derivesUnit_of_parse ht hp).not_mem_error (by simpa using hmem)
    obtain ⟨k, t, e, hparse, hk, hleast, hspan, hcode⟩ :=
      refused_earliest (by simp [ht.1]) hrejected
    have htake : .error cause ∈ ((Token.lex source).take (i + 1)).map (·.kind) :=
      List.mem_map.mpr
        ⟨_, List.mem_take_iff_getElem.mpr ⟨i, Nat.lt_min.mpr ⟨i.lt_succ_self, hlt⟩, rfl⟩, hcause⟩
    have hki : k ≤ i := hleast.2 fun hviable => hviable.not_mem_error htake
    refine ⟨k, t, e, hparse, hk, hspan, hki, ?_⟩
    rw [Code.text_mem_iff, hcode, ← TokenKind.isSome_lexError?]
    obtain ⟨hk', rfl⟩ := List.getElem?_eq_some_iff.mp hk
    constructor
    · exact fun hlexical => Nat.le_antisymm hki (Nat.le_of_not_lt fun hlt => hbefore k hlt hlexical)
    · rintro rfl
      exact hfirst

/-- A prototype without brackets is refused at its end, and a character that begins no token where
it stands. -/
theorem parse_reports_earliest_int :
    (∃ k t e, parse ([.intWord, .ident "f", .eof].map (Token.mk · .dummy)) "m"
        = .error (.refused e) ∧
      ([.intWord, .ident "f", .eof].map (Token.mk · .dummy))[k]? = some t ∧
      IsLeast {i | ¬ Viable ((([.intWord, .ident "f", .eof].map (Token.mk · .dummy)).take
        (i + 1)).map (·.kind))} k ∧ e.span = t.span ∧
      (e.code.text ∈ ["E0001", "E0002", "E0003"] ↔ ∃ cause, t.kind = .error cause)) ∧
    ∃ k t e, ofSource "int $" "m" = .error (.refused e) ∧ (Token.lex "int $")[k]? = some t ∧
      e.span = t.span ∧ k ≤ 1 ∧ (e.code.text ∈ ["E0001", "E0002", "E0003"] ↔ k = 1) := by
  refine ⟨parse_reports_earliest.1 _ [.intWord, .ident "f"] "m" ⟨rfl, by simp⟩ fun p hp => ?_,
    parse_reports_earliest.2 _ "m" 1 (by decide +kernel)⟩
  rw [parse_eq_ok_iff, items_turn] at hp
  cases hp.2

end Program

end MiniC
