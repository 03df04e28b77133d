import MiniC.Proofs.Token.EndMark
import MiniC.Proofs.Token.Tiling

/-! # Spelling tokens

Each kind of token but an error and the end mark is spelled by its text, as long as its name is no
reserved word and its number has no sign. Spelled tokens are read back if a blank stands behind
each, whatever trivia follow the blank, and what the lexer reads without an error can be spelled.
-/

namespace MiniC

/-- A source can hold a token of the kind. -/
def TokenKind.Spellable : TokenKind → Prop
  | ident name =>
    IsWord name.toList ∧ name ≠ TokenKind.intWord.text ∧ name ≠ TokenKind.returnWord.text
  | number value => 0 ≤ value
  | error _ | eof => False
  | _ => True

/-- What keeps two tokens apart: a blank and any trivia behind it. -/
def Separator (text : List Char) : Prop :=
  ∃ c gap, text = c :: gap ∧ isBlank c = true ∧ Trivia gap

/-- Tokens, each with the text behind it, are kept apart; behind the last one may stand nothing. -/
def Spaced : List (TokenKind × List Char) → Prop
  | [] => True
  | [part] => part.2 = [] ∨ Separator part.2
  | part :: parts => Separator part.2 ∧ Spaced parts

/-- The text of a list of tokens, with what stands before the first and behind each of them. -/
def spell (lead : List Char) (parts : List (TokenKind × List Char)) : List Char :=
  lead ++ parts.flatMap fun part => part.1.text.toList ++ part.2

variable {kind : TokenKind} {text rest gap lead digits : List Char} {source : String}
  {parts : List (TokenKind × List Char)} {ks : List TokenKind}

theorem Separator.trivia (h : Separator text) : Trivia text := by
  obtain ⟨c, gap, rfl, hc, hgap⟩ := h
  exact .blank hc hgap

/-- No lexeme reaches over a blank. -/
theorem ends_of_blank (h : ∀ c ∈ rest.head?, isBlank c = true) : Ends text rest where
  word _ c hc := by
    rcases isBlank_cases (h c hc) with rfl | rfl | rfl | rfl | rfl <;> decide
  numeral _ c hc := by
    rcases isBlank_cases (h c hc) with rfl | rfl | rfl | rfl | rfl <;> decide
  slash _ c hc := by
    rcases isBlank_cases (h c hc) with rfl | rfl | rfl | rfl | rfl <;> decide

theorem toList_text_number {value : Int32} (h : 0 ≤ value) :
    (TokenKind.number value).text.toList = Nat.toDigits 10 value.toInt.toNat := by
  rw [Int32.le_iff_toInt_le] at h
  obtain ⟨n, hn⟩ := Int.eq_ofNat_of_zero_le h
  rw [TokenKind.text, hn]
  exact Nat.toList_repr

theorem lexeme_number {value : Int32} (h : 0 ≤ value) :
    Lexeme (.number value) (TokenKind.number value).text.toList := by
  have hvalue : Int32.ofNat value.toInt.toNat = value := by
    rw [Int32.le_iff_toInt_le] at h
    rw [← Int32.ofInt_eq_ofNat, Int.toNat_of_nonneg h, Int32.ofInt_toInt]
  have hdigits : Nat.ofDigitChars 10 (Nat.toDigits 10 value.toInt.toNat) 0 = value.toInt.toNat :=
    Nat.ofDigitChars_toDigits (by decide) (by decide)
  have hn : IsNumeral (Nat.toDigits 10 value.toInt.toNat) :=
    ⟨Nat.toDigits_ne_nil, fun c hc => Nat.isDigit_of_mem_toDigits (by decide) (by decide) hc⟩
  have hlt : value.toInt.toNat < 2 ^ 31 := by
    have := value.toInt_lt
    omega
  have hlexeme := Lexeme.number hn (by rwa [hdigits])
  rw [hdigits, hvalue] at hlexeme
  rw [toList_text_number h]
  exact hlexeme

theorem TokenKind.Spellable.lexeme (h : kind.Spellable) : Lexeme kind kind.text.toList := by
  cases kind with
  | ident name =>
    obtain ⟨hword, hint, hreturn⟩ := h
    have hname := Lexeme.name hword (fun he => hint (String.toList_inj.mp he))
      (fun he => hreturn (String.toList_inj.mp he))
    rwa [String.ofList_toList] at hname
  | number value => exact lexeme_number h
  | error cause => exact h.elim
  | eof => exact h.elim
  | _ => exact .fixed (by simp [TokenKind.fixed])

theorem Lexeme.spellable (h : Lexeme kind text) (hk : kind.lexError? = none) :
    kind.Spellable := by
  cases h with
  | fixed hkind =>
    simp only [TokenKind.fixed, List.mem_cons, List.not_mem_nil, or_false] at hkind
    rcases hkind with
      rfl | rfl | rfl | rfl | rfl | rfl | rfl | rfl | rfl | rfl | rfl | rfl | rfl <;> trivial
  | name hword hint hreturn =>
    refine ⟨by rwa [String.toList_ofList], fun h => hint ?_, fun h => hreturn ?_⟩
    · rw [← h, String.toList_ofList]
    · rw [← h, String.toList_ofList]
  | number _ hv =>
    show 0 ≤ Int32.ofNat _
    rw [Int32.le_iff_toInt_le, Int32.toInt_ofNat_of_lt hv]
    exact Int.natCast_nonneg _
  | outOfRange => cases hk
  | stray => cases hk

theorem Spaced.tail {part : TokenKind × List Char} (h : Spaced (part :: parts)) :
    Spaced parts := by
  cases parts with
  | nil => trivial
  | cons part' parts => exact h.2

theorem Spaced.trivia {part : TokenKind × List Char} (h : Spaced (part :: parts)) :
    Trivia part.2 := by
  have hpart : part.2 = [] ∨ Separator part.2 := by
    cases parts with
    | nil => exact h
    | cons part' parts => exact .inr h.1
  rcases hpart with hnil | hsep
  · exact hnil ▸ .nil
  · exact hsep.trivia

theorem Spaced.ends {part : TokenKind × List Char} (h : Spaced (part :: parts)) :
    Ends text (part.2 ++ spell [] parts) := by
  have hsep : Separator part.2 → Ends text (part.2 ++ spell [] parts) := by
    rintro ⟨c, gap, hpart, hc, -⟩
    rw [hpart]
    refine ends_of_blank fun d hd => ?_
    obtain rfl : c = d := Option.some.inj hd
    exact hc
  cases parts with
  | nil =>
    rcases h with hnil | hpart
    · rw [hnil]
      exact ends_of_blank (by simp [spell])
    · exact hsep hpart
  | cons part' parts => exact hsep h.1

/-- Tokens, each with the trivia behind it, of which none is extended by what follows it. -/
inductive KeptApart : List (TokenKind × List Char) → Prop
  | nil : KeptApart []
  | cons {part : TokenKind × List Char} {parts : List (TokenKind × List Char)} :
      Trivia part.2 → Ends part.1.text.toList (part.2 ++ spell [] parts) → KeptApart parts →
      KeptApart (part :: parts)

theorem Spaced.keptApart (h : Spaced parts) : KeptApart parts := by
  induction parts with
  | nil => exact .nil
  | cons part parts ih => exact .cons h.trivia h.ends (ih h.tail)

theorem exists_tiling_spell (source : String) (before : List Char)
    (hparts : ∀ part ∈ parts, part.1.Spellable) (hkept : KeptApart parts) :
    ∃ tokens, Tiling source before (spell [] parts) tokens ∧
      tokens.map (·.kind) = parts.map (·.1) ++ [.eof] := by
  induction hkept generalizing before with
  | nil => exact ⟨_, .ending (.closed .nil), rfl⟩
  | @cons part parts htrivia hends _ ih =>
    obtain ⟨hpart, hparts⟩ := List.forall_mem_cons.mp hparts
    obtain ⟨tokens, htiling, hkinds⟩ := ih (before ++ [] ++ part.1.text.toList ++ part.2) hparts
    have hcut := Tiling.lexeme .nil hpart.lexeme hends (htiling.prepend htrivia)
    refine ⟨.spanning source (before ++ []) part.1.text.toList part.1 :: tokens, ?_, ?_⟩
    · simpa [spell] using hcut
    · rw [List.map_cons, hkinds]
      rfl

theorem kinds_lex_keptApart (hlead : Trivia lead) (hparts : ∀ part ∈ parts, part.1.Spellable)
    (hkept : KeptApart parts) :
    (Token.lex (String.ofList (spell lead parts))).map (·.kind) = parts.map (·.1) ++ [.eof] := by
  obtain ⟨tokens, htiling, hkinds⟩ :=
    exists_tiling_spell (String.ofList (spell lead parts)) ([] ++ lead) hparts hkept
  have hcut := htiling.prepend hlead
  rw [← hkinds, Token.lex_of_tiling]
  rw [String.toList_ofList]
  exact hcut

theorem kinds_lex_spell (hlead : Trivia lead) (hparts : ∀ part ∈ parts, part.1.Spellable)
    (hspaced : Spaced parts) :
    (Token.lex (String.ofList (spell lead parts))).map (·.kind) = parts.map (·.1) ++ [.eof] :=
  kinds_lex_keptApart hlead hparts hspaced.keptApart

theorem Tiling.spellable {before : List Char} {tokens : List Token} {t : Token}
    (h : Tiling source before rest tokens) (ht : t ∈ tokens) (hk : t.kind.lexError? = none) :
    t.kind.Spellable ∨ t.kind = .eof := by
  induction h with
  | ending =>
    obtain rfl := List.mem_singleton.mp ht
    exact .inr rfl
  | lexeme _ hlexeme _ _ ih =>
    rcases List.mem_cons.mp ht with rfl | ht
    · exact .inl (hlexeme.spellable hk)
    · exact ih ht
  | unclosed =>
    rcases List.mem_cons.mp ht with rfl | ht
    · cases hk
    · obtain rfl := List.mem_singleton.mp ht
      exact .inr rfl

def spaced : List TokenKind → List (TokenKind × List Char)
  | [] => []
  | [k] => [(k, [])]
  | k :: ks => (k, [' ']) :: spaced ks

theorem map_fst_spaced (ks : List TokenKind) : (spaced ks).map (·.1) = ks := by
  induction ks with
  | nil => rfl
  | cons k ks ih =>
    cases ks with
    | nil => rfl
    | cons k' ks => exact congrArg (k :: ·) ih

theorem spaced_spaced (ks : List TokenKind) : Spaced (spaced ks) := by
  induction ks with
  | nil => trivial
  | cons k ks ih =>
    cases ks with
    | nil => exact .inl rfl
    | cons k' ks =>
      have hsep : Separator [' '] := ⟨' ', [], rfl, rfl, .nil⟩
      cases ks with
      | nil => exact ⟨hsep, ih⟩
      | cons k'' ks => exact ⟨hsep, ih⟩

theorem spell_spaced (ks : List TokenKind) :
    spell [] (spaced ks) = (" ".intercalate (ks.map (·.text))).toList := by
  rw [String.toList_intercalate, List.map_map]
  induction ks with
  | nil => rfl
  | cons k ks ih =>
    cases ks with
    | nil => simp [spell, spaced]
    | cons k' ks =>
      rw [List.map_cons, List.map_cons, List.intercalate_cons_cons, ← List.map_cons, ← ih]
      simp [spell, spaced]

/-- Spelled tokens are read back, whatever trivia stand between them; and what is read from a
source without an error can be spelled, so that it is read back from its texts with one space
between each two. -/
theorem Token.lex_spell :
    (∀ lead parts, Trivia lead → (∀ part ∈ parts, part.1.Spellable) → Spaced parts →
      (Token.lex (String.ofList (spell lead parts))).map (·.kind) = parts.map (·.1) ++ [.eof]) ∧
    ∀ source, (∀ t ∈ Token.lex source, t.kind.lexError? = none) →
      ∃ ks, (Token.lex source).map (·.kind) = ks ++ [.eof] ∧ (∀ k ∈ ks, k.Spellable) ∧
        (Token.lex (" ".intercalate (ks.map (·.text)))).map (·.kind) = ks ++ [.eof] := by
  refine ⟨fun lead parts => kinds_lex_spell, fun source herror => ?_⟩
  obtain ⟨ks, hkinds, heof⟩ := Token.lex_closes source
  have hspellable : ∀ k ∈ ks, k.Spellable := by
    intro k hk
    obtain ⟨t, ht, rfl⟩ : ∃ t ∈ Token.lex source, t.kind = k :=
      List.mem_map.mp (hkinds ▸ List.mem_append_left _ hk)
    have htiling := Token.tiling_lex source
    refine (htiling.spellable ht (herror t ht)).resolve_right fun he => heof (he ▸ hk)
  refine ⟨ks, hkinds, hspellable, ?_⟩
  have hparts : ∀ part ∈ spaced ks, part.1.Spellable := fun part hpart =>
    hspellable _ (map_fst_spaced ks ▸ List.mem_map_of_mem hpart)
  have hread := kinds_lex_spell .nil hparts (spaced_spaced ks)
  rwa [spell_spaced, String.ofList_toList, map_fst_spaced] at hread

/-- Comments may hold what looks like tokens or like the start of a comment. -/
theorem Token.lex_spell_comments :
    (Token.lex "int /* 1 /* */f\n// ( */\n/ 7").map (·.kind)
      = [.intWord, .ident "f", .slash, .number 7, .eof] := by
  have hblock : Trivia "/* 1 /* */".toList :=
    @Trivia.blockComment " 1 /* ".toList [] (by decide +kernel) .nil
  have hline : Trivia "// ( */\n".toList :=
    @Trivia.lineComment " ( */".toList [] (by decide) .nil
  refine Token.lex_spell.1 []
    [(.intWord, " /* 1 /* */".toList), (.ident "f", "\n// ( */\n".toList), (.slash, [' ']),
      (.number 7, [])] .nil ?_ ?_
  · have hname : (TokenKind.ident "f").Spellable :=
      ⟨⟨'f', [], rfl, by decide, by simp⟩, by decide, by decide⟩
    have hnumber : (0 : Int32) ≤ 7 := by decide
    simp only [List.forall_mem_cons]
    exact ⟨trivial, hname, trivial, hnumber, by simp⟩
  · exact ⟨⟨' ', _, rfl, rfl, hblock⟩, ⟨'\n', _, rfl, rfl, hline⟩, ⟨' ', [], rfl, rfl, .nil⟩,
      .inl rfl⟩

end MiniC
