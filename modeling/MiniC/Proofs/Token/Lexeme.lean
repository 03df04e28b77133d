import Mathlib.Data.String.Basic
import MiniC.Proofs.Token.Trivia

/-! # Lexemes

A lexeme is the text of one token. Keywords, operators and punctuation marks have a fixed text; a
word that is no keyword is a name, a run of digits a number that may be out of range, and a
character that begins none of these stands for itself, as an error. The piece that is cut off a
text is the longest lexeme there: what follows it does not extend it.
-/

namespace MiniC

def IsWord (text : List Char) : Prop :=
  ∃ c cs, text = c :: cs ∧ isWordStart c = true ∧ ∀ d ∈ cs, isWordPart d = true

def IsNumeral (text : List Char) : Prop := text ≠ [] ∧ ∀ c ∈ text, c.isDigit = true

namespace TokenKind

/-- The kinds with a text of their own: keywords, operators and punctuation marks. -/
def fixed : List TokenKind :=
  [intWord, returnWord, equals, plus, minus, star, slash, lparen, rparen, lbrace, rbrace, comma,
    semicolon]

end TokenKind

/-- The kind of the token that a text makes. -/
inductive Lexeme : TokenKind → List Char → Prop
  | fixed {kind : TokenKind} : kind ∈ TokenKind.fixed → Lexeme kind kind.text.toList
  | name {word : List Char} : IsWord word →
      word ≠ TokenKind.intWord.text.toList → word ≠ TokenKind.returnWord.text.toList →
      Lexeme (.ident (String.ofList word)) word
  | number {digits : List Char} : IsNumeral digits → Nat.ofDigitChars 10 digits 0 < 2 ^ 31 →
      Lexeme (.number (Int32.ofNat (Nat.ofDigitChars 10 digits 0))) digits
  | outOfRange {digits : List Char} : IsNumeral digits → 2 ^ 31 ≤ Nat.ofDigitChars 10 digits 0 →
      Lexeme (.error .invalidInteger) digits
  /-- The character begins no token, and it is no blank. -/
  | stray {c : Char} : isBlank c = false → isWordStart c = false → c.isDigit = false →
      (∀ kind ∈ TokenKind.fixed, kind.text.toList.head? ≠ some c) →
      Lexeme (.error .invalidCharacter) [c]

/-- What follows a lexeme does not extend it: words and numerals are as long as they can be, and a
slash opens no comment. -/
structure Ends (text rest : List Char) : Prop where
  word : IsWord text → ∀ c ∈ rest.head?, isWordPart c = false
  numeral : IsNumeral text → ∀ c ∈ rest.head?, c.isDigit = false
  slash : text = ['/'] → ∀ c ∈ rest.head?, c ≠ '/' ∧ c ≠ '*'

variable {c : Char} {cs text rest word digits : List Char} {kind : TokenKind}

theorem isBlank_cases (h : isBlank c = true) :
    c = ' ' ∨ c = '\t' ∨ c = '\r' ∨ c = '\n' ∨ c = '\x0c' := by
  simpa [isBlank, or_assoc] using h

theorem isWordPart_of_isDigit (h : c.isDigit = true) : isWordPart c = true := by
  simp [isWordPart, Char.isAlphanum, h]

theorem isWordPart_of_isWordStart (h : isWordStart c = true) : isWordPart c = true := by
  simp only [isWordStart, Bool.or_eq_true] at h
  rcases h with h | h <;> simp [isWordPart, Char.isAlphanum, h]

theorem isBlank_eq_false (h : isWordPart c = true) : isBlank c = false := by
  rw [Bool.eq_false_iff]
  intro hb
  rcases isBlank_cases hb with rfl | rfl | rfl | rfl | rfl <;> exact absurd h (by decide)

theorem ne_slash_of_isWordPart (h : isWordPart c = true) : c ≠ '/' := by
  rintro rfl
  exact absurd h (by decide)

theorem le_toNat_of_isAlpha (h : c.isAlpha = true) : 65 ≤ c.toNat := by
  rcases (Bool.or_eq_true _ _).mp h with hupper | hlower
  · have hA : 'A'.val ≤ c.val := (of_decide_eq_true hupper).1
    exact hA
  · have ha : 'a'.val ≤ c.val := of_decide_eq_true ((Bool.and_eq_true _ _).mp hlower).1
    exact Nat.le_trans (by decide) ha

theorem isDigit_eq_false_of_isWordStart (h : isWordStart c = true) : c.isDigit = false := by
  rw [Bool.eq_false_iff]
  intro hd
  have hdigit : 48 ≤ c.toNat ∧ c.toNat ≤ 57 := by
    simpa [Char.isDigit, UInt32.le_iff_toNat_le] using hd
  rw [isWordStart, Bool.or_eq_true] at h
  rcases h with h | h
  · have hletter := le_toNat_of_isAlpha h
    omega
  · obtain rfl : c = '_' := by simpa using h
    exact absurd hd (by decide)

theorem IsWord.not_numeral (h : IsWord text) : ¬ IsNumeral text := by
  obtain ⟨c, cs, rfl, hc, -⟩ := h
  rintro ⟨-, hd⟩
  have := hd c List.mem_cons_self
  rw [isDigit_eq_false_of_isWordStart hc] at this
  cases this

theorem not_isWord_singleton (h : isWordStart c = false) : ¬ IsWord [c] := by
  rintro ⟨d, ds, heq, hd, -⟩
  obtain ⟨rfl, -⟩ := List.cons.inj heq
  rw [h] at hd
  cases hd

theorem not_isNumeral_singleton (h : c.isDigit = false) : ¬ IsNumeral [c] := fun hn => by
  have := hn.2 c List.mem_cons_self
  rw [h] at this
  cases this

theorem ofChar_cases (c : Char) : TokenKind.ofChar c = .error .invalidCharacter ∨
    TokenKind.ofChar c ∈ TokenKind.fixed ∧ (TokenKind.ofChar c).text.toList = [c] := by
  unfold TokenKind.ofChar
  split
  all_goals first | exact .inr ⟨by simp [TokenKind.fixed], rfl⟩ | exact .inl rfl

/-- A character that begins neither a word nor a numeral and is no blank. -/
def StandsAlone (c : Char) : Prop :=
  isBlank c = false ∧ isWordStart c = false ∧ c.isDigit = false

theorem fixed_cases (h : kind ∈ TokenKind.fixed) :
    IsWord kind.text.toList ∧ TokenKind.ofWord kind.text.toList = kind ∨
      ∃ c, kind.text.toList = [c] ∧ TokenKind.ofChar c = kind ∧ StandsAlone c := by
  simp only [TokenKind.fixed, List.mem_cons, List.not_mem_nil, or_false] at h
  rcases h with rfl | rfl | h
  · exact .inl ⟨⟨_, _, rfl, by decide, List.all_eq_true.mp (by decide)⟩, by decide⟩
  · exact .inl ⟨⟨_, _, rfl, by decide, List.all_eq_true.mp (by decide)⟩, by decide⟩
  · rcases h with rfl | rfl | rfl | rfl | rfl | rfl | rfl | rfl | rfl | rfl | rfl <;>
      exact .inr ⟨_, rfl, rfl, by decide, by decide, by decide⟩

theorem lexeme_ofWord (h : IsWord word) : Lexeme (.ofWord word) word := by
  unfold TokenKind.ofWord
  split
  next hint =>
    subst hint
    have hfixed : .intWord ∈ TokenKind.fixed := by simp [TokenKind.fixed]
    exact .fixed hfixed
  · split
    next hreturn =>
      subst hreturn
      have hfixed : .returnWord ∈ TokenKind.fixed := by simp [TokenKind.fixed]
      exact .fixed hfixed
    next hint hreturn => exact .name h hint hreturn

theorem lexeme_ofDigits (h : IsNumeral digits) : Lexeme (.ofDigits digits) digits := by
  unfold TokenKind.ofDigits
  dsimp only
  split
  next hv => exact .number h (by omega)
  next hv => exact .outOfRange h (by omega)

theorem lexeme_ofChar (h : StandsAlone c) : Lexeme (.ofChar c) [c] := by
  rcases ofChar_cases c with hc | ⟨hc, htext⟩
  · rw [hc]
    refine .stray h.1 h.2.1 h.2.2 fun kind hkind hhead => ?_
    rcases fixed_cases hkind with ⟨⟨d, ds, htext, hd, -⟩, -⟩ | ⟨d, htext, rfl, -⟩
    · rw [htext] at hhead
      obtain rfl := Option.some.inj hhead
      exact absurd hd (by simp [h.2.1])
    · rw [htext] at hhead
      obtain rfl := Option.some.inj hhead
      rw [hc] at hkind
      simp [TokenKind.fixed] at hkind
  · exact htext ▸ .fixed hc

/-- A lexeme is a word, a numeral or a character, and that decides its kind. -/
theorem lexeme_iff : Lexeme kind text ↔
    IsWord text ∧ kind = .ofWord text ∨ IsNumeral text ∧ kind = .ofDigits text ∨
      ∃ c, text = [c] ∧ kind = .ofChar c ∧ StandsAlone c := by
  constructor
  · intro h
    cases h with
    | fixed hkind =>
      rcases fixed_cases hkind with ⟨hword, hk⟩ | ⟨c, htext, hk, hc⟩
      · exact .inl ⟨hword, hk.symm⟩
      · exact .inr (.inr ⟨c, htext, hk.symm, hc⟩)
    | name hword hint hreturn =>
      have hint : text ≠ ['i', 'n', 't'] := hint
      have hreturn : text ≠ ['r', 'e', 't', 'u', 'r', 'n'] := hreturn
      exact .inl ⟨hword, by rw [TokenKind.ofWord, if_neg hint, if_neg hreturn]⟩
    | number hn hv =>
      refine .inr (.inl ⟨hn, ?_⟩)
      rw [TokenKind.ofDigits]
      exact (if_pos (by omega)).symm
    | outOfRange hn hv =>
      refine .inr (.inl ⟨hn, ?_⟩)
      rw [TokenKind.ofDigits]
      exact (if_neg (by omega)).symm
    | @stray c hb hw hd hno =>
      refine .inr (.inr ⟨c, rfl, ?_, hb, hw, hd⟩)
      rcases ofChar_cases c with hc | ⟨hc, htext⟩
      · exact hc.symm
      · exact absurd (by rw [htext]; rfl) (hno _ hc)
  · rintro (⟨hword, rfl⟩ | ⟨hn, rfl⟩ | ⟨c, rfl, rfl, hc⟩)
    · exact lexeme_ofWord hword
    · exact lexeme_ofDigits hn
    · exact lexeme_ofChar hc

theorem ofChars_word (hc : isWordStart c = true) (hcs : ∀ d ∈ cs, isWordPart d = true)
    (hrest : ∀ d ∈ rest.head?, isWordPart d = false) :
    Piece.ofChars c (cs ++ rest) = .token (.ofWord (c :: cs)) (c :: cs) rest := by
  have hpart := isWordPart_of_isWordStart hc
  obtain ⟨htake, hdrop⟩ := takeWhile_dropWhile_append hcs hrest
  simp [Piece.ofChars, isBlank_eq_false hpart, ne_slash_of_isWordPart hpart,
    isDigit_eq_false_of_isWordStart hc, hc, htake, hdrop]

theorem ofChars_numeral (hc : c.isDigit = true) (hcs : ∀ d ∈ cs, d.isDigit = true)
    (hrest : ∀ d ∈ rest.head?, d.isDigit = false) :
    Piece.ofChars c (cs ++ rest) = .token (.ofDigits (c :: cs)) (c :: cs) rest := by
  have hpart := isWordPart_of_isDigit hc
  obtain ⟨htake, hdrop⟩ := takeWhile_dropWhile_append hcs hrest
  simp [Piece.ofChars, isBlank_eq_false hpart, ne_slash_of_isWordPart hpart, hc, htake, hdrop]

theorem ofChars_char (h : StandsAlone c)
    (hrest : c = '/' → ∀ d ∈ cs.head?, d ≠ '/' ∧ d ≠ '*') :
    Piece.ofChars c cs = .token (.ofChar c) [c] cs := by
  obtain ⟨hb, hw, hd⟩ := h
  have hline : ¬ (c = '/' ∧ cs.head? = some '/') := fun h => (hrest h.1 _ h.2).1 rfl
  have hblock : ¬ (c = '/' ∧ cs.head? = some '*') := fun h => (hrest h.1 _ h.2).2 rfl
  simp [Piece.ofChars, hb, hw, hd, hline, hblock]

theorem Lexeme.ofChars (h : Lexeme kind text) (he : Ends text rest) :
    ∃ c cs, text = c :: cs ∧ Piece.ofChars c (cs ++ rest) = .token kind text rest := by
  rcases lexeme_iff.mp h with ⟨hword, rfl⟩ | ⟨hn, rfl⟩ | ⟨c, rfl, rfl, hc⟩
  · have hrest := he.word hword
    obtain ⟨c, cs, rfl, hc, hcs⟩ := hword
    exact ⟨c, cs, rfl, ofChars_word hc hcs hrest⟩
  · have hrest := he.numeral hn
    obtain ⟨c, cs, rfl⟩ := List.exists_cons_of_ne_nil hn.1
    obtain ⟨hc, hcs⟩ := List.forall_mem_cons.mp hn.2
    exact ⟨c, cs, rfl, ofChars_numeral hc hcs hrest⟩
  · exact ⟨c, [], rfl, ofChars_char hc fun hslash => he.slash (by rw [hslash])⟩

theorem IsWord.ends (h : IsWord text) (hrest : ∀ d ∈ rest.head?, isWordPart d = false) :
    Ends text rest where
  word _ := hrest
  numeral hn := absurd hn h.not_numeral
  slash htext := by
    obtain ⟨c, cs, rfl, hc, -⟩ := h
    exact absurd (List.cons.inj htext).1 (ne_slash_of_isWordPart (isWordPart_of_isWordStart hc))

theorem IsNumeral.ends (h : IsNumeral text) (hrest : ∀ d ∈ rest.head?, d.isDigit = false) :
    Ends text rest where
  word hword := absurd h hword.not_numeral
  numeral _ := hrest
  slash htext := by
    subst htext
    exact absurd (h.2 '/' List.mem_cons_self) (by decide)

theorem StandsAlone.ends (h : StandsAlone c)
    (hrest : c = '/' → ∀ d ∈ rest.head?, d ≠ '/' ∧ d ≠ '*') : Ends [c] rest where
  word hword := absurd hword (not_isWord_singleton h.2.1)
  numeral hn := absurd hn (not_isNumeral_singleton h.2.2)
  slash htext := hrest (List.cons.inj htext).1

/-- The token that is cut off is a lexeme, and it ends there. -/
theorem ofChars_token (h : Piece.ofChars c cs = .token kind text rest) :
    Lexeme kind text ∧ Ends text rest := by
  unfold Piece.ofChars at h
  split at h
  · cases h
  next hb =>
  split at h
  · cases h
  next hline =>
  split at h
  · split at h <;> cases h
  next hblock =>
  split at h
  next hd =>
    cases h
    have hn : IsNumeral (c :: cs.takeWhile Char.isDigit) :=
      ⟨by simp, List.forall_mem_cons.mpr ⟨hd, fun d hd => List.mem_takeWhile_imp hd⟩⟩
    exact ⟨lexeme_ofDigits hn, hn.ends fun d hd => eq_false_of_mem_head?_dropWhile hd⟩
  next hd =>
  split at h
  next hw =>
    cases h
    have hword : IsWord (c :: cs.takeWhile isWordPart) :=
      ⟨c, _, rfl, hw, fun d hd => List.mem_takeWhile_imp hd⟩
    exact ⟨lexeme_ofWord hword, hword.ends fun d hd => eq_false_of_mem_head?_dropWhile hd⟩
  next hw =>
    cases h
    have hc : StandsAlone c :=
      ⟨eq_false_of_ne_true hb, eq_false_of_ne_true hw, eq_false_of_ne_true hd⟩
    refine ⟨lexeme_ofChar hc, hc.ends fun hslash d hd => ⟨?_, ?_⟩⟩
    · rintro rfl
      exact hline ⟨hslash, hd⟩
    · rintro rfl
      exact hblock ⟨hslash, hd⟩

end MiniC
