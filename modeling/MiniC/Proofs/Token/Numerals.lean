import Mathlib.Data.Nat.Digits.Defs
import MiniC.Proofs.Token.Spelling

/-! # Numerals

A numeral is one token, however long it is, and the token holds the decimal value of the numeral or
says that 32 bits and their sign are not enough for it. Numerals have no sign, so no number of a
source is negative. Reading the digits one after another in 32 bits, and stopping as soon as a
product or a sum does not fit, comes to the same: the value never gets smaller with a digit, so
what has left the range does not come back.
-/

namespace MiniC

variable {value : Nat} {c : Char} {digits : List Char}

/-- The value of a numeral: its last digit counts once, and each one before counts ten times as
much as the one behind it. -/
def decimalValue (digits : List Char) : Nat :=
  Nat.ofDigits 10 (digits.map fun c => c.toNat - '0'.toNat).reverse

theorem ofDigitChars_eq_decimalValue (digits : List Char) :
    Nat.ofDigitChars 10 digits 0 = decimalValue digits := by
  induction digits using List.reverseRecOn with
  | nil => rfl
  | append_singleton digits c ih =>
    rw [Nat.ofDigitChars_append, ih, Nat.ofDigitChars_cons, Nat.ofDigitChars_nil, decimalValue,
      decimalValue, List.map_append, List.reverse_append, List.map_singleton,
      List.reverse_singleton, List.singleton_append, Nat.ofDigits_cons, Nat.add_comm]

/-- A number in 32 bits, if they are enough for it and its sign. -/
def fit? (value : Int) : Option Int32 :=
  if Int32.minValue.toInt ≤ value ∧ value ≤ Int32.maxValue.toInt then some (.ofInt value) else none

/-- A number with one more digit, if neither the product nor the sum leaves 32 bits. -/
def pushDigit? (n : Int32) (c : Char) : Option Int32 := do
  let product ← fit? (n.toInt * 10)
  fit? (product.toInt + (c.toNat - '0'.toNat : Nat))

def readDigits? (digits : List Char) : Option Int32 := digits.foldlM pushDigit? 0

theorem fit?_natCast (value : Nat) :
    fit? value = if value < 2 ^ 31 then some (.ofNat value) else none := by
  rw [fit?, Int32.toInt_minValue, Int32.toInt_maxValue, Int32.ofInt_eq_ofNat]
  congr 1
  rw [eq_iff_iff]
  omega

theorem pushDigit?_ofNat (hvalue : value < 2 ^ 31) (c : Char) :
    pushDigit? (.ofNat value) c
      = if 10 * value + (c.toNat - '0'.toNat) < 2 ^ 31
        then some (.ofNat (10 * value + (c.toNat - '0'.toNat))) else none := by
  have hproduct : (Int32.ofNat value).toInt * 10 = (10 * value : Nat) := by
    rw [Int32.toInt_ofNat_of_lt hvalue]
    omega
  rw [pushDigit?, hproduct, fit?_natCast]
  by_cases hfits : 10 * value < 2 ^ 31
  · rw [if_pos hfits, Option.bind_eq_bind, Option.bind_some, Int32.toInt_ofNat_of_lt hfits,
      ← Int.natCast_add, fit?_natCast]
  · rw [if_neg hfits, if_neg (by omega)]
    rfl

theorem le_ofDigitChars (value : Nat) (digits : List Char) :
    value ≤ Nat.ofDigitChars 10 digits value := by
  induction digits generalizing value with
  | nil => exact Nat.le_refl value
  | cons c digits ih =>
    rw [Nat.ofDigitChars_cons]
    exact Nat.le_trans (by omega) (ih _)

theorem foldlM_pushDigit? (hvalue : value < 2 ^ 31) (digits : List Char) :
    digits.foldlM pushDigit? (.ofNat value)
      = if Nat.ofDigitChars 10 digits value < 2 ^ 31
        then some (.ofNat (Nat.ofDigitChars 10 digits value)) else none := by
  induction digits generalizing value with
  | nil => exact (if_pos hvalue).symm
  | cons c digits ih =>
    rw [List.foldlM_cons, pushDigit?_ofNat hvalue, Nat.ofDigitChars_cons]
    split
    next hfits => exact ih hfits
    next hfits =>
      have hle := le_ofDigitChars (10 * value + (c.toNat - '0'.toNat)) digits
      exact (if_neg (by omega)).symm

/-- Reading in 32 bits gives the value of the digits, or nothing if it does not fit. -/
theorem readDigits?_eq (digits : List Char) :
    readDigits? digits
      = if decimalValue digits < 2 ^ 31 then some (.ofNat (decimalValue digits)) else none := by
  rw [← ofDigitChars_eq_decimalValue]
  exact foldlM_pushDigit? (by decide) digits

theorem TokenKind.ofDigits_eq (digits : List Char) :
    ofDigits digits = (readDigits? digits).elim (.error .invalidInteger) .number := by
  rw [readDigits?_eq, ofDigits, ofDigitChars_eq_decimalValue]
  by_cases hfits : decimalValue digits < 2 ^ 31
  · rw [if_pos hfits]
    exact if_pos (by omega)
  · rw [if_neg hfits]
    exact if_neg (by omega)

namespace Token

variable {source : String}

theorem behind_numeral (h : IsNumeral digits) :
    Position.behind digits = .clamp 1 (digits.length + 1) := by
  have hnewline : '\n' ∉ digits := fun hmem => absurd (h.2 '\n' hmem) (by decide)
  have hline : lastLine digits = digits := by
    rw [lastLine, List.rtakeWhile_eq_self_iff]
    intro c hc
    rw [decide_eq_true_eq]
    rintro rfl
    exact hnewline hc
  rw [Position.behind, hline, List.count_eq_zero_of_not_mem hnewline]

theorem lex_of_numeral (h : IsNumeral source.toList) :
    lex source = [⟨.ofDigits source.toList, ⟨1, 1⟩, .clamp 1 (source.length + 1)⟩,
      ⟨.eof, .point (.clamp 1 (source.length + 1))⟩] := by
  have hends : Ends source.toList [] := h.ends (by simp)
  have hcut : Tiling source [] ([] ++ (source.toList ++ [])) _ :=
    .lexeme .nil (lexeme_ofDigits h) hends (.ending (.closed .nil))
  rw [List.nil_append, List.append_nil] at hcut
  have hs : source.toList = [] ++ (source.toList ++ []) := by simp
  have hend : source.toList = source.toList ++ [] := (List.append_nil _).symm
  rw [lex_of_tiling hcut, List.append_nil, spanning_eq hs, ending_eq hend,
    ← Position.behind_append, List.nil_append, behind_numeral h, String.length_toList]
  rfl

theorem number_nonneg {t : Token} {n : Int32} (ht : t ∈ lex source) (hn : t.kind = .number n) :
    0 ≤ n.toInt := by
  have hspellable := (tiling_lex source).spellable ht (by rw [hn]; rfl)
  rw [hn] at hspellable
  have hle : 0 ≤ n := hspellable.resolve_right (by simp)
  exact Int32.le_iff_toInt_le.mp hle

/-- A source that is a numeral, with any number of zeros at its front, is one token over its whole
length. That is a number with the decimal value of the numeral if the value is at most 2147483647,
and an error if it is greater. Reading the digits in 32 bits, where every product and every sum is
checked, gives the same. No source has a number that is negative. -/
theorem lex_numeral :
    (∀ source : String, IsNumeral source.toList →
      let stop := Position.clamp 1 (source.length + 1)
      ∃ kind, lex source = [⟨kind, ⟨1, 1⟩, stop⟩, ⟨.eof, .point stop⟩] ∧
        (decimalValue source.toList ≤ 2147483647 →
          ∃ n, kind = .number n ∧ n.toInt = decimalValue source.toList) ∧
        (2147483647 < decimalValue source.toList → kind = .error .invalidInteger) ∧
        kind = (readDigits? source.toList).elim (.error .invalidInteger) .number) ∧
    ∀ (source : String), ∀ t ∈ lex source, ∀ n, t.kind = .number n → 0 ≤ n.toInt := by
  refine ⟨fun source h => ?_, fun source t ht n hn => number_nonneg ht hn⟩
  refine ⟨_, lex_of_numeral h, fun hle => ?_, fun hlt => ?_, TokenKind.ofDigits_eq _⟩
  · have hfits : decimalValue source.toList < 2 ^ 31 := by omega
    refine ⟨_, ?_, Int32.toInt_ofNat_of_lt hfits⟩
    rw [TokenKind.ofDigits_eq, readDigits?_eq, if_pos hfits]
    rfl
  · have hexceeds : ¬ decimalValue source.toList < 2 ^ 31 := by omega
    rw [TokenKind.ofDigits_eq, readDigits?_eq, if_neg hexceeds]
    rfl

/-- The greatest number behind some zeros, and a numeral that would be one again if 32 bits were
all that is kept of it. -/
theorem lex_numeral_limit :
    IsNumeral "0002147483647".toList ∧ IsNumeral "4294967297".toList ∧
      lex "0002147483647" = [⟨.number 2147483647, ⟨1, 1⟩, ⟨1, 14⟩⟩, ⟨.eof, .point ⟨1, 14⟩⟩] ∧
      lex "4294967297" = [⟨.error .invalidInteger, ⟨1, 1⟩, ⟨1, 11⟩⟩, ⟨.eof, .point ⟨1, 11⟩⟩] ∧
      0 ≤ (2147483647 : Int32).toInt := by
  have hzeros : IsNumeral "0002147483647".toList :=
    ⟨by decide, List.all_eq_true.mp (by decide)⟩
  have hwraps : IsNumeral "4294967297".toList := ⟨by decide, List.all_eq_true.mp (by decide)⟩
  obtain ⟨kind, hlex, hnumber, -, -⟩ := lex_numeral.1 "0002147483647" hzeros
  obtain ⟨n, rfl, hn⟩ := hnumber (by decide)
  obtain rfl : n = 2147483647 := Int32.toInt_inj.mp (hn.trans (by decide))
  obtain ⟨kind, hlex', -, herror, -⟩ := lex_numeral.1 "4294967297" hwraps
  obtain rfl := herror (by decide)
  refine ⟨hzeros, hwraps, hlex, hlex', ?_⟩
  have hmem : (⟨.number 2147483647, ⟨1, 1⟩, ⟨1, 14⟩⟩ : Token) ∈ lex "0002147483647" := by
    rw [hlex]
    exact List.mem_cons_self
  exact lex_numeral.2 "0002147483647" _ hmem _ rfl

end Token

end MiniC
