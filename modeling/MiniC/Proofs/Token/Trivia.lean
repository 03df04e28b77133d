import Mathlib.Data.List.TakeWhile
import MiniC.Token.Lexer

/-! # Trivia

Between tokens stand blanks and comments. A block comment runs to its first closer, wherever that
stands, and a line comment to its line feed. Such text is skipped whatever follows it; only the
last line comment of a source may lack its line feed.
-/

namespace MiniC

def commentCloser : List Char := ['*', '/']

/-- Blanks and comments, each of them closed. -/
inductive Trivia : List Char → Prop
  | nil : Trivia []
  | blank {c : Char} {text : List Char} : isBlank c = true → Trivia text → Trivia (c :: text)
  /-- No closer stands before the end of the comment. -/
  | blockComment {body text : List Char} : ¬ commentCloser <:+: body ++ ['*'] → Trivia text →
      Trivia ('/' :: '*' :: (body ++ '*' :: '/' :: text))
  | lineComment {body text : List Char} : '\n' ∉ body → Trivia text →
      Trivia ('/' :: '/' :: (body ++ '\n' :: text))

/-- Blanks and comments at the end of a source. -/
inductive FinalTrivia : List Char → Prop
  | closed {text : List Char} : Trivia text → FinalTrivia text
  | lineComment {text body : List Char} : Trivia text → '\n' ∉ body →
      FinalTrivia (text ++ '/' :: '/' :: body)

theorem eq_false_of_mem_head?_dropWhile {p : Char → Bool} {text : List Char} {d : Char}
    (h : d ∈ (text.dropWhile p).head?) : p d = false := by
  have hp := List.head?_dropWhile_not p text
  rw [Option.mem_def.mp h] at hp
  exact hp

theorem takeWhile_dropWhile_append {p : Char → Bool} {text rest : List Char}
    (h : ∀ d ∈ text, p d = true) (hrest : ∀ d ∈ rest.head?, p d = false) :
    (text ++ rest).takeWhile p = text ∧ (text ++ rest).dropWhile p = rest := by
  rw [List.takeWhile_append_of_pos h, List.dropWhile_append_of_pos h]
  cases rest with
  | nil => simp
  | cons d rest => simp [hrest d rfl]

namespace Piece

variable {c : Char} {cs body seen text rest : List Char}

theorem closeComment_append_closer (h : ¬ commentCloser <:+: body ++ ['*']) :
    closeComment seen (body ++ '*' :: '/' :: rest)
      = some (seen.reverse ++ (body ++ commentCloser), rest) := by
  induction body generalizing seen with
  | nil => simp [closeComment, commentCloser]
  | cons c body ih =>
    obtain ⟨hc, hbody⟩ := not_or.mp (mt List.infix_cons_iff.mpr h)
    have hopen : ∀ more, c = '*' → body ++ '*' :: '/' :: rest = '/' :: more → False := by
      rintro more rfl hmore
      cases body with
      | nil => simp at hmore
      | cons d body =>
        obtain ⟨rfl, -⟩ := List.cons.inj hmore
        exact hc ⟨body ++ ['*'], rfl⟩
    rw [List.cons_append, closeComment.eq_2 _ _ _ hopen, ih hbody]
    simp

theorem closeComment_of_not_infix (h : ¬ commentCloser <:+: cs) : closeComment seen cs = none := by
  fun_induction closeComment seen cs with
  | case1 seen rest => exact absurd ⟨[], rest, rfl⟩ h
  | case2 seen c rest _ ih => exact ih fun hrest => h (List.infix_cons hrest)
  | case3 => rfl

theorem closeComment_eq_some (h : closeComment seen cs = some (text, rest)) :
    ∃ body, cs = body ++ '*' :: '/' :: rest ∧ text = seen.reverse ++ (body ++ commentCloser) ∧
      ¬ commentCloser <:+: body ++ ['*'] := by
  fun_induction closeComment seen cs with
  | case1 seen more =>
    simp only [Option.some.injEq, Prod.mk.injEq] at h
    refine ⟨[], by simp [h.2], by simp [← h.1, commentCloser], ?_⟩
    exact fun hc => absurd hc.length_le (by simp [commentCloser])
  | case2 seen c more hopen ih =>
    obtain ⟨body, rfl, rfl, hbody⟩ := ih h
    refine ⟨c :: body, rfl, by simp, ?_⟩
    rw [List.cons_append, List.infix_cons_iff, not_or]
    refine ⟨?_, hbody⟩
    rintro ⟨after, hafter⟩
    obtain ⟨rfl, hslash⟩ := List.cons.inj hafter
    cases body with
    | nil => simp at hslash
    | cons d body =>
      obtain ⟨rfl, -⟩ := List.cons.inj hslash
      exact hopen _ rfl rfl
  | case3 => cases h

theorem closeComment_eq_none (h : closeComment seen cs = none) : ¬ commentCloser <:+: cs := by
  fun_induction closeComment seen cs with
  | case1 => cases h
  | case2 seen c rest hopen ih =>
    rw [List.infix_cons_iff, not_or]
    refine ⟨?_, ih h⟩
    rintro ⟨after, hafter⟩
    obtain ⟨rfl, hslash⟩ := List.cons.inj hafter
    exact hopen _ rfl hslash.symm
  | case3 => exact fun hc => absurd hc.length_le (by simp [commentCloser])

theorem ofChars_blank (h : isBlank c = true) : ofChars c cs = .skipped [c] cs := by
  rw [ofChars, if_pos h]

theorem ofChars_blockComment (h : ¬ commentCloser <:+: body ++ ['*']) :
    ofChars '/' ('*' :: (body ++ '*' :: '/' :: rest))
      = .skipped ('/' :: '*' :: (body ++ commentCloser)) rest := by
  have hclose : closeComment [] (body ++ '*' :: '/' :: rest) = _ := closeComment_append_closer h
  simp [ofChars, isBlank, hclose]

theorem ofChars_unclosed (h : ¬ commentCloser <:+: cs) :
    ofChars '/' ('*' :: cs) = .unclosed cs := by
  simp [ofChars, isBlank, closeComment_of_not_infix h]

theorem ofChars_lineComment (hbody : '\n' ∉ body) (hrest : ∀ d ∈ rest.head?, d = '\n') :
    ofChars '/' ('/' :: (body ++ rest)) = .skipped ('/' :: '/' :: body) rest := by
  have hin : ∀ d ∈ body, (d != '\n') = true := by
    intro d hd
    have hne : d ≠ '\n' := fun h => hbody (h ▸ hd)
    simpa using hne
  have hout : ∀ d ∈ rest.head?, (d != '\n') = false := fun d hd => by simp [hrest d hd]
  obtain ⟨htake, hdrop⟩ := takeWhile_dropWhile_append hin hout
  simp [ofChars, isBlank, htake, hdrop]

/-- What is skipped: a blank, a block comment up to its first closer or a line comment without its
line feed. -/
inductive Skips : Char → List Char → List Char → List Char → Prop
  | blank {c : Char} {cs : List Char} : isBlank c = true → Skips c cs [c] cs
  | blockComment {body rest : List Char} : ¬ commentCloser <:+: body ++ ['*'] →
      Skips '/' ('*' :: (body ++ '*' :: '/' :: rest)) ('/' :: '*' :: (body ++ commentCloser)) rest
  | lineComment {body rest : List Char} : '\n' ∉ body → (∀ d ∈ rest.head?, d = '\n') →
      Skips '/' ('/' :: (body ++ rest)) ('/' :: '/' :: body) rest

theorem ofChars_skipped (h : ofChars c cs = .skipped text rest) : Skips c cs text rest := by
  unfold ofChars at h
  split at h
  next hc =>
    cases h
    exact .blank hc
  split at h
  next hc =>
    obtain ⟨rfl, hslash⟩ := hc
    obtain ⟨tail, rfl⟩ : ∃ tail, cs = '/' :: tail := by
      cases cs <;> simp_all
    cases h
    have hbody : '\n' ∉ tail.takeWhile (· != '\n') := fun hn => by
      simpa using List.mem_takeWhile_imp hn
    have hrest : ∀ d ∈ (tail.dropWhile (· != '\n')).head?, d = '\n' := fun d hd => by
      simpa using eq_false_of_mem_head?_dropWhile hd
    have hskip := Skips.lineComment hbody hrest
    rw [List.takeWhile_append_dropWhile] at hskip
    simpa using hskip
  split at h
  next hc =>
    obtain ⟨rfl, hstar⟩ := hc
    obtain ⟨tail, rfl⟩ : ∃ tail, cs = '*' :: tail := by
      cases cs <;> simp_all
    split at h
    next text' after hclose =>
      cases h
      obtain ⟨body, rfl, rfl, hbody⟩ := closeComment_eq_some hclose
      exact .blockComment hbody
    · cases h
  split at h
  · cases h
  split at h <;> cases h

theorem ofChars_eq_unclosed (h : ofChars c cs = .unclosed rest) :
    c = '/' ∧ cs = '*' :: rest ∧ ¬ commentCloser <:+: rest := by
  unfold ofChars at h
  split at h
  · cases h
  split at h
  · cases h
  split at h
  next hc =>
    obtain ⟨rfl, hstar⟩ := hc
    obtain ⟨tail, rfl⟩ : ∃ tail, cs = '*' :: tail := by
      cases cs <;> simp_all
    split at h
    · cases h
    next hclose =>
      cases h
      exact ⟨rfl, rfl, closeComment_eq_none hclose⟩
  split at h
  · cases h
  split at h <;> cases h

end Piece

namespace Token

variable {place : Position} {done : List Token} {c : Char} {cs text rest gap : List Char}

theorem lexFrom_skipped (h : Piece.ofChars c cs = .skipped text rest) :
    lexFrom place done (c :: cs) = lexFrom (place.pastAll text) done rest := by
  rw [lexFrom]
  split <;> simp_all

theorem lexFrom_token {kind : TokenKind} (h : Piece.ofChars c cs = .token kind text rest) :
    lexFrom place done (c :: cs)
      = lexFrom (place.pastAll text) (⟨kind, place, place.pastAll text⟩ :: done) rest := by
  rw [lexFrom]
  split <;> simp_all

theorem lexFrom_unclosed (h : Piece.ofChars c cs = .unclosed rest) :
    lexFrom place done (c :: cs)
      = done.reverse ++
        [⟨.error .unterminatedComment, place, place.pastAll ['/', '*']⟩,
          ⟨.eof, .point ((place.pastAll ['/', '*']).pastAll rest)⟩] := by
  rw [lexFrom]
  split <;> simp_all

theorem pastAll_append (place : Position) (text more : List Char) :
    place.pastAll (text ++ more) = (place.pastAll text).pastAll more :=
  List.foldl_append

/-- Trivia is skipped, whatever follows. -/
theorem lexFrom_trivia (h : Trivia gap) :
    lexFrom place done (gap ++ rest) = lexFrom (place.pastAll gap) done rest := by
  induction h generalizing place with
  | nil => rfl
  | @blank c gap hc _ ih =>
    rw [List.cons_append, lexFrom_skipped (Piece.ofChars_blank hc), ih]
    rfl
  | @blockComment body gap hbody _ ih =>
    have hskip : Piece.ofChars '/' ('*' :: (body ++ '*' :: '/' :: (gap ++ rest))) = _ :=
      Piece.ofChars_blockComment hbody
    have htext : '/' :: '*' :: (body ++ '*' :: '/' :: gap)
        = '/' :: '*' :: (body ++ commentCloser) ++ gap := by
      simp [commentCloser]
    rw [htext, pastAll_append, ← ih]
    simpa [commentCloser] using lexFrom_skipped hskip
  | @lineComment body gap hbody _ ih =>
    have hskip : Piece.ofChars '/' ('/' :: (body ++ '\n' :: (gap ++ rest))) = _ :=
      Piece.ofChars_lineComment hbody (by simp)
    have htext : '/' :: '/' :: (body ++ '\n' :: gap)
        = ('/' :: '/' :: body) ++ ['\n'] ++ gap := by
      simp
    rw [htext, pastAll_append, pastAll_append, ← ih]
    have hblank : Piece.ofChars '\n' (gap ++ rest) = _ := Piece.ofChars_blank rfl
    simpa using (lexFrom_skipped hskip).trans (lexFrom_skipped hblank)

theorem lexFrom_finalTrivia (h : FinalTrivia gap) :
    lexFrom place done gap = done.reverse ++ [⟨.eof, .point (place.pastAll gap)⟩] := by
  have hnil : ∀ p, lexFrom p done [] = done.reverse ++ [⟨.eof, .point p⟩] := fun p => by
    simp [lexFrom]
  cases h with
  | closed h =>
    rw [← hnil, ← lexFrom_trivia h, List.append_nil]
  | @lineComment text body h hbody =>
    have hskip : Piece.ofChars '/' ('/' :: (body ++ [])) = _ :=
      Piece.ofChars_lineComment hbody (by simp)
    rw [List.append_nil] at hskip
    rw [lexFrom_trivia h, lexFrom_skipped hskip, hnil, pastAll_append]

end Token

end MiniC
