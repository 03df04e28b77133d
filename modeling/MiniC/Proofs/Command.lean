import MiniC.Command
import MiniC.Proofs.Grammar.Earliest
import MiniC.Proofs.Scope.Analysis
import MiniC.Proofs.Scope.Checked

/-! # Commands on one file

Checking a file and showing its symbols run the whole front end, and parsing it stops half way. All
three refuse a file with the same report and nothing else, since what cannot be parsed cannot be
compiled, for the same reason. The tokens of a file are always shown, and the path of a source by
itself asks for a check.
-/

namespace MiniC

namespace Compilation

variable {source name : String}

theorem exists_refused {failure : Failure} (h : Program.ofSource source name = .error failure) :
    ∃ e, failure = .refused e ∧ ofSource source name = .error [e.toDiagnostic] := by
  cases failure with
  | refused e => exact ⟨e, rfl, by rw [ofSource, h]; rfl⟩
  | endless =>
    obtain ⟨ks, hks⟩ := Token.lex_closes source
    exact absurd h (Program.parse_ne_endless (by simp [hks.1]))

theorem exists_listing {c : Compilation} (h : ofSource source name = .ok c) :
    ∃ text, c.symbols.listing = .ok text := by
  rw [ofSource] at h
  split at h
  next p _ =>
    rw [ofProgram] at h
    split at h
    next q t hanalyze =>
      obtain rfl := Except.ok.inj h
      obtain ⟨_, hdeclare, -⟩ := Program.analyzeWith_eq_ok hanalyze
      exact (Program.inRange_of_declare hdeclare).exists_listing
    · cases h
  · cases h

end Compilation

namespace Command

variable {read : String → Except ReadError String} {path source : String} {mode : ColorMode}
  {args : List String} {isTerminal : Bool}

theorem colorFlag?_eq_none {arg : String} (h : ¬ "--color=".toList <+: arg.toList) :
    colorFlag? arg = none := by
  unfold colorFlag?
  split
  next rest harg =>
    rw [harg] at h
    exact absurd ⟨rest, rfl⟩ h
  · rfl

theorem takeColors_eq (h : ∀ arg ∈ args, colorFlag? arg = none) :
    takeColors mode args = .ok (mode, args) := by
  induction args with
  | nil => rfl
  | cons arg args ih =>
    obtain ⟨harg, hargs⟩ := List.forall_mem_cons.mp h
    rw [takeColors, harg, ih hargs]
    rfl

/-- Without color flags, colors are for terminals only. -/
theorem runArgs_eq (h : ∀ arg ∈ args, colorFlag? arg = none) :
    runArgs read isTerminal args = (ofArgs args).run read isTerminal := by
  rw [runArgs, takeColors_eq h]
  rfl

def commandWords : List String :=
  ["check", "parse", "lex", "symbols", "explain", "--explain", "help", "--help", "-h", "version",
    "--version", "-V"]

theorem isSourcePath_commandWords : ∀ word ∈ commandWords, isSourcePath word = false := by
  decide +kernel

theorem ofArgs_of_isSourcePath (h : isSourcePath path = true) : ofArgs [path] = check path := by
  have hword : ∀ word ∈ commandWords, path ≠ word := by
    rintro word hmem rfl
    rw [isSourcePath_commandWords path hmem] at h
    cases h
  simp only [commandWords, List.forall_mem_cons] at hword
  simp [ofArgs, hword, h]

theorem isSourcePath_of_extension {extension : String}
    (h : Path.extension? path = some extension) (hc : extension = "c" ∨ extension = "C") :
    isSourcePath path = true := by
  rw [isSourcePath, h, Option.any_some]
  simpa using hc

theorem onFile_of_ok (h : read path = .ok source) (use : String → String → Outcome) :
    onFile read path use = use path source := by
  rw [onFile, h]

variable (colors : Bool) {ds : List Diagnostic}

theorem checkText_of_error
    (h : Compilation.ofSource source (Compilation.nameOfPath path) = .error ds) :
    checkText colors path source = reject colors path ds := by
  rw [checkText, h]

theorem status_checkText : (checkText colors path source).status = 0 ↔
    ∃ c, Compilation.ofSource source (Compilation.nameOfPath path) = .ok c := by
  cases h : Compilation.ofSource source (Compilation.nameOfPath path) with
  | error ds => simp [checkText_of_error colors h, reject, Outcome.failure]
  | ok c => simp [checkText, h]

theorem symbolsText_of_error
    (h : Compilation.ofSource source (Compilation.nameOfPath path) = .error ds) :
    symbolsText colors path source = reject colors path ds := by
  rw [symbolsText, h]

theorem symbolsText_of_ok {c : Compilation}
    (h : Compilation.ofSource source (Compilation.nameOfPath path) = .ok c) :
    ∃ text, c.symbols.listing = .ok text ∧
      symbolsText colors path source = { out := "Symbols for '" ++ path ++ "':\n" ++ text } := by
  obtain ⟨text, htext⟩ := Compilation.exists_listing h
  refine ⟨text, htext, ?_⟩
  simp only [symbolsText, h, htext]
  rfl

theorem status_symbolsText :
    (symbolsText colors path source).status = 0 ↔ (checkText colors path source).status = 0 := by
  cases h : Compilation.ofSource source (Compilation.nameOfPath path) with
  | error ds => rw [symbolsText_of_error colors h, checkText_of_error colors h]
  | ok c =>
    obtain ⟨text, -, htext⟩ := symbolsText_of_ok colors h
    rw [htext, status_checkText]
    exact iff_of_true rfl ⟨c, h⟩

theorem parseText_of_error {failure : Failure}
    (h : Program.ofSource source (Compilation.nameOfPath path) = .error failure) :
    parseText colors path source = checkText colors path source := by
  obtain ⟨e, rfl, hcompile⟩ := Compilation.exists_refused h
  rw [parseText, h, checkText_of_error colors hcompile]
  rfl

theorem status_parseText : (parseText colors path source).status = 0 ↔
    ∃ p, Program.ofSource source (Compilation.nameOfPath path) = .ok p := by
  cases h : Program.ofSource source (Compilation.nameOfPath path) with
  | error failure => simp [parseText, h, reject, Outcome.failure]
  | ok p => simp [parseText, h]

/-- How the commands on a file go together, each run by its arguments. -/
structure Agree (run : List String → Outcome) (path source : String) : Prop where
  check : (run ["check", path]).status = 0 ↔
    ∃ c, Compilation.ofSource source (Compilation.nameOfPath path) = .ok c
  symbols : (run ["symbols", path]).status = 0 ↔
    ∃ c, Compilation.ofSource source (Compilation.nameOfPath path) = .ok c
  /-- The symbols that are shown are those of the compilation. -/
  listing : ∀ c, Compilation.ofSource source (Compilation.nameOfPath path) = .ok c →
    ∃ text, c.symbols.listing = .ok text ∧
      (run ["symbols", path]).out = "Symbols for '" ++ path ++ "':\n" ++ text
  /-- What does not compile is refused in one way. -/
  refused : ∀ ds, Compilation.ofSource source (Compilation.nameOfPath path) = .error ds →
    (run ["check", path]).status = 1 ∧ (run ["check", path]).out = "" ∧
      run ["symbols", path] = run ["check", path]
  parse : (run ["parse", path]).status = 0 ↔
    ∃ p, Program.ofSource source (Compilation.nameOfPath path) = .ok p
  /-- What does not parse is refused as it is by a check. -/
  unparsed : ∀ failure, Program.ofSource source (Compilation.nameOfPath path) = .error failure →
    run ["parse", path] = run ["check", path]
  lex : (run ["lex", path]).status = 0
  /-- A path by itself is checked if its extension is that of a source. -/
  bare : ∀ extension, Path.extension? path = some extension → extension = "c" ∨ extension = "C" →
    run [path] = run ["check", path]

/-- The commands agree on every file that can be read, whatever it holds. -/
theorem runArgs_agree (hread : read path = .ok source)
    (hflag : ¬ "--color=".toList <+: path.toList) : Agree (runArgs read false) path source := by
  have hpath := colorFlag?_eq_none hflag
  have hargs : ∀ word, colorFlag? word = none → ∀ arg ∈ [word, path], colorFlag? arg = none :=
    fun word hword => by simp [hword, hpath]
  have hcheck : runArgs read false ["check", path] = checkText false path source := by
    rw [runArgs_eq (hargs "check" rfl)]
    exact onFile_of_ok hread (checkText false)
  have hsymbols : runArgs read false ["symbols", path] = symbolsText false path source := by
    rw [runArgs_eq (hargs "symbols" rfl)]
    exact onFile_of_ok hread (symbolsText false)
  have hparse : runArgs read false ["parse", path] = parseText false path source := by
    rw [runArgs_eq (hargs "parse" rfl)]
    exact onFile_of_ok hread (parseText false)
  have hlex : runArgs read false ["lex", path] = lexText path source := by
    rw [runArgs_eq (hargs "lex" rfl)]
    exact onFile_of_ok hread lexText
  constructor
  case check => rw [hcheck, status_checkText]
  case symbols => rw [hsymbols, status_symbolsText, status_checkText]
  case listing =>
    intro c h
    obtain ⟨text, htext, hout⟩ := symbolsText_of_ok false h
    exact ⟨text, htext, by rw [hsymbols, hout]⟩
  case refused =>
    intro ds h
    rw [hcheck, hsymbols, checkText_of_error false h, symbolsText_of_error false h]
    exact ⟨rfl, rfl, rfl⟩
  case parse => rw [hparse, status_parseText]
  case unparsed =>
    intro failure h
    rw [hparse, hcheck, parseText_of_error false h]
  case lex =>
    rw [hlex]
    rfl
  case bare =>
    intro extension h hc
    have hbare : ∀ arg ∈ [path], colorFlag? arg = none := List.forall_mem_singleton.mpr hpath
    rw [runArgs_eq hbare, ofArgs_of_isSourcePath (isSourcePath_of_extension h hc), hcheck]
    exact onFile_of_ok hread (checkText false)

/-- A function that returns a variable which is not declared. -/
def undeclared : String := "int f() \x7b return a; \x7d"

/-- The function parses but does not compile, and the extension of its path is a capital letter. -/
theorem runArgs_agree_undeclared :
    let read : String → Except ReadError String := fun _ => .ok undeclared
    read "m.C" = .ok undeclared ∧ ¬ "--color=".toList <+: "m.C".toList ∧
      (runArgs read false ["m.C"]).status = 1 ∧
      runArgs read false ["symbols", "m.C"] = runArgs read false ["m.C"] ∧
      (runArgs read false ["parse", "m.C"]).status = 0 := by
  intro read
  have hflag : ¬ "--color=".toList <+: "m.C".toList := by decide
  have h : Agree (runArgs read false) "m.C" undeclared := runArgs_agree rfl hflag
  have hparses :
      (Program.ofSource undeclared (Compilation.nameOfPath "m.C")).toOption.isSome = true := by
    decide +kernel
  have hrefused :
      (Compilation.ofSource undeclared (Compilation.nameOfPath "m.C")).toOption = none := by
    rw [← Option.isNone_iff_eq_none]
    decide +kernel
  cases hp : Program.ofSource undeclared (Compilation.nameOfPath "m.C") with
  | error failure =>
    rw [hp] at hparses
    cases hparses
  | ok p =>
    cases hc : Compilation.ofSource undeclared (Compilation.nameOfPath "m.C") with
    | ok c =>
      rw [hc] at hrefused
      cases hrefused
    | error ds =>
      obtain ⟨hstatus, -, hsymbols⟩ := h.refused ds hc
      have hbare := h.bare "C" (by decide +kernel) (.inr rfl)
      rw [hbare]
      exact ⟨rfl, hflag, hstatus, hsymbols, h.parse.mpr ⟨p, hp⟩⟩

end Command

end MiniC
