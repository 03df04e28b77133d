import MiniC.Command
import MiniC.Proofs.Diagnostic.Report

/-! # Color flags

Flags that set the use of colors are taken out of the arguments before these choose a command, so it
does not matter where they stand, and only the last one counts. What a command writes with colors is
what it writes without them, but for escape sequences in the report of a file that is refused.
-/

namespace MiniC

/-- The outcomes are the same, but for decorations in the second error output. -/
structure Outcome.Decorates (o o' : Outcome) : Prop where
  status : o'.status = o.status
  out : o'.out = o.out
  err : Report.Decorates o.err.toList o'.err.toList

theorem Outcome.Decorates.refl (o : Outcome) : o.Decorates o := ⟨rfl, rfl, .refl _⟩

namespace Command

variable {read : String → Except ReadError String} {isTerminal : Bool} {args args' : List String}
  {arg text : String}

theorem decorates_reject (path : String) (ds : List Diagnostic) :
    (reject false path ds).Decorates (reject true path ds) :=
  ⟨rfl, rfl, Report.decorates_render _⟩

theorem decorates_parseText (path source : String) :
    (parseText false path source).Decorates (parseText true path source) := by
  unfold parseText
  split
  · exact decorates_reject path _
  · exact .refl _

theorem decorates_checkText (path source : String) :
    (checkText false path source).Decorates (checkText true path source) := by
  unfold checkText
  split
  · exact decorates_reject path _
  · exact .refl _

theorem decorates_symbolsText (path source : String) :
    (symbolsText false path source).Decorates (symbolsText true path source) := by
  unfold symbolsText
  split
  · exact decorates_reject path _
  · exact .refl _

theorem decorates_onFile {path : String} {use use' : String → String → Outcome}
    (h : ∀ source, (use path source).Decorates (use' path source)) :
    (onFile read path use).Decorates (onFile read path use') := by
  unfold onFile
  split
  · exact h _
  · exact .refl _

theorem decorates_run (command : Command) :
    (command.run read false).Decorates (command.run read true) := by
  cases command with
  | check path => exact decorates_onFile (decorates_checkText path)
  | parse path => exact decorates_onFile (decorates_parseText path)
  | symbols path => exact decorates_onFile (decorates_symbolsText path)
  | help | version | lex | explain | missingFile | missingCode | unknown => exact .refl _

/-- Status and output are the same, and one error output is the other one or a decoration of it. -/
structure SameButColors (o o' : Outcome) : Prop where
  status : o'.status = o.status
  out : o'.out = o.out
  err : Report.Decorates o.err.toList o'.err.toList ∨ Report.Decorates o'.err.toList o.err.toList

theorem sameButColors_refl (o : Outcome) : SameButColors o o := ⟨rfl, rfl, .inl (.refl _)⟩

theorem sameButColors_run (command : Command) (colors colors' : Bool) :
    SameButColors (command.run read colors) (command.run read colors') := by
  have h : (command.run read false).Decorates (command.run read true) := decorates_run command
  cases colors with
  | false =>
    cases colors' with
    | false => exact sameButColors_refl _
    | true => exact ⟨h.status, h.out, .inl h.err⟩
  | true =>
    cases colors' with
    | false => exact ⟨h.status.symm, h.out.symm, .inr h.err⟩
    | true => exact sameButColors_refl _

def colorFlags : List String := ["--color=auto", "--color=always", "--color=never"]

/-- The second list has more of these flags, put in anywhere. -/
inductive Flagged : List String → List String → Prop
  | nil : Flagged [] []
  | keep (arg : String) {args args' : List String} :
      Flagged args args' → Flagged (arg :: args) (arg :: args')
  | flag {arg : String} {args args' : List String} :
      arg ∈ colorFlags → Flagged args args' → Flagged args (arg :: args')

def lastFlag? (args : List String) : Option String := (args.filter (· ∈ colorFlags)).getLast?

def unflagged (args : List String) : List String := args.filter (· ∉ colorFlags)

theorem Flagged.unflagged_eq (h : Flagged args args') : unflagged args' = unflagged args := by
  induction h with
  | nil => rfl
  | keep arg _ ih =>
    unfold unflagged at ih ⊢
    rw [List.filter_cons, List.filter_cons, ih]
  | flag harg _ ih =>
    unfold unflagged at ih ⊢
    rw [List.filter_cons_of_neg (by simpa using harg), ih]

def flagMode? (arg : String) : Option ColorMode := (colorFlag? arg).bind ColorMode.ofText?

theorem eq_of_colorFlag? (h : colorFlag? arg = some text) : arg = "--color=" ++ text := by
  unfold colorFlag? at h
  split at h
  next mode harg =>
    obtain rfl := Option.some.inj h
    rw [← String.toList_inj, harg]
    simp
  · cases h

theorem exists_flagMode?_iff : (∃ mode, flagMode? arg = some mode) ↔ arg ∈ colorFlags := by
  constructor
  · rintro ⟨mode, h⟩
    obtain ⟨text, harg, htext⟩ := Option.bind_eq_some_iff.mp h
    rw [eq_of_colorFlag? harg]
    unfold ColorMode.ofText? at htext
    split at htext
    next h => simp [h, colorFlags]
    split at htext
    next h => simp [h, colorFlags]
    split at htext
    next h => simp [h, colorFlags]
    · cases htext
  · intro h
    simp only [colorFlags, List.mem_cons, List.not_mem_nil, or_false] at h
    rcases h with rfl | rfl | rfl
    · exact ⟨.auto, rfl⟩
    · exact ⟨.always, rfl⟩
    · exact ⟨.never, rfl⟩

theorem flagMode?_eq_none (h : arg ∉ colorFlags) : flagMode? arg = none := by
  rw [Option.eq_none_iff_forall_ne_some]
  exact fun mode hmode => h (exists_flagMode?_iff.mp ⟨mode, hmode⟩)

/-- The mode that counts, for arguments behind those that set one. -/
def chosenMode (mode : ColorMode) (args : List String) : ColorMode :=
  ((lastFlag? args).bind flagMode?).getD mode

theorem chosenMode_cons_of_not_mem (h : arg ∉ colorFlags) (mode : ColorMode)
    (args : List String) : chosenMode mode (arg :: args) = chosenMode mode args := by
  rw [chosenMode, lastFlag?, List.filter_cons_of_neg (by simpa using h), ← lastFlag?, ← chosenMode]

theorem chosenMode_cons {m : ColorMode} (h : flagMode? arg = some m) (mode : ColorMode)
    (args : List String) : chosenMode mode (arg :: args) = chosenMode m args := by
  have harg : arg ∈ colorFlags := exists_flagMode?_iff.mp ⟨m, h⟩
  rw [chosenMode, lastFlag?, List.filter_cons_of_pos (by simpa using harg), List.getLast?_cons,
    ← lastFlag?, chosenMode]
  cases hlast : lastFlag? args with
  | none => simp [h]
  | some flag =>
    have hflag : flag ∈ colorFlags := by
      simpa using (List.mem_filter.mp (List.mem_of_getLast? hlast)).2
    obtain ⟨m', hm'⟩ := exists_flagMode?_iff.mpr hflag
    simp [hm']

/-- Taking the flags out of the arguments leaves what it leaves without those that name a mode, of
which the last one is chosen. -/
theorem takeColors_unflagged (mode mode' : ColorMode) (args : List String) :
    takeColors mode args
      = (takeColors mode' (unflagged args)).map fun r => (chosenMode mode args, r.2) := by
  induction args generalizing mode with
  | nil => rfl
  | cons arg args ih =>
    by_cases harg : arg ∈ colorFlags
    · obtain ⟨m, hm⟩ := exists_flagMode?_iff.mpr harg
      obtain ⟨text, htext, hmode⟩ := Option.bind_eq_some_iff.mp hm
      rw [unflagged, List.filter_cons_of_neg (by simpa using harg), ← unflagged,
        chosenMode_cons hm, ← ih, takeColors, htext]
      simp only [hmode]
    · have hnone := flagMode?_eq_none harg
      rw [unflagged, List.filter_cons_of_pos (by simpa using harg), ← unflagged,
        chosenMode_cons_of_not_mem harg, takeColors, takeColors]
      cases hflag : colorFlag? arg with
      | none =>
        simp only [ih mode]
        cases takeColors mode' (unflagged args) <;> rfl
      | some text =>
        rw [flagMode?, hflag, Option.bind_some] at hnone
        simp only [hnone]
        rfl

theorem runArgs_unflagged (args : List String) :
    runArgs read isTerminal args = match takeColors .auto (unflagged args) with
      | .error message => .failure ("error: " ++ message ++ "\n")
      | .ok (_, rest) => (ofArgs rest).run read ((chosenMode .auto args).useColors isTerminal) := by
  rw [runArgs, takeColors_unflagged .auto .auto args]
  cases takeColors .auto (unflagged args) <;> rfl

/-- Color flags that are put in among the arguments, anywhere and any number of them, change at most
the escape sequences in the error output, and which of them there are is up to the last one. -/
theorem runArgs_flagged (h : Flagged args args') :
    SameButColors (runArgs read isTerminal args) (runArgs read isTerminal args') ∧
      ∀ args'', Flagged args args'' → lastFlag? args'' = lastFlag? args' →
        runArgs read isTerminal args'' = runArgs read isTerminal args' := by
  constructor
  · rw [runArgs_unflagged args, runArgs_unflagged args', h.unflagged_eq]
    split
    · exact sameButColors_refl _
    · exact sameButColors_run _ _ _
  · intro args'' h'' hlast
    rw [runArgs_unflagged args'', runArgs_unflagged args', h''.unflagged_eq, h.unflagged_eq,
      chosenMode, hlast, ← chosenMode]

/-- Flags before, between and behind the arguments of a command that reports an error. The original
list has a flag of its own, and in the longer one it is not the last. -/
theorem runArgs_flagged_undeclared :
    let read : String → Except ReadError String := fun _ => .ok "int f() \x7b return a; \x7d"
    let args := ["check", "--color=always", "m.c"]
    let args' := ["--color=never", "check", "--color=always", "m.c", "--color=auto"]
    let args'' := ["check", "--color=always", "--color=never", "--color=always", "m.c",
      "--color=auto"]
    Flagged args args' ∧ Flagged args args'' ∧
      (runArgs read false args').err ≠ (runArgs read false args).err ∧
      SameButColors (runArgs read false args) (runArgs read false args') ∧
      lastFlag? args'' = lastFlag? args' ∧
      runArgs read false args'' = runArgs read false args' := by
  intro read args args' args''
  have h' : Flagged args args' := .flag (by decide) <| .keep _ <| .keep _ <| .keep _ <|
    .flag (by decide) .nil
  have h'' : Flagged args args'' := .keep _ <| .keep _ <| .flag (by decide) <|
    .flag (by decide) <| .keep _ <| .flag (by decide) .nil
  have hlast : lastFlag? args'' = lastFlag? args' := by decide
  have hsame : SameButColors (runArgs read false args) (runArgs read false args') :=
    (runArgs_flagged h').1
  have hcount : runArgs read false args'' = runArgs read false args' :=
    (runArgs_flagged h').2 args'' h'' hlast
  exact ⟨h', h'', by decide +kernel, hsame, hlast, hcount⟩

end Command

end MiniC
