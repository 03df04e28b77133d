import MiniC.Diagnostic.Report

/-! # Reports and texts

A diagnostic is written in two ways, as a text and as a report. A report without colors is the text
line by line: only the blank behind the severity is missing, a path stands before the place of each
label, and a blank line closes it. A report with colors is the same report with escape sequences
around some of its segments, so that deleting them leaves the one without colors.
-/

namespace MiniC

/-- The text of a diagnostic with a mark before the place of each label. -/
def Diagnostic.textWith (mark : String) (d : Diagnostic) : String :=
  d.severity.text ++ " [" ++ d.code.text ++ "]: " ++ d.message
    ++ String.join (d.labels.map fun l =>
      "\n  " ++ l.marker ++ " " ++ mark ++ l.span.text ++ ": " ++ l.message)
    ++ String.join (d.notes.map ("\n  = note: " ++ ·))
    ++ String.join (d.suggestions.map ("\n  = help: " ++ ·))

theorem Diagnostic.textWith_empty (d : Diagnostic) : d.textWith "" = d.text := by
  simp [textWith, text]

def Diagnostic.details (mark : String) (d : Diagnostic) : List String :=
  d.labels.map (fun l => "  " ++ l.marker ++ " " ++ mark ++ l.span.text ++ ": " ++ l.message)
    ++ d.notes.map ("  = note: " ++ ·)
    ++ d.suggestions.map ("  = help: " ++ ·)

theorem join_lines (lines : List String) :
    String.join (lines.map ("\n" ++ ·)) ++ "\n" = "\n" ++ String.join (lines.map (· ++ "\n")) := by
  induction lines with
  | nil => rfl
  | cons line lines ih =>
    rw [List.map_cons, String.join_cons, String.append_assoc, ih, List.map_cons, String.join_cons]
    simp only [String.append_assoc]

theorem Diagnostic.textWith_eq_join (mark : String) (d : Diagnostic) :
    d.textWith mark = d.severity.text ++ " [" ++ d.code.text ++ "]: " ++ d.message
      ++ String.join ((d.details mark).map ("\n" ++ ·)) := by
  rw [← String.toList_inj]
  simp [textWith, details, Function.comp_def, List.flatMap_map]

def Diagnostic.texts (d : Diagnostic) : List String :=
  d.message :: (d.labels.map (·.message) ++ d.notes ++ d.suggestions)

namespace Report

variable {segments : List Segment} {path : Option String} {d : Diagnostic}

def mark (path : Option String) : String := path.elim "" (· ++ ":")

theorem location_eq (path : Option String) (span : Span) :
    location path span = mark path ++ span.text := by
  cases path with
  | none => exact (String.empty_append).symm
  | some path => rfl

theorem render_append (colors : Bool) (segments segments' : List Segment) :
    render colors (segments ++ segments') = render colors segments ++ render colors segments' := by
  rw [render, List.map_append, String.join_append, ← render, ← render]

theorem render_flatMap {α : Type} (colors : Bool) (f : α → List Segment) (as : List α) :
    render colors (as.flatMap f) = String.join (as.map fun a => render colors (f a)) := by
  induction as with
  | nil => rfl
  | cons a as ih => rw [List.flatMap_cons, render_append, ih, List.map_cons, String.join_cons]

theorem render_label (path : Option String) (l : Label) :
    render false (label path l)
      = "  " ++ l.marker ++ " " ++ mark path ++ l.span.text ++ ": " ++ l.message ++ "\n" := by
  simp [render, label, Segment.render, Segment.plain, Segment.styled, location_eq,
    String.append_assoc]

theorem render_note (text : String) : render false (note text) = "  = note: " ++ text ++ "\n" := by
  rw [← String.toList_inj]
  simp [render, note, Segment.render, Segment.plain, Segment.styled]

theorem render_suggestion (text : String) :
    render false (suggestion text) = "  = help: " ++ text ++ "\n" := by
  rw [← String.toList_inj]
  simp [render, suggestion, Segment.render, Segment.plain, Segment.styled]

theorem render_header (style style' : Style) (severity code message : String) :
    render false [.styled style severity, .styled style' ("[" ++ code ++ "]"),
        .plain (": " ++ message ++ "\n")]
      = severity ++ "[" ++ code ++ "]: " ++ message ++ "\n" := by
  rw [← String.toList_inj]
  simp [render, Segment.render, Segment.plain, Segment.styled]

theorem render_diagnostic (path : Option String) (d : Diagnostic) :
    render false (diagnostic path d)
      = d.severity.text ++ "[" ++ d.code.text ++ "]: " ++ d.message ++ "\n"
        ++ String.join ((d.details (mark path)).map (· ++ "\n")) ++ "\n" := by
  have hend : render false [.plain "\n"] = "\n" := rfl
  rw [diagnostic, render_append, render_append, render_append, render_append, render_header, hend,
    render_flatMap, render_flatMap, render_flatMap]
  simp [render_label, render_note, render_suggestion, Diagnostic.details, Function.comp_def,
    String.append_assoc]

/-- Without colors, a report is the text of the diagnostic without the blank between the severity
and the code, and two line feeds. With a path, it differs from that only by the path and a colon
before the place of each label. -/
theorem report_eq_text (d : Diagnostic) :
    d.textWith "" = d.text ∧ ∀ path : Option String, ∃ rest,
      d.textWith (path.elim "" (· ++ ":"))
        = d.severity.text ++ " " ++ "[" ++ d.code.text ++ "]" ++ rest ∧
      render false (diagnostic path d)
        = d.severity.text ++ "[" ++ d.code.text ++ "]" ++ rest ++ "\n\n" := by
  refine ⟨d.textWith_empty, fun path => ?_⟩
  refine ⟨": " ++ d.message ++ String.join ((d.details (mark path)).map ("\n" ++ ·)), ?_, ?_⟩
  · rw [← mark, d.textWith_eq_join, ← String.toList_inj]
    simp
  · calc render false (diagnostic path d)
      _ = d.severity.text ++ "[" ++ d.code.text ++ "]: " ++ d.message
          ++ ("\n" ++ String.join ((d.details (mark path)).map (· ++ "\n"))) ++ "\n" := by
        rw [render_diagnostic, ← String.toList_inj]
        simp
      _ = d.severity.text ++ "[" ++ d.code.text ++ "]: " ++ d.message
          ++ (String.join ((d.details (mark path)).map ("\n" ++ ·)) ++ "\n") ++ "\n" := by
        rw [join_lines]
      _ = _ := by
        rw [← String.toList_inj]
        simp

def escape : Char := '\x1b'

/-- The second text is the first one with escape sequences, each from `ESC [` over digits and
semicolons up to `m`, put in anywhere. -/
inductive Decorates : List Char → List Char → Prop
  | nil : Decorates [] []
  | keep (c : Char) {s t : List Char} : Decorates s t → Decorates (c :: s) (c :: t)
  | sequence (code : List Char) {s t : List Char} :
      code.all (fun c => c.isDigit || c == ';') = true → Decorates s t →
        Decorates s (escape :: '[' :: (code ++ 'm' :: t))

variable {s t s' t' : List Char}

theorem Decorates.refl (s : List Char) : Decorates s s := by
  induction s with
  | nil => exact .nil
  | cons c s ih => exact .keep c ih

theorem Decorates.append (h : Decorates s t) (h' : Decorates s' t') :
    Decorates (s ++ s') (t ++ t') := by
  induction h with
  | nil => exact h'
  | keep c _ ih => exact .keep c ih
  | sequence code hcode _ ih =>
    simp only [List.cons_append, List.append_assoc]
    exact .sequence code hcode ih

theorem decorates_code (style : Style) (h : Decorates s t) :
    Decorates s (style.code.toList ++ t) := by
  cases style with
  | error => exact .sequence "1;31".toList rfl h
  | warning => exact .sequence "1;33".toList rfl h
  | note => exact .sequence "1;36".toList rfl h
  | help => exact .sequence "1;32".toList rfl h
  | bold => exact .sequence "1".toList rfl h
  | secondary => exact .sequence "1;34".toList rfl h

theorem decorates_reset : Decorates [] Style.reset.toList :=
  .sequence "0".toList rfl .nil

theorem decorates_segment (segment : Segment) :
    Decorates (segment.render false).toList (segment.render true).toList := by
  obtain ⟨style | style, text⟩ := segment
  · exact .refl _
  · simp only [Segment.render, if_true, String.toList_append, List.append_assoc]
    refine decorates_code style ?_
    have h := (Decorates.refl text.toList).append decorates_reset
    rwa [List.append_nil] at h

/-- A report with colors is the report without them, decorated. -/
theorem decorates_render (segments : List Segment) :
    Decorates (render false segments).toList (render true segments).toList := by
  induction segments with
  | nil => exact .nil
  | cons segment segments ih =>
    simp only [render, List.map_cons, String.join_cons, String.toList_append] at ih ⊢
    exact (decorates_segment segment).append ih

/-- Delete the escape sequences, each from `ESC [` up to the next `m`. -/
def stripFrom (inside : Bool) : List Char → List Char
  | [] => []
  | c :: cs =>
    if inside then stripFrom (c != 'm') cs
    else if c = escape ∧ cs.head? = some '[' then stripFrom true cs
    else c :: stripFrom false cs

def strip (text : String) : String := String.ofList (stripFrom false text.toList)

def Unescaped (text : String) : Prop := escape ∉ text.toList

instance (text : String) : Decidable (Unescaped text) :=
  inferInstanceAs (Decidable (escape ∉ text.toList))

@[simp] theorem unescaped_append {text text' : String} :
    Unescaped (text ++ text') ↔ Unescaped text ∧ Unescaped text' := by
  simp [Unescaped]

@[simp] theorem unescaped_repr (n : Nat) : Unescaped n.repr := by
  rw [Unescaped, Nat.toList_repr]
  intro h
  have hdigit : escape.isDigit = true := Nat.isDigit_of_mem_toDigits (by decide) (by decide) h
  exact absurd hdigit (by decide)

@[simp] theorem unescaped_span (span : Span) : Unescaped span.text := by
  have hcolon : Unescaped ":" := by decide
  simp [Span.text, Position.text, hcolon]

theorem stripFrom_sequence {code : List Char}
    (h : code.all (fun c => c.isDigit || c == ';') = true) (rest : List Char) :
    stripFrom true (code ++ 'm' :: rest) = stripFrom false rest := by
  induction code with
  | nil => rfl
  | cons c code ih =>
    obtain ⟨hc, hcode⟩ := Bool.and_eq_true_iff.mp h
    have hne : (c != 'm') = true := by
      rw [bne_iff_ne]
      rintro rfl
      exact absurd hc (by decide)
    rw [List.cons_append, stripFrom, if_pos rfl, hne, ih hcode]

/-- Deleting the escape sequences of a decorated text without escape characters gives the text. -/
theorem Decorates.strip (h : Decorates s t) (hs : escape ∉ s) : stripFrom false t = s := by
  induction h with
  | nil => rfl
  | @keep c s t _ ih =>
    obtain ⟨hc, hs⟩ := not_or.mp (mt List.mem_cons.mpr hs)
    have hne : ¬ (c = escape ∧ t.head? = some '[') := fun he => hc he.1.symm
    rw [stripFrom, if_neg Bool.false_ne_true, if_neg hne, ih hs]
  | sequence code hcode _ ih => exact (stripFrom_sequence hcode _).trans (ih hs)

theorem unescaped_render (h : ∀ s ∈ segments, Unescaped s.text) :
    Unescaped (render false segments) := by
  induction segments with
  | nil => decide
  | cons s segments ih =>
    obtain ⟨hs, hsegments⟩ := List.forall_mem_cons.mp h
    have hplain : s.render false = s.text := by
      obtain ⟨style | style, text⟩ := s <;> rfl
    rw [render, List.map_cons, String.join_cons, hplain]
    exact unescaped_append.mpr ⟨hs, ih hsegments⟩

theorem strip_render (h : ∀ s ∈ segments, Unescaped s.text) :
    stripFrom false (render true segments).toList = (render false segments).toList :=
  (decorates_render segments).strip (unescaped_render h)

theorem unescaped_mark (h : ∀ p ∈ path, Unescaped p) : Unescaped (mark path) := by
  cases path with
  | none => decide
  | some path => exact unescaped_append.mpr ⟨h path rfl, by decide⟩

theorem unescaped_label {l : Label} (hpath : ∀ p ∈ path, Unescaped p)
    (hl : Unescaped l.message) : ∀ s ∈ label path l, Unescaped s.text := by
  have hmarker : Unescaped l.marker := by
    rw [Label.marker]
    split <;> decide
  have hplace : Unescaped (location path l.span) := by
    rw [location_eq]
    exact unescaped_append.mpr ⟨unescaped_mark hpath, unescaped_span l.span⟩
  simp +decide [label, Segment.plain, Segment.styled, hmarker, hplace, hl]

theorem unescaped_diagnostic (hpath : ∀ p ∈ path, Unescaped p) (hd : ∀ t ∈ d.texts, Unescaped t) :
    ∀ s ∈ diagnostic path d, Unescaped s.text := by
  simp only [Diagnostic.texts, List.forall_mem_cons, List.forall_mem_append, List.forall_mem_map]
    at hd
  obtain ⟨hmessage, ⟨hlabels, hnotes⟩, hsuggestions⟩ := hd
  have hseverity : Unescaped d.severity.text := by
    cases d.severity <;> decide
  have hcode : Unescaped d.code.text := by
    cases d.code <;> decide
  have hheader : ∀ s ∈ [Segment.styled (.ofSeverity d.severity) d.severity.text,
      .styled .bold ("[" ++ d.code.text ++ "]"), .plain (": " ++ d.message ++ "\n")],
      Unescaped s.text := by
    simp +decide [Segment.plain, Segment.styled, hseverity, hcode, hmessage]
  have hnote : ∀ t ∈ d.notes, ∀ s ∈ note t, Unescaped s.text := fun t ht => by
    simp +decide [note, Segment.plain, Segment.styled, hnotes t ht]
  have hsuggestion : ∀ t ∈ d.suggestions, ∀ s ∈ suggestion t, Unescaped s.text := fun t ht => by
    simp +decide [suggestion, Segment.plain, Segment.styled, hsuggestions t ht]
  have hlabel : ∀ l ∈ d.labels, ∀ s ∈ label path l, Unescaped s.text := fun l hl =>
    unescaped_label hpath (hlabels l hl)
  simp only [diagnostic, List.forall_mem_append, List.forall_mem_flatMap]
  exact ⟨⟨⟨⟨hheader, hlabel⟩, hnote⟩, hsuggestion⟩, by decide⟩

theorem unescaped_warningCount (n : Nat) : Unescaped (warningCount n) := by
  have hplural : Unescaped (if n = 1 then "" else "s") := by split <;> decide
  simp +decide [warningCount, hplural]

theorem unescaped_errorCount (n : Nat) : Unescaped (errorCount n) := by
  rw [errorCount]
  split
  · decide
  · simp +decide

theorem unescaped_summary (errors warnings : Nat) :
    ∀ s ∈ summary errors warnings, Unescaped s.text := by
  have hwarnings : Unescaped (if warnings = 0 then "" else "; " ++ warningCount warnings) := by
    split
    · decide
    · simp +decide [unescaped_warningCount]
  rw [summary]
  split
  · split
    · simp
    · simp +decide [Segment.plain, Segment.styled, unescaped_warningCount]
  · simp +decide [Segment.plain, Segment.styled, unescaped_errorCount, hwarnings]

/-- As long as no text of the diagnostics and no path holds an escape character, deleting the escape
sequences of a report with colors gives the report without colors, and that one holds no escape
character. -/
theorem strip_colored (path : Option String) (ds : List Diagnostic) (counts : Option (Nat × Nat))
    (hpath : ∀ p ∈ path, Unescaped p) (hds : ∀ d ∈ ds, ∀ t ∈ d.texts, Unescaped t) :
    let report := diagnostics path ds ++ counts.elim [] fun c => summary c.1 c.2
    strip (render true report) = render false report ∧ Unescaped (render false report) := by
  intro report
  have hreport : ∀ s ∈ report, Unescaped s.text := by
    refine List.forall_mem_append.mpr ⟨?_, ?_⟩
    · exact List.forall_mem_flatMap.mpr fun d hd => unescaped_diagnostic hpath (hds d hd)
    · cases counts with
      | none => simp
      | some c => exact unescaped_summary c.1 c.2
  refine ⟨?_, unescaped_render hreport⟩
  rw [strip, strip_render hreport, String.ofList_toList]

/-- A warning with labels of both kinds, a note and a suggestion, and what looks like the rest of
an escape sequence. -/
def motley : Diagnostic where
  code := .unknownType
  severity := .warning
  message := "[1mno\nescape"
  labels := [⟨true, ⟨⟨2, 5⟩, ⟨2, 6⟩⟩, "here"⟩, ⟨false, .dummy, "[0m"⟩]
  notes := ["m", ""]
  suggestions := ["[m"]

theorem strip_colored_motley :
    (∀ p ∈ some "a[m.c", Unescaped p) ∧ (∀ d ∈ [motley, motley], ∀ t ∈ d.texts, Unescaped t) ∧
      let report := diagnostics (some "a[m.c") [motley, motley] ++ summary 1 2
      render true report ≠ render false report ∧
        strip (render true report) = render false report ∧ Unescaped (render false report) := by
  have hpath : ∀ p ∈ some "a[m.c", Unescaped p := by
    rintro p ⟨⟩
    decide
  have htexts : ∀ t ∈ motley.texts, Unescaped t := by decide
  have hds : ∀ d ∈ [motley, motley], ∀ t ∈ d.texts, Unescaped t := by simpa using htexts
  exact ⟨hpath, hds, by decide,
    strip_colored (some "a[m.c") [motley, motley] (some (1, 2)) hpath hds⟩

end Report

end MiniC
