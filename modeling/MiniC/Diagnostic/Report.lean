import MiniC.Diagnostic.Basic

/-! # Reports for a terminal

A report is a list of segments, and some segments have a style. `Report.render` writes the
segments one after another, each styled one between the escape sequence of its style and the
sequence that resets it, or all of them plain. So a plain and a colored report hold the same text.
-/

namespace MiniC

inductive ColorMode
  | auto
  | always
  | never
  deriving DecidableEq, Repr

namespace ColorMode

/-- Whether to use colors; only `auto` asks if the output is a terminal. -/
def useColors (mode : ColorMode) (isTerminal : Bool) : Bool :=
  match mode with
  | auto => isTerminal
  | always => true
  | never => false

def ofText? (text : String) : Option ColorMode :=
  if text = "auto" then some auto
  else if text = "always" then some always
  else if text = "never" then some never
  else none

def invalid (text : String) : String :=
  "invalid color mode `" ++ text ++ "` (expected auto, always or never)"

end ColorMode

inductive Style
  | error
  | warning
  | note
  | help
  | bold
  | secondary
  deriving DecidableEq, Repr

namespace Style

def code : Style → String
  | error => "\x1b[1;31m"
  | warning => "\x1b[1;33m"
  | note => "\x1b[1;36m"
  | help => "\x1b[1;32m"
  | bold => "\x1b[1m"
  | secondary => "\x1b[1;34m"

def reset : String := "\x1b[0m"

def ofSeverity : Severity → Style
  | .error => error
  | .warning => warning
  | .note => note

end Style

/-- A stretch of output, styled or plain. -/
structure Segment where
  style : Option Style
  text : String
  deriving DecidableEq, Repr

namespace Segment

def plain (text : String) : Segment := ⟨none, text⟩

def styled (style : Style) (text : String) : Segment := ⟨some style, text⟩

def render (colors : Bool) (s : Segment) : String :=
  match s.style with
  | some style => if colors then style.code ++ s.text ++ Style.reset else s.text
  | none => s.text

end Segment

namespace Report

def render (colors : Bool) (segments : List Segment) : String :=
  String.join (segments.map (Segment.render colors))

/-- `path:line:col`, or `line:col` without a path. -/
def location (path : Option String) (span : Span) : String :=
  match path with
  | some path => path ++ ":" ++ span.text
  | none => span.text

def label (path : Option String) (l : Label) : List Segment :=
  [.plain ("  " ++ l.marker ++ " " ++ location path l.span ++ ": "),
   .styled (if l.isPrimary then .error else .secondary) l.message,
   .plain "\n"]

def note (text : String) : List Segment :=
  [.plain "  = ", .styled .bold "note", .plain (": " ++ text ++ "\n")]

def suggestion (text : String) : List Segment :=
  [.plain "  = ", .styled .help "help", .plain (": " ++ text ++ "\n")]

/-- A diagnostic and the blank line that closes it. -/
def diagnostic (path : Option String) (d : Diagnostic) : List Segment :=
  [.styled (.ofSeverity d.severity) d.severity.text,
   .styled .bold ("[" ++ d.code.text ++ "]"),
   .plain (": " ++ d.message ++ "\n")]
    ++ d.labels.flatMap (label path)
    ++ d.notes.flatMap note
    ++ d.suggestions.flatMap suggestion
    ++ [.plain "\n"]

def warningCount (n : Nat) : String :=
  toString n ++ " warning" ++ (if n = 1 then "" else "s") ++ " emitted"

def errorCount (n : Nat) : String :=
  if n = 1 then "previous error" else toString n ++ " previous errors"

/-- The closing line, if there was an error or a warning. -/
def summary (errors warnings : Nat) : List Segment :=
  if errors = 0 then
    if warnings = 0 then []
    else [.styled .warning "warning", .plain (": " ++ warningCount warnings ++ "\n")]
  else
    [.styled .error "error",
     .plain (": aborting due to " ++ errorCount errors
      ++ (if warnings = 0 then "" else "; " ++ warningCount warnings) ++ "\n")]

def diagnostics (path : Option String) (ds : List Diagnostic) : List Segment :=
  ds.flatMap (diagnostic path)

/-- All diagnostics and the closing line that counts them. -/
def complete (path : Option String) (ds : List Diagnostic) : List Segment :=
  let errors := (ds.filter (·.isError)).length
  diagnostics path ds ++ summary errors (ds.length - errors)

end Report

end MiniC
