import MiniC.Compilation
import MiniC.Diagnostic.Explanation
import MiniC.Diagnostic.Report
import MiniC.Directory
import MiniC.Scope.Listing

/-! # The command line

The arguments choose a command and, for most commands, a file. A flag that sets the use of colors
may stand anywhere, and the last one counts. A command gives an exit status and what it writes to
the output and to the error output; reading the file is all that it needs from outside.
-/

namespace MiniC

structure Outcome where
  status : Nat := 0
  out : String := ""
  err : String := ""
  deriving DecidableEq, Repr

def Outcome.failure (err : String) : Outcome := { status := 1, err }

inductive Command
  | help
  | version
  | check (path : String)
  | parse (path : String)
  | lex (path : String)
  | symbols (path : String)
  | explain (code : String)
  /-- A command whose file is missing. -/
  | missingFile (word : String)
  | missingCode
  | unknown (word : String)
  deriving DecidableEq, Repr

namespace Command

def usage : String := String.join ([
  "DCC Compiler",
  "",
  "Usage: dcc <command> [options]",
  "",
  "Commands:",
  "  check <file.c>       Parse and analyze a file",
  "  parse <file.c>       Parse and display items",
  "  lex <file.c>         Tokenize and display tokens",
  "  symbols <file.c>     Analyze and display the symbol table",
  "  explain <code>       Explain an error code (e.g., E2002)",
  "  help                 Show this help message",
  "  version              Show version information",
  "",
  "Options:",
  "  --color=<when>       auto (default), always, never",
  "",
  "Environment:",
  "  RUST_LOG             Enable tracing, e.g. RUST_LOG=dcc_sema=debug",
  "",
  "Examples:",
  "  dcc check main.c",
  "  dcc main.c                      # same as `dcc check main.c`",
  "  dcc symbols main.c --color=never",
  "  dcc explain E2001               # Explain duplicate definition"].map (· ++ "\n"))

/-- The text behind `--color=`, if that is how an argument begins. -/
def colorFlag? (arg : String) : Option String :=
  match arg.toList with
  | '-' :: '-' :: 'c' :: 'o' :: 'l' :: 'o' :: 'r' :: '=' :: mode => some (String.ofList mode)
  | _ => none

/-- Take the color flags out of the arguments. The last one counts, and the first one that names
no mode is an error. -/
def takeColors (mode : ColorMode) : List String → Except String (ColorMode × List String)
  | [] => .ok (mode, [])
  | arg :: args =>
    match colorFlag? arg with
    | some text =>
      match ColorMode.ofText? text with
      | some mode => takeColors mode args
      | none => .error (ColorMode.invalid text)
    | none => (takeColors mode args).map fun r => (r.1, arg :: r.2)

/-- A path by itself is checked if it is the path of a source. -/
def isSourcePath (path : String) : Bool :=
  (Path.extension? path).any fun e => e = "c" || e = "C"

/-- The command that needs a file, given what may follow it. -/
def withFile (word : String) (command : String → Command) : List String → Command
  | path :: _ => command path
  | [] => missingFile word

def ofArgs : List String → Command
  | [] => help
  | word :: args =>
    if word = "check" then withFile word check args
    else if word = "parse" then withFile word parse args
    else if word = "lex" then withFile word lex args
    else if word = "symbols" then withFile word symbols args
    else if word = "explain" || word = "--explain" then
      match args with
      | code :: _ => explain code
      | [] => missingCode
    else if word = "help" || word = "--help" || word = "-h" then help
    else if word = "version" || word = "--version" || word = "-V" then version
    else if isSourcePath word then check word
    else unknown word

def path? : Command → Option String
  | check path | parse path | lex path | symbols path => some path
  | _ => none

def explainCode (text : String) : Outcome :=
  match Code.ofText? text with
  | some code => { out := code.explanation ++ "\n" }
  | none =>
    .failure ("Unknown error code: " ++ text ++ "\n\n"
      ++ "Codes have the format EXXXX where X is a digit.\n"
      ++ "Examples: E0001, E1001, E2002\n")

def reject (colors : Bool) (path : String) (ds : List Diagnostic) : Outcome :=
  .failure (Report.render colors (Report.complete (some path) ds))

/-- The tokens of a text, line by line, and the first lexical error. -/
def lexText (path source : String) : Outcome :=
  let tokens := Token.lex source
  { out := "Tokens for '" ++ path ++ "' (" ++ toString tokens.length ++ " tokens):\n"
      ++ String.join (tokens.map fun t => "  " ++ t.listing ++ "\n")
      ++ match Token.firstError tokens with
        | some (cause, span) => "\nFirst error: " ++ span.text ++ ": " ++ cause.message ++ "\n"
        | none => "" }

/-- The items of a unit, and below each definition its statements. -/
def itemLines (u : SourceUnit) : List String :=
  u.declarations.map (fun d => "  " ++ d.describe ++ "\n")
    ++ u.definitions.flatMap fun d =>
      ("  " ++ d.describe ++ "\n") :: d.body.statements.map fun s => "    " ++ s.describe ++ "\n"

def parseText (colors : Bool) (path source : String) : Outcome :=
  match Program.ofSource source (Compilation.nameOfPath path) with
  | .error f => reject colors path f.toDiagnostics
  | .ok p =>
    { out := "Parse result for '" ++ path ++ "':\n"
        ++ "  Declarations: " ++ toString p.unit.declarations.length ++ "\n"
        ++ "  Definitions: " ++ toString p.unit.definitions.length ++ "\n"
        ++ if p.unit.isEmpty then "" else "\nItems:\n" ++ String.join (itemLines p.unit) }

def checkText (colors : Bool) (path source : String) : Outcome :=
  match Compilation.ofSource source (Compilation.nameOfPath path) with
  | .error ds => reject colors path ds
  | .ok c =>
    { out := "OK: " ++ path ++ " (" ++ toString c.symbols.functions.size ++ " functions)\n" }

def symbolsText (colors : Bool) (path source : String) : Outcome :=
  match Compilation.ofSource source (Compilation.nameOfPath path) with
  | .error ds => reject colors path ds
  | .ok c =>
    { out := "Symbols for '" ++ path ++ "':\n" ++ c.symbols.listing.toOption.getD "" }

def onFile (read : String → Except ReadError String) (path : String)
    (use : String → String → Outcome) : Outcome :=
  match read path with
  | .ok source => use path source
  | .error e => .failure (e.message path ++ "\n")

def run (read : String → Except ReadError String) (colors : Bool) : Command → Outcome
  | help => { out := usage }
  | version => { out := "DCC Compiler 0.1.0\n" }
  | check path => onFile read path (checkText colors)
  | parse path => onFile read path (parseText colors)
  | lex path => onFile read path lexText
  | symbols path => onFile read path (symbolsText colors)
  | explain code => explainCode code
  | missingFile word => .failure ("Usage: dcc " ++ word ++ " <file.c>\n")
  | missingCode => .failure "Usage: dcc explain <ERROR_CODE>\nExample: dcc explain E2002\n"
  | unknown word =>
    { status := 1, out := usage, err := "Unknown command: " ++ word ++ "\n\n" }

def runArgs (read : String → Except ReadError String) (isTerminal : Bool) (args : List String) :
    Outcome :=
  match takeColors .auto args with
  | .error message => .failure ("error: " ++ message ++ "\n")
  | .ok (mode, args) => (ofArgs args).run read (mode.useColors isTerminal)

end Command

end MiniC
