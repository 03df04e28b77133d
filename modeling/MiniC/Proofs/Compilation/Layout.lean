import MiniC.Compilation
import MiniC.Proofs.Grammar.Earliest
import MiniC.Proofs.Grammar.Layout
import MiniC.Proofs.Scope.Spans

/-! # Layout

White space, line breaks and comments between the same tokens change spans and nothing else. Two
sources that differ in them alone come to the same: both are refused at the parse, or both have the
same errors in the same walk of analysis, or both compile, and then their programs and their symbol
tables are the same once the spans are dropped.
-/

namespace MiniC

open Relabelling (spanless)

def SymbolTable.spanless (t : SymbolTable) : SymbolTable := t.mapSpans fun _ => .dummy

/-- What a diagnostic says, without the places it shows. -/
def Diagnostic.headline (d : Diagnostic) : Code × String := (d.code, d.message)

namespace AnalysisError

def headlines (e : AnalysisError) : List (Code × String) := e.toDiagnostics.map (·.headline)

inductive Alike : AnalysisError → AnalysisError → Prop
  | declaring {errors errors' : List SemanticError}
    (same : (declaring errors).headlines = (declaring errors').headlines) :
    Alike (declaring errors) (declaring errors')
  | resolving {errors errors' : List SemanticError}
    (same : (resolving errors).headlines = (resolving errors').headlines) :
    Alike (resolving errors) (resolving errors')

variable {f : Span → Span}

theorem headlines_of_mapSpan {errors errors' : List SemanticError}
    (h : errors.map (·.mapSpan f) = errors'.map (·.mapSpan f)) :
    (errors.map (·.toDiagnostic)).map (·.headline)
      = (errors'.map (·.toDiagnostic)).map (·.headline) := by
  have hheadline : ∀ e : SemanticError,
      (e.mapSpan f).toDiagnostic.headline = e.toDiagnostic.headline := by
    intro e
    rw [Diagnostic.headline, e.code_toDiagnostic_mapSpan, e.message_toDiagnostic_mapSpan]
    rfl
  simpa [Function.comp_def, hheadline]
    using congrArg (List.map fun e : SemanticError => e.toDiagnostic.headline) h

theorem alike_of_mapSpans {e e' : AnalysisError} (h : e.mapSpans f = e'.mapSpans f) :
    e.Alike e' := by
  cases e with
  | declaring errors =>
    cases e' with
    | declaring errors' => exact .declaring (headlines_of_mapSpan (declaring.inj h))
    | resolving errors' => cases h
  | resolving errors =>
    cases e' with
    | declaring errors' => cases h
    | resolving errors' => exact .resolving (headlines_of_mapSpan (resolving.inj h))

end AnalysisError

/-- Programs that are the same up to spans are analyzed alike. -/
theorem Program.analyze_spanless {p p' : Program} (h : p.relabel spanless = p'.relabel spanless) :
    p.analyze.map (·.relabel spanless)
        (fun r => (r.map (·.spanless)).mapError (·.mapSpans fun _ => .dummy))
      = p'.analyze.map (·.relabel spanless)
        (fun r => (r.map (·.spanless)).mapError (·.mapSpans fun _ => .dummy)) := by
  have hp := p.analyzeWith_respan (fun _ => .dummy) .builtin
  have hp' := p'.analyzeWith_respan (fun _ => .dummy) .builtin
  exact hp.symm.trans ((congrArg (·.analyzeWith .builtin) h).trans hp')

namespace Compilation

/-- Two sources come to the same up to spans. -/
inductive SameUpToSpans (source source' name : String) :
    Except (List Diagnostic) Compilation → Except (List Diagnostic) Compilation → Prop
  | unparsed {e e' : ParseError}
    (parse : Program.ofSource source name = .error (.refused e))
    (parse' : Program.ofSource source' name = .error (.refused e'))
    (same : e.toDiagnostic.headline = e'.toDiagnostic.headline) :
    SameUpToSpans source source' name (.error [e.toDiagnostic]) (.error [e'.toDiagnostic])
  | unanalyzed {p p' : Program} {e e' : AnalysisError}
    (parse : Program.ofSource source name = .ok p)
    (parse' : Program.ofSource source' name = .ok p')
    (analysis : p.analyze.2 = .error e) (analysis' : p'.analyze.2 = .error e')
    (same : e.Alike e') :
    SameUpToSpans source source' name (.error e.toDiagnostics) (.error e'.toDiagnostics)
  | compiled {c c' : Compilation}
    (program : c.program.relabel spanless = c'.program.relabel spanless)
    (symbols : c.symbols.spanless = c'.symbols.spanless) :
    SameUpToSpans source source' name (.ok c) (.ok c')

/-- Sources with the same kinds of tokens come to the same up to spans. -/
theorem ofSource_layout {source source' : String}
    (h : (Token.lex source).map (·.kind) = (Token.lex source').map (·.kind)) (name : String) :
    SameUpToSpans source source' name (ofSource source name) (ofSource source' name) := by
  have hread : Grammar.SameRead _ (Program.ofSource source name) (Program.ofSource source' name) :=
    Program.sameRead_parse h name
  rw [ofSource, ofSource]
  generalize hp : Program.ofSource source name = x, hp' : Program.ofSource source' name = y
    at hread
  cases hread with
  | error hfail =>
    cases hfail with
    | refused code message => exact .unparsed hp hp' (Prod.ext code message)
    | endless =>
      obtain ⟨ks, hks⟩ := Token.lex_closes source
      exact absurd hp (Program.parse_ne_endless (by simp [hks.1]))
  | @ok p p' hpp' =>
    have hanalyze := Program.analyze_spanless hpp'
    dsimp only
    rw [ofProgram, ofProgram]
    rcases hq : p.analyze with ⟨q, e | t⟩ <;> rcases hq' : p'.analyze with ⟨q', e' | t'⟩ <;>
      rw [hq, hq'] at hanalyze <;> obtain ⟨hprogram, hanswer⟩ := Prod.mk.inj hanalyze
    · exact .unanalyzed hp hp' (congrArg Prod.snd hq) (congrArg Prod.snd hq')
        (AnalysisError.alike_of_mapSpans (Except.error.inj hanswer))
    · cases hanswer
    · cases hanswer
    · exact .compiled hprogram (Except.ok.inj hanswer)

def terse : String := "int f(int a)\x7breturn f(a*2);\x7d"

def relaid : String := "int f (int a) \x7b // one\n  return f(a * /* two */ 2)\n  ;\n\x7d\n"

theorem ofSource_relaid :
    (Token.lex terse).map (·.kind) = (Token.lex relaid).map (·.kind) ∧
      SameUpToSpans terse relaid "m" (ofSource terse "m") (ofSource relaid "m") := by
  have h : (Token.lex terse).map (·.kind) = (Token.lex relaid).map (·.kind) := by
    decide +kernel
  exact ⟨h, ofSource_layout h "m"⟩

end Compilation

end MiniC
