import MiniC.Compilation
import MiniC.Proofs.Grammar.Earliest
import MiniC.Proofs.Scope.Meaning

/-! # Phases

A source that is not compiled has errors of one phase alone. One that cannot be parsed has a single
error, at the token that no sentence goes on with. One that defines a name twice has an error for
each further definition of it, and otherwise there is one for each reference that means nothing, as
long as there are handles for all functions and variables. Types are always known, since the parser
makes no other type than `int`, and analysis never fails by itself.
-/

namespace MiniC

namespace Grammar

variable {ks : List TokenKind}

theorem DerivesParameter.typeName_eq {p : Parameter} (h : DerivesParameter ks p) :
    p.type.name = "int" := by
  cases h
  rfl

theorem DerivesVariable.typeName_eq {v : VariableDeclaration} (h : DerivesVariable ks v) :
    v.type.name = "int" := by
  cases h
  rfl

theorem DerivesPrototype.typeName_eq {p : Prototype} (h : DerivesPrototype ks p) :
    ∀ type ∈ p.typeNames, type.name = "int" := by
  obtain ⟨name, typeSpan, nameSpan, span, params, hparams⟩ := h
  simp only [Prototype.typeNames, List.forall_mem_cons, List.forall_mem_map, true_and]
  exact fun a ha => (hparams a ha).typeName_eq

theorem DerivesStmt.variables_eq_nil {stmt : Stmt} (h : DerivesStmt ks stmt) :
    stmt.variables = [] := by
  cases h <;> rfl

theorem DerivesBody.typeName_eq {b : FunctionBody} (h : DerivesBody ks b) :
    ∀ v ∈ b.variables, v.type.name = "int" := by
  obtain ⟨span, locals, ss, hlocals, hss⟩ := h
  have hstatements : (ss.map (·.2)).flatMap (·.variables) = [] :=
    List.flatMap_eq_nil_iff.mpr (List.forall_mem_map.mpr fun a ha => (hss a ha).variables_eq_nil)
  rw [FunctionBody.variables, hstatements, List.append_nil, List.forall_mem_map]
  exact fun a ha => (hlocals a ha).typeName_eq

theorem DerivesUnit.typeName_eq {u : SourceUnit} (h : DerivesUnit ks u) :
    ∀ type ∈ u.typeNames, type.name = "int" := by
  induction h with
  | nil => simp [SourceUnit.typeNames]
  | declaration hd _ ih =>
    obtain ⟨span, hp⟩ := hd
    simp only [SourceUnit.typeNames, List.forall_mem_append, List.flatMap_cons] at ih ⊢
    exact ⟨⟨hp.typeName_eq, ih.1⟩, ih.2⟩
  | definition hd _ ih =>
    obtain ⟨span, hp, hb⟩ := hd
    simp only [SourceUnit.typeNames, FunctionDefinition.typeNames, List.forall_mem_append,
      List.flatMap_cons, List.forall_mem_map] at ih ⊢
    exact ⟨ih.1, ⟨hp.typeName_eq, hb.typeName_eq⟩, ih.2⟩

end Grammar

theorem Program.known_of_ofSource {p : Program} {source name : String}
    (h : Program.ofSource source name = .ok p) :
    ∀ type ∈ p.unit.typeNames, type.Known .builtin := by
  obtain ⟨ks, hks⟩ := Token.lex_closes source
  intro type htype
  rw [TypeName.Known, (derivesUnit_of_parse hks h).typeName_eq type htype]
  decide

namespace SemanticError

theorem code_toDiagnostic (e : SemanticError) : e.toDiagnostic.code = e.code := by
  unfold toDiagnostic
  split <;> simp_all [code, Diagnostic.internalError]

theorem isError_toDiagnostic (e : SemanticError) : e.toDiagnostic.severity = .error := by
  unfold toDiagnostic
  split <;> rfl

theorem primarySpan?_toDiagnostic (e : SemanticError) :
    e.toDiagnostic.primarySpan? = some e.span := by
  unfold toDiagnostic
  split <;> rfl

theorem message_toDiagnostic {e : SemanticError} (h : e.code ≠ .internalError) :
    e.toDiagnostic.message = e.message := by
  cases hkind : e.kind with
  | internal message => exact absurd (by rw [code, hkind]) h
  | _ => rw [toDiagnostic, hkind]

end SemanticError

/-- Up to this token of a list, and no sooner, the kinds of the list begin no sentence. -/
def Token.Offending (tokens : List Token) (t : Token) : Prop :=
  ∃ k, tokens[k]? = some t ∧
    IsLeast {i | ¬ Grammar.Viable ((tokens.take (i + 1)).map (·.kind))} k

/-- There is one diagnostic for each error, in their order, which shows the name it is about. -/
def Diagnostic.Report (ds : List Diagnostic) (errors : List SemanticError) : Prop :=
  ds.map (fun d => (d.code, d.message, d.primarySpan?))
    = errors.map fun e => (e.code, e.message, some e.span)

theorem Diagnostic.report_toDiagnostic {errors : List SemanticError}
    (h : ∀ e ∈ errors, e.code ≠ .internalError) :
    Report (errors.map (·.toDiagnostic)) errors := by
  rw [Report, List.map_map]
  apply List.map_congr_left
  intro e he
  rw [Function.comp_apply, e.code_toDiagnostic, e.primarySpan?_toDiagnostic,
    SemanticError.message_toDiagnostic (h e he)]

namespace Program

variable {p q : Program} {types : TypeRegistry} {t : SymbolTable} {e : SemanticError}

theorem code_of_mem_missing (h : p.declare types = (q, .ok t))
    (he : e ∈ q.unit.definitions.flatMap (·.missing t)) :
    e.code = .undeclaredVariable ∨ e.code = .undeclaredFunction := by
  obtain ⟨d, hd, hmem⟩ := List.mem_flatMap.mp he
  obtain ⟨x, -, hmissing⟩ : ∃ x ∈ d.body.parts, x.missing? t d.scope = some e := by
    simpa [FunctionDefinition.missing, scopeless?_eq_none h hd] using hmem
  cases x with
  | identifier name span symbol =>
    obtain ⟨-, ⟨rfl⟩⟩ := Option.ite_none_right_eq_some.mp hmissing
    exact Or.inl rfl
  | call callee calleeSpan args span symbol =>
    obtain ⟨-, ⟨rfl⟩⟩ := Option.ite_none_right_eq_some.mp hmissing
    exact Or.inr rfl
  | _ => cases hmissing

end Program

namespace Compilation

variable {source name : String} {p : Program} {r : Except (List Diagnostic) Compilation}
  {errors : List SemanticError}

/-- If the source can be parsed, there are handles for all items and slots of its program. -/
def Fits (source name : String) : Prop :=
  ∀ p, Program.ofSource source name = .ok p → p.unit.Fits

/-- What becomes of a source, by the phase that ends it. -/
inductive Outcome (source name : String) : Except (List Diagnostic) Compilation → Prop
  | unparsed {failure : Failure} {d : Diagnostic} {t : Token}
      (parse : Program.ofSource source name = .error failure)
      (phase : d.code.phase = .lexer ∨ d.code.phase = .parser) (severity : d.severity = .error)
      (offending : Token.Offending (Token.lex source) t) (span : d.primarySpan? = some t.span) :
      Outcome source name (.error [d])
  | redefining {p : Program} {ds : List Diagnostic} (parse : Program.ofSource source name = .ok p)
      (ne_nil : ds ≠ [])
      (diagnostic : ∀ d ∈ ds, d.code = .duplicateDefinition ∧ d.severity = .error)
      (verdict : p.unit.Fits → ¬ (p.unit.definitions.map (·.name)).Nodup ∧
        Diagnostic.Report ds (redefinitions [] p.unit.definitions)) :
      Outcome source name (.error ds)
  | meaningless {p : Program} {ds : List Diagnostic} (parse : Program.ofSource source name = .ok p)
      (ne_nil : ds ≠ [])
      (diagnostic : ∀ d ∈ ds, (d.code = .undeclaredVariable ∨ d.code = .undeclaredFunction) ∧
        d.severity = .error)
      (verdict : p.unit.Fits → (p.unit.definitions.map (·.name)).Nodup ∧ p.unit.unresolved ≠ [] ∧
        Diagnostic.Report ds p.unit.unresolved) :
      Outcome source name (.error ds)
  | compiled {p : Program} {c : Compilation} (parse : Program.ofSource source name = .ok p)
      (verdict : p.unit.Fits → (p.unit.definitions.map (·.name)).Nodup ∧ p.unit.unresolved = []) :
      Outcome source name (.ok c)

theorem outcome_of_error {failure : Failure} (h : Program.ofSource source name = .error failure) :
    Outcome source name (ofSource source name) := by
  obtain ⟨ks, hks⟩ := Token.lex_closes source
  have heof : .eof ∈ (Token.lex source).map (·.kind) := by simp [hks.1]
  obtain ⟨k, t, e, hparse, ht, hleast, hspan, -⟩ := Program.refused_earliest heof fun p hp => by
    cases h.symm.trans hp
  obtain rfl := Except.error.inj (h.symm.trans hparse)
  have hcompile : ofSource source name = .error [e.toDiagnostic] := by
    rw [ofSource, h]
    rfl
  have hprimary : e.toDiagnostic.primarySpan? = some e.span := rfl
  rw [hcompile]
  exact .unparsed h (Program.phase_of_refused h) rfl ⟨k, ht, hleast⟩ (hspan ▸ hprimary)

theorem ofProgram_of_error {e : AnalysisError} (h : p.analyze.2 = .error e) :
    ofProgram p = .error e.toDiagnostics := by
  have hp : p.analyze = (p.analyze.1, .error e) := Prod.ext rfl h
  rw [ofProgram, hp]

theorem forall_mem_toDiagnostics (P : Code → Prop) (h : ∀ e ∈ errors, P e.code) :
    ∀ d ∈ errors.map (·.toDiagnostic), P d.code ∧ d.severity = .error := by
  refine List.forall_mem_map.mpr fun e he => ?_
  rw [e.code_toDiagnostic]
  exact ⟨h e he, e.isError_toDiagnostic⟩

theorem outcome_of_declare_error (h : Program.ofSource source name = .ok p)
    (herrors : (p.declare .builtin).2 = .error errors) : Outcome source name (ofProgram p) := by
  have hdeclare : p.declare .builtin = ((p.declare .builtin).1, .error errors) :=
    Prod.ext rfl herrors
  have hknown := Program.known_of_ofSource h
  obtain ⟨hwalk, hne⟩ := Program.declare_eq_error_iff_walk.mp herrors
  have hcode : ∀ e ∈ errors, e.code = .duplicateDefinition := by
    intro e he
    exact (p.walk_complaints .builtin hknown e (hwalk ▸ he)).1
  have hreport : Diagnostic.Report (errors.map (·.toDiagnostic)) errors :=
    Diagnostic.report_toDiagnostic fun e he => by simp [hcode e he]
  rw [ofProgram_of_error (congrArg Prod.snd (Program.analyzeWith_of_declare_error hdeclare))]
  have hdiagnostic := forall_mem_toDiagnostics (· = .duplicateDefinition) hcode
  refine .redefining h ?_ hdiagnostic fun hfits => ?_
  · simpa [AnalysisError.toDiagnostics, AnalysisError.errors] using hne
  · obtain ⟨hfaults, -⟩ := (Program.declare_eq_error_iff hfits.items).mp herrors
    rw [SourceUnit.faults_eq_redefinitions hknown] at hfaults
    refine ⟨fun hnames => hne ?_, hfaults ▸ hreport⟩
    rw [hfaults, redefinitions_eq_nil_iff]
    exact ⟨hnames, by simp⟩

theorem outcome_of_declare_ok (h : Program.ofSource source name = .ok p) {t : SymbolTable}
    (ht : (p.declare .builtin).2 = .ok t) : Outcome source name (ofProgram p) := by
  have hdeclare : p.declare .builtin = ((p.declare .builtin).1, .ok t) := Prod.ext rfl ht
  have hnames : p.unit.Fits → (p.unit.definitions.map (·.name)).Nodup := fun hfits =>
    (SourceUnit.faults_eq_nil_iff.mp
      ((Program.exists_declare_eq_ok_iff hfits.items).mp ⟨t, ht⟩)).2
  have hmissing := Program.missing_eq_unresolved hdeclare
  have hcode := fun e => Program.code_of_mem_missing (e := e) hdeclare
  have hanalyze := Program.analyzeWith_of_declare_ok hdeclare
  rw [Program.resolve_eq] at hanalyze
  generalize (p.declare .builtin).1.unit.definitions.flatMap (·.missing t) = errors
    at hmissing hcode hanalyze
  by_cases hnil : errors = []
  · rw [if_pos hnil] at hanalyze
    rw [ofProgram, Program.analyze, hanalyze]
    exact .compiled h fun hfits => ⟨hnames hfits, (hmissing hfits).symm.trans hnil⟩
  · have hreport : Diagnostic.Report (errors.map (·.toDiagnostic)) errors := by
      apply Diagnostic.report_toDiagnostic
      intro e he
      rcases hcode e he with hc | hc <;> simp [hc]
    rw [if_neg hnil] at hanalyze
    rw [ofProgram_of_error (congrArg Prod.snd hanalyze)]
    have hdiagnostic := forall_mem_toDiagnostics
      (fun code => code = .undeclaredVariable ∨ code = .undeclaredFunction) hcode
    refine .meaningless h ?_ hdiagnostic fun hfits => ?_
    · simpa [AnalysisError.toDiagnostics, AnalysisError.errors] using hnil
    · rw [← hmissing hfits]
      exact ⟨hnames hfits, hnil, hreport⟩

theorem ofSource_outcome (source name : String) :
    Outcome source name (ofSource source name) := by
  cases h : Program.ofSource source name with
  | error failure => exact outcome_of_error h
  | ok p =>
    have hcompile : ofSource source name = ofProgram p := by rw [ofSource, h]
    rw [hcompile]
    cases hdeclare : (p.declare .builtin).2 with
    | error errors => exact outcome_of_declare_error h hdeclare
    | ok t => exact outcome_of_declare_ok h hdeclare

namespace Outcome

theorem severity_eq (h : Outcome source name r) :
    ∀ ds, r = .error ds → ds ≠ [] ∧ ∀ d ∈ ds, d.severity = .error := by
  rintro ds rfl
  cases h with
  | unparsed _ _ severity => simp [severity]
  | redefining _ ne_nil diagnostic => exact ⟨ne_nil, fun d hd => (diagnostic d hd).2⟩
  | meaningless _ ne_nil diagnostic => exact ⟨ne_nil, fun d hd => (diagnostic d hd).2⟩

theorem code_ne (h : Outcome source name r) :
    ∀ ds, r = .error ds → ∀ d ∈ ds, d.code ≠ .unknownType ∧ d.code ≠ .internalError := by
  rintro ds rfl d hd
  cases h with
  | unparsed _ phase =>
    obtain rfl := List.mem_singleton.mp hd
    rcases phase with phase | phase <;> constructor <;> intro hcode <;> rw [hcode] at phase <;>
      cases phase
  | redefining _ _ diagnostic => simp [(diagnostic d hd).1]
  | meaningless _ _ diagnostic => rcases (diagnostic d hd).1 with hcode | hcode <;> simp [hcode]

theorem parsing_iff (h : Outcome source name r) :
    (∃ d, r = .error [d] ∧ (d.code.phase = .lexer ∨ d.code.phase = .parser)) ↔
      ∃ failure, Program.ofSource source name = .error failure := by
  constructor
  · rintro ⟨d, rfl, phase⟩
    cases h with
    | unparsed parse => exact ⟨_, parse⟩
    | redefining _ _ diagnostic =>
      rw [(diagnostic d List.mem_cons_self).1] at phase
      simp [Code.phase] at phase
    | meaningless _ _ diagnostic =>
      rcases (diagnostic d List.mem_cons_self).1 with hcode | hcode <;>
        simp [hcode, Code.phase] at phase
  · rintro ⟨failure, hfailure⟩
    cases h with
    | unparsed parse phase => exact ⟨_, rfl, phase⟩
    | redefining parse => cases parse.symm.trans hfailure
    | meaningless parse => cases parse.symm.trans hfailure
    | compiled parse => cases parse.symm.trans hfailure

theorem offending (h : Outcome source name r) {failure : Failure}
    (hfailure : Program.ofSource source name = .error failure) :
    ∃ d t, r = .error [d] ∧ Token.Offending (Token.lex source) t ∧
      d.primarySpan? = some t.span := by
  cases h with
  | unparsed _ _ _ offending span => exact ⟨_, _, rfl, offending, span⟩
  | redefining parse => cases parse.symm.trans hfailure
  | meaningless parse => cases parse.symm.trans hfailure
  | compiled parse => cases parse.symm.trans hfailure

theorem report_redefinitions (h : Outcome source name r)
    (hp : Program.ofSource source name = .ok p) (hfits : p.unit.Fits)
    (hnames : ¬ (p.unit.definitions.map (·.name)).Nodup) :
    ∃ ds, r = .error ds ∧ (∀ d ∈ ds, d.code = .duplicateDefinition) ∧
      Diagnostic.Report ds (redefinitions [] p.unit.definitions) := by
  cases h with
  | unparsed parse => cases parse.symm.trans hp
  | redefining parse _ diagnostic verdict =>
    cases parse.symm.trans hp
    exact ⟨_, rfl, fun d hd => (diagnostic d hd).1, (verdict hfits).2⟩
  | meaningless parse _ _ verdict =>
    cases parse.symm.trans hp
    exact absurd (verdict hfits).1 hnames
  | compiled parse verdict =>
    cases parse.symm.trans hp
    exact absurd (verdict hfits).1 hnames

theorem declaring_iff (h : Outcome source name r) (hfits : Fits source name) :
    (∃ ds, r = .error ds ∧ ∀ d ∈ ds, d.code = .duplicateDefinition) ↔
      ∃ p, Program.ofSource source name = .ok p ∧ ¬ (p.unit.definitions.map (·.name)).Nodup := by
  constructor
  · rintro ⟨ds, rfl, hcode⟩
    cases h with
    | unparsed _ phase => simp [hcode _ List.mem_cons_self, Code.phase] at phase
    | redefining parse _ _ verdict => exact ⟨_, parse, (verdict (hfits _ parse)).1⟩
    | meaningless _ ne_nil diagnostic =>
      obtain ⟨d, hd⟩ := List.exists_mem_of_ne_nil ds ne_nil
      simpa [hcode d hd] using (diagnostic d hd).1
  · rintro ⟨p, hp, hnames⟩
    obtain ⟨ds, hds, hcode, -⟩ := h.report_redefinitions hp (hfits p hp) hnames
    exact ⟨ds, hds, hcode⟩

theorem report_unresolved (h : Outcome source name r)
    (hp : Program.ofSource source name = .ok p) (hfits : p.unit.Fits)
    (hnames : (p.unit.definitions.map (·.name)).Nodup) (hunresolved : p.unit.unresolved ≠ []) :
    ∃ ds, r = .error ds ∧
      (∀ d ∈ ds, d.code = .undeclaredVariable ∨ d.code = .undeclaredFunction) ∧
      Diagnostic.Report ds p.unit.unresolved := by
  cases h with
  | unparsed parse => cases parse.symm.trans hp
  | redefining parse _ _ verdict =>
    cases parse.symm.trans hp
    exact absurd hnames (verdict hfits).1
  | meaningless parse _ diagnostic verdict =>
    cases parse.symm.trans hp
    exact ⟨_, rfl, fun d hd => (diagnostic d hd).1, (verdict hfits).2.2⟩
  | compiled parse verdict =>
    cases parse.symm.trans hp
    exact absurd (verdict hfits).2 hunresolved

theorem resolving_iff (h : Outcome source name r) (hfits : Fits source name) :
    (∃ ds, r = .error ds ∧
        ∀ d ∈ ds, d.code = .undeclaredVariable ∨ d.code = .undeclaredFunction) ↔
      ∃ p, Program.ofSource source name = .ok p ∧ (p.unit.definitions.map (·.name)).Nodup ∧
        p.unit.unresolved ≠ [] := by
  constructor
  · rintro ⟨ds, rfl, hcode⟩
    cases h with
    | unparsed _ phase =>
      rcases hcode _ List.mem_cons_self with hcode | hcode <;> simp [hcode, Code.phase] at phase
    | redefining _ ne_nil diagnostic =>
      obtain ⟨d, hd⟩ := List.exists_mem_of_ne_nil ds ne_nil
      simpa [(diagnostic d hd).1] using hcode d hd
    | meaningless parse _ _ verdict =>
      obtain ⟨hnames, hunresolved, -⟩ := verdict (hfits _ parse)
      exact ⟨_, parse, hnames, hunresolved⟩
  · rintro ⟨p, hp, hnames, hunresolved⟩
    obtain ⟨ds, hds, hcode, -⟩ := h.report_unresolved hp (hfits p hp) hnames hunresolved
    exact ⟨ds, hds, hcode⟩

theorem compiled_iff (h : Outcome source name r) (hfits : Fits source name) :
    (∃ c, r = .ok c) ↔ ∃ p, Program.ofSource source name = .ok p ∧
      (p.unit.definitions.map (·.name)).Nodup ∧ p.unit.unresolved = [] := by
  constructor
  · rintro ⟨c, rfl⟩
    cases h with
    | compiled parse verdict => exact ⟨_, parse, verdict (hfits _ parse)⟩
  · rintro ⟨p, hp, hnames, hunresolved⟩
    cases h with
    | unparsed parse => cases parse.symm.trans hp
    | redefining parse _ _ verdict =>
      cases parse.symm.trans hp
      exact absurd hnames (verdict (hfits _ parse)).1
    | meaningless parse _ _ verdict =>
      cases parse.symm.trans hp
      exact absurd hunresolved (verdict (hfits _ parse)).2.1
    | compiled => exact ⟨_, rfl⟩

end Outcome

/-- The phases of a source never mix. While there are handles for all items and slots, each of
them fails just for its own reason, and shows all that is wrong where it stands. -/
structure Phases (source name : String) : Prop where
  /-- A source that is not compiled has errors, and nothing else. -/
  errors : ∀ ds, ofSource source name = .error ds → ds ≠ [] ∧ ∀ d ∈ ds, d.severity = .error
  /-- Types are never unknown, and analysis does not fail by itself. -/
  unreachable : ∀ ds, ofSource source name = .error ds → ∀ d ∈ ds,
    d.code ≠ .unknownType ∧ d.code ≠ .internalError
  parsing : (∃ d, ofSource source name = .error [d] ∧
      (d.code.phase = .lexer ∨ d.code.phase = .parser)) ↔
    ∃ failure, Program.ofSource source name = .error failure
  offending : ∀ failure, Program.ofSource source name = .error failure →
    ∃ d t, ofSource source name = .error [d] ∧ Token.Offending (Token.lex source) t ∧
      d.primarySpan? = some t.span
  declaring : Fits source name →
    ((∃ ds, ofSource source name = .error ds ∧ ∀ d ∈ ds, d.code = .duplicateDefinition) ↔
      ∃ p, Program.ofSource source name = .ok p ∧ ¬ (p.unit.definitions.map (·.name)).Nodup)
  redefined : ∀ p, Program.ofSource source name = .ok p → p.unit.Fits →
    ¬ (p.unit.definitions.map (·.name)).Nodup →
      ∃ ds, ofSource source name = .error ds ∧
        Diagnostic.Report ds (redefinitions [] p.unit.definitions)
  resolving : Fits source name →
    ((∃ ds, ofSource source name = .error ds ∧
        ∀ d ∈ ds, d.code = .undeclaredVariable ∨ d.code = .undeclaredFunction) ↔
      ∃ p, Program.ofSource source name = .ok p ∧ (p.unit.definitions.map (·.name)).Nodup ∧
        ∃ d ∈ p.unit.definitions, ∃ e ∈ d.body.parts, ¬ e.Resolves p.unit d)
  unresolved : ∀ p, Program.ofSource source name = .ok p → p.unit.Fits →
    (p.unit.definitions.map (·.name)).Nodup →
      (∃ d ∈ p.unit.definitions, ∃ e ∈ d.body.parts, ¬ e.Resolves p.unit d) →
        ∃ ds, ofSource source name = .error ds ∧ Diagnostic.Report ds p.unit.unresolved
  compiled : Fits source name →
    ((∃ c, ofSource source name = .ok c) ↔
      ∃ p, Program.ofSource source name = .ok p ∧ (p.unit.definitions.map (·.name)).Nodup ∧
        ∀ d ∈ p.unit.definitions, ∀ e ∈ d.body.parts, e.Resolves p.unit d)

/-- What a source comes to is decided by one phase, which alone reports its errors. -/
theorem ofSource_phases (source name : String) : Phases source name := by
  have h := ofSource_outcome source name
  constructor
  case errors => exact h.severity_eq
  case unreachable => exact h.code_ne
  case parsing => exact h.parsing_iff
  case offending =>
    intro failure hfailure
    exact h.offending hfailure
  case declaring =>
    intro hfits
    exact h.declaring_iff hfits
  case redefined =>
    intro p hp hfits hnames
    obtain ⟨ds, hds, -, hreport⟩ := h.report_redefinitions hp hfits hnames
    exact ⟨ds, hds, hreport⟩
  case resolving =>
    intro hfits
    simp only [← SourceUnit.unresolved_ne_nil_iff]
    exact h.resolving_iff hfits
  case unresolved =>
    intro p hp hfits hnames hunresolved
    rw [← SourceUnit.unresolved_ne_nil_iff] at hunresolved
    obtain ⟨ds, hds, -, hreport⟩ := h.report_unresolved hp hfits hnames hunresolved
    exact ⟨ds, hds, hreport⟩
  case compiled =>
    intro hfits
    simp only [← SourceUnit.unresolved_eq_nil_iff]
    exact h.compiled_iff hfits

def meaningless : String := "int f(int a) \x7b return g(a, b); \x7d"

theorem ofSource_phases_meaningless : ∃ ds, ofSource meaningless "m" = .error ds ∧
    ds.map (fun d => (d.code, d.message, d.primarySpan?))
      = [(.undeclaredFunction, "no function `g` taking 2 arguments", some ⟨⟨1, 23⟩, ⟨1, 24⟩⟩),
        (.undeclaredVariable, "use of undeclared variable `b`", some ⟨⟨1, 28⟩, ⟨1, 29⟩⟩)] := by
  have hunit : (Program.ofSource meaningless "m").toOption.map
      (fun p => (p.unit.size, p.unit.slots.length, p.unit.definitions.map (·.name),
        p.unit.unresolved))
      = some (1, 1, ["f"], [⟨.undeclaredFunction 2, "g", ⟨1, 23⟩, ⟨1, 24⟩⟩,
        ⟨.undeclaredVariable, "b", ⟨1, 28⟩, ⟨1, 29⟩⟩]) := by
    decide +kernel
  cases h : Program.ofSource meaningless "m" with
  | error failure =>
    rw [h] at hunit
    cases hunit
  | ok p =>
    rw [h] at hunit
    simp only [Except.toOption, Option.map_some, Option.some.injEq, Prod.mk.injEq] at hunit
    obtain ⟨hsize, hslots, hnames, hunresolved⟩ := hunit
    have hfits : p.unit.Fits := ⟨by rw [hsize]; decide, by rw [hslots]; decide⟩
    have hne : p.unit.unresolved ≠ [] := by simp [hunresolved]
    obtain ⟨ds, hds, hreport⟩ := (ofSource_phases meaningless "m").unresolved p h hfits
      (by simp [hnames]) (SourceUnit.unresolved_ne_nil_iff.mp hne)
    rw [Diagnostic.Report, hunresolved] at hreport
    exact ⟨ds, hds, hreport.trans (by decide)⟩

end Compilation

end MiniC
