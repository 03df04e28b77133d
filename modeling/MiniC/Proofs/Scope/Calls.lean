import MiniC.Proofs.Scope.Bound
import MiniC.Proofs.Scope.Functions

/-! # What calls are bound to

A call means the first function of its name that takes as many arguments. If a definition has this
name and so many parameters, the call means the definition: the definition has the first function
of the name, whatever was declared of that name before.
-/

namespace MiniC

/-- From the scope of a known definition, a call is looked up among all functions. -/
theorem SymbolTable.Knows.resolveFunction?_eq {t : SymbolTable} {d : FunctionDefinition}
    {id : FuncId} {f : FunctionSymbol} (h : t.Knows d id f) (name : String) (arity : Nat) :
    t.resolveFunction? d.scope name arity = t.findOverload? name arity := by
  have hscope : d.scope = .function id := by rw [FunctionDefinition.scope, h.symbol]
  rw [hscope, resolveFunction?, depth, resolveFunctionWithin, h.function]
  dsimp only
  rw [h.enclosing, resolveFunctionWithin]

/-- A definition that the table lists is what calls of its name and number of parameters find. -/
theorem SymbolTable.Lists.findOverload?_of_defined {types : TypeRegistry}
    {ds : List FunctionDeclaration} {fs : List FunctionDefinition} {t : SymbolTable}
    (h : t.Lists types ds fs) {j : Nat} {d : FunctionDefinition} (hd : fs[j]? = some d) :
    ∃ id f, d.symbol = some id ∧ t.findOverload? d.name d.prototype.arity = some id ∧
      t.getFunction? id = some f ∧ f.isDeclaration = false ∧ f.item = .definition j := by
  obtain ⟨id, f, hid, hfind, hf, hrep⟩ := h.defined j d hd
  have hoverload := findOverload?_of_findFunction? h.fits hfind hf
  rw [hrep.arity_eq] at hoverload
  exact ⟨id, f, hid, hoverload, hf, hrep.isDeclaration, hrep.item⟩

namespace Program

variable {p q : Program} {types : TypeRegistry} {t : SymbolTable}

theorem findOverload?_of_definition (h : p.analyzeWith types = (q, .ok t)) (hfit : t.FunctionsFit)
    {j : Nat} {e : FunctionDefinition} (he : q.unit.definitions[j]? = some e) :
    ∃ id f, e.symbol = some id ∧ t.findOverload? e.name e.prototype.arity = some id ∧
      t.getFunction? id = some f ∧ f.isDeclaration = false ∧ f.item = .definition j := by
  obtain ⟨r, hr, rfl, -⟩ := analyzeWith_eq_ok h
  obtain ⟨-, hlists⟩ := declare_lists hr hfit
  simp only [withDefinitions, List.getElem?_map, Option.map_eq_some_iff] at he
  obtain ⟨d, hd, rfl⟩ := he
  obtain ⟨id, f, hfound⟩ := hlists.findOverload?_of_defined hd
  exact ⟨id, f, hfound⟩

/-- After analysis, a call carries the handle of the first function that has its name and takes as
many arguments, and this is the definition of that name and so many parameters if there is one.
There must be no more functions than handles. -/
theorem call_binding (h : p.analyzeWith types = (q, .ok t))
    (hfit : t.functions.size ≤ Handle.capacity) {d : FunctionDefinition}
    (hd : d ∈ q.unit.definitions) {callee : String} {calleeSpan span : Span} {args : List Expr}
    {symbol : Option FuncId} (hx : .call callee calleeSpan args span symbol ∈ d.body.parts) :
    ∃ id f, symbol = some id ∧ t.getFunction? id = some f ∧
      f.name = callee ∧ f.arity = args.length ∧
      (∀ id' : FuncId, id'.index < id.index → ∀ g, t.getFunction? id' = some g →
        ¬ (g.name = callee ∧ g.arity = args.length)) ∧
      ∀ j e, q.unit.definitions[j]? = some e → e.name = callee →
        e.prototype.arity = args.length →
          e.symbol = some id ∧ f.isDeclaration = false ∧ f.item = .definition j := by
  obtain ⟨-, -, hsettled⟩ := analyzeWith_ok h
  obtain ⟨hsymbol, hne⟩ := (hsettled d hd).call callee calleeSpan args span symbol hx
  obtain ⟨_, _, hk⟩ := (hsettled d hd).registers.defined hfit
  rw [hk.resolveFunction?_eq] at hsymbol
  obtain ⟨id, rfl⟩ := Option.ne_none_iff_exists'.mp hne
  obtain ⟨⟨f, hf, hname, harity⟩, hbefore⟩ :=
    (SymbolTable.findOverload?_eq_some_iff hfit).mp hsymbol.symm
  refine ⟨id, f, rfl, hf, hname, harity, hbefore, ?_⟩
  rintro j e he rfl hargs
  obtain ⟨id', f', hid, hfind, hf', hdefined, hitem⟩ := findOverload?_of_definition h hfit he
  rw [hargs] at hfind
  obtain rfl := Option.some.inj (hsymbol.trans hfind)
  obtain rfl := Option.some.inj (hf.symm.trans hf')
  exact ⟨hid, hdefined, hitem⟩

theorem analyze_merging :
    analyzeWith (merging none none none none none none none none none) .builtin
      = (merging (some ⟨0⟩) (some ⟨1⟩) (some ⟨2⟩) (some ⟨0⟩) (some ⟨0⟩) (some ⟨1⟩) (some ⟨2⟩)
          (some ⟨3⟩) (some ⟨3⟩), .ok .merging) := by
  apply analyzeWith_eq_of_toOption
  · simp only [analyzeWith, declare_merging, resolve_eq]
    decide +kernel
  · simp only [analyzeWith, declare_merging, resolve_eq]
    decide +kernel

/-- The call of `f` with two arguments, before the definition of `f` and behind a declaration of
`f` with one parameter, is bound to the definition. -/
theorem call_binding_merging :
    analyzeWith (merging none none none none none none none none none) .builtin
        = (merging (some ⟨0⟩) (some ⟨1⟩) (some ⟨2⟩) (some ⟨0⟩) (some ⟨0⟩) (some ⟨1⟩) (some ⟨2⟩)
            (some ⟨3⟩) (some ⟨3⟩), .ok .merging) ∧
      ∃ f, SymbolTable.merging.getFunction? ⟨0⟩ = some f ∧ f.name = "f" ∧ f.arity = 2 ∧
        f.isDeclaration = false ∧ f.item = .definition 1 := by
  obtain ⟨id, f, hid, hf, hname, harity, -, hdefinition⟩ :=
    call_binding analyze_merging (by decide) (List.mem_cons_self) (List.mem_cons_self)
  obtain rfl := Option.some.inj hid
  obtain ⟨-, hdefined, hitem⟩ := hdefinition 1 _ rfl rfl rfl
  exact ⟨analyze_merging, f, hf, hname, harity, hdefined, hitem⟩

end Program

end MiniC
