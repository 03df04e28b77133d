import MiniC.Proofs.Scope.Analysis

/-! # What names are bound to

A name in the body of a definition means the last variable of that name which the body declares,
wherever it stands, and without such a variable the first parameter of the definition of that
name. Every variable has a handle of its own, so nothing that another item declares is meant.
-/

namespace MiniC

/-- The handle of what a name means in the body of a definition. -/
def FunctionDefinition.binding? (d : FunctionDefinition) (name : String) : Option VarId :=
  match d.body.variables.reverse.find? (·.name = name) with
  | some v => v.symbol
  | none => (d.prototype.params.find? (·.name = name)).bind (·.symbol)

theorem FunctionDefinition.slot_mem_of_param (d : FunctionDefinition) {p : Parameter}
    (h : p ∈ d.prototype.params) : p.slot d.symbol ∈ d.slots :=
  List.mem_append_left _ (List.mem_map_of_mem h)

theorem FunctionDefinition.slot_mem_of_variable (d : FunctionDefinition) {v : VariableDeclaration}
    (h : v ∈ d.body.variables) : v.slot d.symbol ∈ d.slots :=
  List.mem_append_right _ (List.mem_map_of_mem h)

theorem Declaring.get?_foldl_declareLocal (name : String) (vs : List VariableDeclaration)
    (hvs : ∀ v ∈ vs, v.symbol ≠ none) (locals : LocalTable) :
    (vs.foldl declareLocal locals).get? name =
      match vs.reverse.find? (·.name = name) with
      | some v => v.symbol
      | none => locals.get? name := by
  induction vs generalizing locals with
  | nil => rfl
  | cons v vs ih =>
    obtain ⟨hv, hvs⟩ := List.forall_mem_cons.mp hvs
    obtain ⟨id, hid⟩ := Option.ne_none_iff_exists'.mp hv
    rw [List.foldl_cons, ih hvs, List.reverse_cons, List.find?_append]
    cases hfind : vs.reverse.find? (·.name = name) with
    | some w => rfl
    | none =>
      simp only [declareLocal, hid, LocalTable.get?_insert, List.find?_singleton]
      by_cases hname : v.name = name <;> simp [hname, hid]

namespace SymbolTable

variable {t₀ t : SymbolTable} {slots : List Slot}

theorem Fills.variable_of_mem (h : t₀.Fills t slots) (hfit : t.vars.size ≤ Handle.capacity)
    {slot : Slot} (hs : slot ∈ slots) :
    ∃ id v, slot.symbol = some id ∧ t.getVariable? id = some v ∧ v.name = slot.name ∧
      slot.owner = some v.owner := by
  obtain ⟨id, v, hid, hget, hv⟩ := h.exists_variable hfit hs
  obtain ⟨owner, ho, hv⟩ := Option.bind_eq_some_iff.mp hv
  obtain ⟨type, -, rfl⟩ := Option.map_eq_some_iff.mp hv
  exact ⟨id, _, hid, hget, rfl, ho⟩

theorem find?_isNamed (name : String) (params : List Parameter) (ids : List VarId)
    (hids : ids.map some = params.map (·.symbol))
    (hnamed : ∀ p ∈ params, ∀ id, p.symbol = some id → t.isNamed name id = decide (p.name = name)) :
    ids.find? (t.isNamed name) = (params.find? (·.name = name)).bind (·.symbol) := by
  induction params generalizing ids with
  | nil =>
    obtain rfl : ids = [] := by simpa using hids
    rfl
  | cons p params ih =>
    obtain ⟨hp, hnamed⟩ := List.forall_mem_cons.mp hnamed
    cases ids with
    | nil => simp at hids
    | cons id ids =>
      obtain ⟨hid, hids⟩ := List.cons.inj hids
      rw [List.find?_cons, List.find?_cons, hp id hid.symm, ih ids hids hnamed]
      by_cases hname : p.name = name
      · simp [hname, ← hid]
      · simp [hname]

/-- From the scope of a known definition, a name is looked up in its function alone. -/
theorem Knows.resolveVariable?_eq {d : FunctionDefinition} {id : FuncId} {f : FunctionSymbol}
    (h : t.Knows d id f) (name : String) :
    t.resolveVariable? d.scope name
      = (f.locals.get? name <|> f.params.find? (t.isNamed name)) := by
  have hscope : d.scope = .function id := by rw [FunctionDefinition.scope, h.symbol]
  rw [hscope, resolveVariable?, depth, resolveVariableWithin, h.function]
  dsimp only
  rw [h.enclosing, resolveVariableWithin]
  cases f.locals.get? name <;> cases f.params.find? (t.isNamed name) <;> rfl

/-- A name means what the definition says it means, as soon as the slots are filled. -/
theorem Defined.resolveVariable?_eq {d : FunctionDefinition} (h : t.Defined d)
    (hfills : t₀.Fills t slots) (hfit : t.vars.size ≤ Handle.capacity)
    (hd : ∀ slot ∈ d.slots, slot ∈ slots) (name : String) :
    t.resolveVariable? d.scope name = d.binding? name := by
  obtain ⟨id, f, hk⟩ := h
  have hvars : ∀ v ∈ d.body.variables, v.symbol ≠ none := by
    intro v hv
    exact hfills.symbol_ne_none (hd _ (d.slot_mem_of_variable hv))
  have hnamed : ∀ p ∈ d.prototype.params, ∀ id, p.symbol = some id →
      t.isNamed name id = decide (p.name = name) := by
    intro p hp id hid
    obtain ⟨id', v, hid', hv, hname, -⟩ :=
      hfills.variable_of_mem hfit (hd _ (d.slot_mem_of_param hp))
    obtain rfl := Option.some.inj (hid.symm.trans hid')
    rw [isNamed, hv, Option.any_some, hname]
    rfl
  rw [hk.resolveVariable?_eq, hk.locals, Declaring.get?_foldl_declareLocal name _ hvars,
    find?_isNamed name _ _ hk.params hnamed, FunctionDefinition.binding?]
  cases hfind : d.body.variables.reverse.find? (·.name = name) with
  | some v => exact orElse_of_ne_none (hvars v (by simpa using List.mem_of_find?_eq_some hfind))
  | none => rfl

end SymbolTable

theorem FunctionDefinition.exists_slot_of_binding? {d : FunctionDefinition} {name : String}
    {id : VarId} (h : d.binding? name = some id) :
    ∃ slot ∈ d.slots, slot.symbol = some id ∧ slot.name = name ∧ slot.owner = d.symbol := by
  unfold binding? at h
  split at h
  next v hfind =>
    have hv : v ∈ d.body.variables := by simpa using List.mem_of_find?_eq_some hfind
    have hname : v.name = name := by simpa using List.find?_some hfind
    exact ⟨_, d.slot_mem_of_variable hv, h, hname, rfl⟩
  · obtain ⟨p, hfind, hp⟩ := Option.bind_eq_some_iff.mp h
    have hname : p.name = name := by simpa using List.find?_some hfind
    exact ⟨_, d.slot_mem_of_param (List.mem_of_find?_eq_some hfind), hp, hname, rfl⟩

theorem SymbolTable.Settled.exists_slot {t₀ t : SymbolTable} {slots : List Slot}
    {d : FunctionDefinition} (h : t.Settled d) (hfit : t.Fits) (hfills : t₀.Fills t slots)
    (hd : ∀ slot ∈ d.slots, slot ∈ slots) {name : String} {span : Span} {symbol : Option VarId}
    (hx : .identifier name span symbol ∈ d.body.parts) :
    symbol = d.binding? name ∧
      ∃ slot ∈ d.slots, slot.symbol = symbol ∧ slot.name = name ∧ slot.owner = d.symbol := by
  obtain ⟨hsymbol, hne⟩ := h.identifier name span symbol hx
  rw [(h.registers.defined hfit.functions).resolveVariable?_eq hfills hfit.vars hd name] at hsymbol
  obtain ⟨id, rfl⟩ := Option.ne_none_iff_exists'.mp hne
  exact ⟨hsymbol, FunctionDefinition.exists_slot_of_binding? hsymbol.symm⟩

namespace SourceUnit

variable {u : SourceUnit} {i j : Nat} {d e : FunctionDefinition}

theorem slot_mem_of_definition (hd : u.definitions[i]? = some d) {slot : Slot}
    (hs : slot ∈ d.slots) : slot ∈ u.slots :=
  List.mem_append_right _ (List.mem_flatMap.mpr ⟨d, List.mem_of_getElem? hd, hs⟩)

theorem symbol_ne_of_definition_ne (h : (u.slots.map (·.symbol)).Nodup)
    (hd : u.definitions[i]? = some d) (he : u.definitions[j]? = some e) (hij : j ≠ i)
    {a b : Slot} (ha : a ∈ d.slots) (hb : b ∈ e.slots) : b.symbol ≠ a.symbol := by
  have hpairs : u.definitions.Pairwise fun d e =>
      ∀ a ∈ d.slots, ∀ b ∈ e.slots, a.symbol ≠ b.symbol :=
    (List.pairwise_flatMap.mp (List.pairwise_append.mp (List.pairwise_map.mp h)).2.1).2
  obtain ⟨hi, rfl⟩ := List.getElem?_eq_some_iff.mp hd
  obtain ⟨hj, rfl⟩ := List.getElem?_eq_some_iff.mp he
  rcases Nat.lt_or_gt_of_ne hij with hlt | hlt
  · exact List.pairwise_iff_getElem.mp hpairs j i hj hi hlt b hb a ha
  · exact (List.pairwise_iff_getElem.mp hpairs i j hi hj hlt a ha b hb).symm

theorem symbol_ne_of_declaration (h : (u.slots.map (·.symbol)).Nodup)
    (hd : u.definitions[i]? = some d) {e : FunctionDeclaration} (he : e ∈ u.declarations)
    {a b : Slot} (ha : a ∈ d.slots) (hb : b ∈ e.slots) : b.symbol ≠ a.symbol := by
  have hapart := (List.pairwise_append.mp (List.pairwise_map.mp h)).2.2
  exact hapart b (List.mem_flatMap.mpr ⟨e, he, hb⟩) a
    (List.mem_flatMap.mpr ⟨d, List.mem_of_getElem? hd, ha⟩)

end SourceUnit

/-- After analysis, a name in the body of a definition carries the handle of what it means there:
a variable of this name and of the function of the definition, which no other item declares. The
table must have a handle for every symbol of its own. -/
theorem Program.identifier_binding {p q : Program} {types : TypeRegistry} {t : SymbolTable}
    (h : p.analyzeWith types = (q, .ok t)) (hfit : t.Fits) {i : Nat} {d : FunctionDefinition}
    (hd : q.unit.definitions[i]? = some d) {name : String} {span : Span} {symbol : Option VarId}
    (hx : .identifier name span symbol ∈ d.body.parts) :
    ∃ id v, symbol = some id ∧ d.binding? name = some id ∧ t.getVariable? id = some v ∧
      v.name = name ∧ d.symbol = some v.owner ∧
      (∀ e ∈ q.unit.declarations, ∀ x ∈ e.prototype.params, x.symbol ≠ some id) ∧
      ∀ j e, j ≠ i → q.unit.definitions[j]? = some e →
        (∀ x ∈ e.prototype.params, x.symbol ≠ some id) ∧
          ∀ x ∈ e.body.variables, x.symbol ≠ some id := by
  obtain ⟨hfills, -, hsettled⟩ := analyzeWith_ok h
  have hslots : ∀ slot ∈ d.slots, slot ∈ q.unit.slots := fun _ =>
    SourceUnit.slot_mem_of_definition hd
  obtain ⟨hsymbol, slot, hmem, rfl, hname, howner⟩ :=
    (hsettled d (List.mem_of_getElem? hd)).exists_slot hfit hfills hslots hx
  obtain ⟨id, v, hid, hget, hv, hv'⟩ := hfills.variable_of_mem hfit.vars (hslots slot hmem)
  refine ⟨id, v, hid, hsymbol.symm.trans hid, hget, hv.trans hname, howner.symm.trans hv', ?_, ?_⟩
  · intro e he x hx
    rw [← hid]
    exact SourceUnit.symbol_ne_of_declaration (hfills.nodup hfit.vars) hd he hmem
      (List.mem_map_of_mem hx)
  · intro j e hj he
    refine ⟨fun x hx => ?_, fun x hx => ?_⟩
    · rw [← hid]
      exact SourceUnit.symbol_ne_of_definition_ne (hfills.nodup hfit.vars) hd he hj hmem
        (e.slot_mem_of_param hx)
    · rw [← hid]
      exact SourceUnit.symbol_ne_of_definition_ne (hfills.nodup hfit.vars) hd he hj hmem
        (e.slot_mem_of_variable hx)

def FunctionDefinition.shadowing (symbol : Option FuncId) (param var ref : Option VarId) :
    FunctionDefinition where
  prototype := ⟨⟨"int", .dummy⟩, "f", .dummy, [⟨⟨"int", .dummy⟩, "a", .dummy, .dummy, param⟩],
    .dummy⟩
  body := ⟨[⟨⟨"int", .dummy⟩, "a", .dummy, .dummy, var⟩],
    [.ret (.identifier "a" .dummy ref) .dummy], .dummy⟩
  span := .dummy
  symbol := symbol

theorem Program.identifier_binding_shadowing :
    ∃ t v, analyzeWith ⟨"m", { definitions := [.shadowing none none none none] }⟩ .builtin
        = (⟨"m", {
            definitions := [.shadowing (some ⟨0⟩) (some ⟨0⟩) (some ⟨1⟩) (some ⟨1⟩)]
            globalScope := some .global }⟩, .ok t) ∧
      t.getVariable? ⟨1⟩ = some v ∧ v.name = "a" ∧ v.owner = ⟨0⟩ := by
  have h : analyzeWith ⟨"m", { definitions := [.shadowing none none none none] }⟩ .builtin
      = (⟨"m", {
          definitions := [.shadowing (some ⟨0⟩) (some ⟨0⟩) (some ⟨1⟩) (some ⟨1⟩)]
          globalScope := some .global }⟩, .ok {
        functions := #[⟨"f", .int, [⟨0⟩], ⟨["a"], ⟨[("a", ⟨1⟩)]⟩⟩, false, .global, .definition 0,
          .dummy, "int f(int a)"⟩]
        vars := #[⟨"a", .int, .dummy, ⟨0⟩⟩, ⟨"a", .int, .dummy, ⟨0⟩⟩]
        types := .builtin }) := by
    apply analyzeWith_eq_of_toOption
    · simp only [analyzeWith, declare, Declaring.walk_eq, resolve_eq]
      decide +kernel
    · simp only [analyzeWith, declare, Declaring.walk_eq, resolve_eq]
      decide +kernel
  obtain ⟨id, v, hid, -, hv, hname, howner, -⟩ :=
    identifier_binding h ⟨by decide, by decide⟩ (i := 0) rfl (List.mem_singleton.mpr rfl)
  obtain rfl := Option.some.inj hid
  exact ⟨_, v, h, hv, hname, (Option.some.inj howner).symm⟩

end MiniC
