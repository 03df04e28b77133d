import Mathlib.Algebra.BigOperators.Fin
import Mathlib.Logic.Equiv.Basic
import MiniC.Proofs.Scope.Meaning

/-! # The order of functions

The definitions of a program can be put in any order, and its declarations in any that keeps those
of one name in theirs. The program is then accepted just if it was before, and its references mean
the same: a call means the function of the same item, and a name the same parameter or variable,
although both tables number them differently.
-/

namespace MiniC

open Relabelling (unbound)

/-- Calls prefer definitions to declarations, and earlier declarations to later ones. -/
def ItemRef.Precedes : ItemRef → ItemRef → Prop
  | .definition _, .declaration _ => True
  | .declaration i, .declaration k => i < k
  | _, .definition _ => False

theorem ItemRef.Precedes.asymm {item other : ItemRef} (h : item.Precedes other) :
    ¬ other.Precedes item := by
  cases item <;> cases other <;> simp_all [Precedes]
  exact Nat.le_of_lt h

/-- Of all items that take so many arguments under a name, calls mean this one. -/
structure SourceUnit.Means (u : SourceUnit) (name : String) (arity : Nat) (item : ItemRef) :
    Prop where
  stands : u.Stands item name arity
  first : ∀ other, u.Stands other name arity → other = item ∨ item.Precedes other

theorem SourceUnit.Means.unique {u : SourceUnit} {name : String} {arity : Nat}
    {item item' : ItemRef} (h : u.Means name arity item) (h' : u.Means name arity item') :
    item' = item := by
  rcases h.first item' h'.stands with rfl | hlt
  · rfl
  · rcases h'.first item h.stands with rfl | hlt'
    · rfl
    · exact absurd hlt' hlt.asymm

theorem SourceUnit.Stands.name_eq {u : SourceUnit} {i : Fin u.declarations.length} {name : String}
    {arity : Nat} (h : u.Stands (.declaration i) name arity) :
    (u.declarations.get i).name = name := by
  cases h with
  | declaration item => rw [List.get_eq_getElem, (List.getElem?_eq_some_iff.mp item).2]

/-- What a call finds in the table is the function of the item that it means. -/
theorem SymbolTable.Lists.means {types : TypeRegistry} {u : SourceUnit} {t : SymbolTable}
    (h : t.Lists types u.declarations u.definitions) {name : String} {arity : Nat} {id : FuncId}
    {f : FunctionSymbol} (hfind : t.findOverload? name arity = some id)
    (hf : t.getFunction? id = some f) : u.Means name arity f.item := by
  obtain ⟨⟨f', hf', rfl, rfl⟩, hbefore⟩ := (findOverload?_eq_some_iff h.fits).mp hfind
  obtain rfl := Option.some.inj (hf'.symm.trans hf)
  refine ⟨h.stands hf, fun other hother => ?_⟩
  obtain ⟨id', g, hg, rfl, hname, harity⟩ := h.exists_of_stands hother
  have hle : id.index ≤ id'.index :=
    Nat.le_of_not_lt fun hlt => hbefore _ hlt g hg ⟨hname, harity⟩
  rcases Nat.eq_or_lt_of_le hle with heq | hlt
  · obtain rfl := Handle.eq_of_index_eq heq
    exact Or.inl (congrArg (·.item) (Option.some.inj (hg.symm.trans hf)))
  · cases h.entry id' g hg with
    | @defined j d item symbol represents =>
      -- a definition has the first function of its name and arity, so nothing comes before it
      obtain ⟨id'', -, hsymbol, hfind', -⟩ := h.findOverload?_of_defined item
      obtain rfl := Option.some.inj (symbol.symm.trans hsymbol)
      have hdname : f'.name = d.name := hname.symm.trans represents.name
      rw [← harity, represents.arity_eq, hdname, hfind'] at hfind
      obtain rfl := Option.some.inj hfind
      exact absurd hlt (Nat.lt_irrefl _)
    | declared item represents =>
      rw [represents.item]
      cases h.entry id f' hf with
      | declared item' represents' =>
        rw [represents'.item]
        exact Or.inr hlt
      | defined item' symbol' represents' =>
        rw [represents'.item]
        exact Or.inr trivial

/-- The items of a unit in another order, which keeps that of the declarations of one name. -/
structure SourceUnit.Reordering (u u' : SourceUnit) where
  definition : Fin u.definitions.length ≃ Fin u'.definitions.length
  declaration : Fin u.declarations.length ≃ Fin u'.declarations.length
  definitions : ∀ j, u'.definitions.get (definition j) = u.definitions.get j
  declarations : ∀ i, u'.declarations.get (declaration i) = u.declarations.get i
  order : ∀ i k, i < k → (u.declarations.get i).name = (u.declarations.get k).name →
    declaration i < declaration k

namespace SourceUnit.Reordering

variable {u u' : SourceUnit} (r : u.Reordering u')

def symm : u'.Reordering u where
  definition := r.definition.symm
  declaration := r.declaration.symm
  definitions j := by rw [← r.definitions, Equiv.apply_symm_apply]
  declarations i := by rw [← r.declarations, Equiv.apply_symm_apply]
  order i k hik hname := by
    rw [← r.declaration.apply_symm_apply i, ← r.declaration.apply_symm_apply k,
      r.declarations, r.declarations] at hname
    refine Nat.lt_of_not_le fun hle => ?_
    rcases Nat.eq_or_lt_of_le hle with heq | hlt
    · exact Nat.ne_of_gt hik (congrArg Fin.val (r.declaration.symm.injective (Fin.ext heq)))
    · have hki := r.order _ _ hlt hname.symm
      rw [Equiv.apply_symm_apply, Equiv.apply_symm_apply] at hki
      exact Nat.lt_asymm hik hki

/-- An item of one unit and the same item of the other. -/
inductive Corresponds : ItemRef → ItemRef → Prop
  | definition (j : Fin u.definitions.length) :
      Corresponds (.definition j) (.definition (r.definition j))
  | declaration (i : Fin u.declarations.length) :
      Corresponds (.declaration i) (.declaration (r.declaration i))

include r

theorem definition_getElem? {j : Nat} {d : FunctionDefinition} (hd : u.definitions[j]? = some d) :
    ∃ k : Fin u.definitions.length, k = j ∧ u'.definitions[(r.definition k : Nat)]? = some d := by
  obtain ⟨hj, rfl⟩ := List.getElem?_eq_some_iff.mp hd
  exact ⟨⟨j, hj⟩, rfl, List.getElem?_eq_some_iff.mpr ⟨_, r.definitions ⟨j, hj⟩⟩⟩

theorem declaration_getElem? {i : Nat} {d : FunctionDeclaration}
    (hd : u.declarations[i]? = some d) :
    ∃ k : Fin u.declarations.length, k = i ∧
      u'.declarations[(r.declaration k : Nat)]? = some d := by
  obtain ⟨hi, rfl⟩ := List.getElem?_eq_some_iff.mp hd
  exact ⟨⟨i, hi⟩, rfl, List.getElem?_eq_some_iff.mpr ⟨_, r.declarations ⟨i, hi⟩⟩⟩

theorem definition_mem {d : FunctionDefinition} (hd : d ∈ u.definitions) : d ∈ u'.definitions := by
  obtain ⟨j, hj⟩ := List.mem_iff_getElem?.mp hd
  obtain ⟨k, -, hk⟩ := r.definition_getElem? hj
  exact List.mem_of_getElem? hk

theorem declaration_mem {d : FunctionDeclaration} (hd : d ∈ u.declarations) :
    d ∈ u'.declarations := by
  obtain ⟨i, hi⟩ := List.mem_iff_getElem?.mp hd
  obtain ⟨k, -, hk⟩ := r.declaration_getElem? hi
  exact List.mem_of_getElem? hk

theorem typeName_mem {type : TypeName} (h : type ∈ u.typeNames) : type ∈ u'.typeNames := by
  simp only [typeNames, List.mem_append, List.mem_flatMap] at h ⊢
  rcases h with ⟨d, hd, htype⟩ | ⟨d, hd, htype⟩
  · exact Or.inl ⟨d, r.declaration_mem hd, htype⟩
  · exact Or.inr ⟨d, r.definition_mem hd, htype⟩

theorem nodup_names (h : (u.definitions.map (·.name)).Nodup) :
    (u'.definitions.map (·.name)).Nodup := by
  have hne : ∀ j k : Fin u.definitions.length, j ≠ k →
      (u.definitions.get j).name ≠ (u.definitions.get k).name := by
    intro j k hjk
    have hpairs := List.pairwise_iff_getElem.mp (List.pairwise_map.mp h)
    rcases Nat.lt_or_gt_of_ne (Fin.val_ne_of_ne hjk) with hlt | hlt
    · exact hpairs j k j.isLt k.isLt hlt
    · exact (hpairs k j k.isLt j.isLt hlt).symm
  refine List.pairwise_map.mpr (List.pairwise_iff_getElem.mpr fun j k hj hk hjk => ?_)
  have hsymm : r.symm.definition ⟨j, hj⟩ ≠ r.symm.definition ⟨k, hk⟩ := fun heq =>
    Nat.ne_of_lt hjk (congrArg Fin.val (r.symm.definition.injective heq))
  have hnames := hne _ _ hsymm
  rwa [r.symm.definitions ⟨j, hj⟩, r.symm.definitions ⟨k, hk⟩] at hnames

theorem exists_stands {item : ItemRef} {name : String} {arity : Nat}
    (h : u.Stands item name arity) :
    ∃ item', r.Corresponds item item' ∧ u'.Stands item' name arity := by
  cases h with
  | definition hd =>
    obtain ⟨k, rfl, hk⟩ := r.definition_getElem? hd
    exact ⟨_, .definition k, .definition hk⟩
  | @declaration i d hd kept =>
    obtain ⟨k, rfl, hk⟩ := r.declaration_getElem? hd
    refine ⟨_, .declaration k, .declaration hk ?_⟩
    rcases kept with ⟨l, hl, e, he, hname⟩ | hnames
    · obtain ⟨m, rfl, hm⟩ := r.declaration_getElem? he
      refine Or.inl ⟨_, r.order m k hl ?_, e, hm, hname⟩
      rw [List.get_eq_getElem, List.get_eq_getElem, (List.getElem?_eq_some_iff.mp he).2,
        (List.getElem?_eq_some_iff.mp hd).2, hname]
    · exact Or.inr fun e he => hnames e (r.symm.definition_mem he)

theorem offers {name : String} {arity : Nat} (h : u.Offers name arity) :
    u'.Offers name arity := by
  obtain ⟨item, hitem⟩ := h
  obtain ⟨item', -, hitem'⟩ := r.exists_stands hitem
  exact ⟨item', hitem'⟩

theorem resolves {d : FunctionDefinition} {e : Expr} (h : e.Resolves u d) : e.Resolves u' d := by
  cases e with
  | call => exact r.offers h
  | _ => exact h

theorem size_eq : u'.size = u.size := by
  have hdeclarations := Fintype.card_congr r.declaration
  have hdefinitions := Fintype.card_congr r.definition
  rw [Fintype.card_fin, Fintype.card_fin] at hdeclarations hdefinitions
  rw [size, size, hdeclarations, hdefinitions]

theorem length_slots_eq : u'.slots.length = u.slots.length := by
  have hsum : ∀ u : SourceUnit, u.slots.length
      = ∑ i : Fin u.declarations.length, (u.declarations.get i).slots.length
        + ∑ j : Fin u.definitions.length, (u.definitions.get j).slots.length := by
    intro u
    rw [slots, List.length_append, List.length_flatMap, List.length_flatMap,
      ← Fin.sum_univ_fun_getElem, ← Fin.sum_univ_fun_getElem]
    rfl
  rw [hsum u, hsum u', ← Equiv.sum_comp r.declaration, ← Equiv.sum_comp r.definition]
  simp only [r.declarations, r.definitions]

theorem fits (h : u.Fits) : u'.Fits :=
  ⟨r.size_eq ▸ h.items, r.length_slots_eq ▸ h.slots⟩

variable {r}

theorem Corresponds.symm {item item' : ItemRef} (h : r.Corresponds item item') :
    r.symm.Corresponds item' item := by
  cases h with
  | definition j =>
    have hj := Corresponds.definition (r := r.symm) (r.definition j)
    rwa [Reordering.symm, Equiv.symm_apply_apply] at hj
  | declaration i =>
    have hi := Corresponds.declaration (r := r.symm) (r.declaration i)
    rwa [Reordering.symm, Equiv.symm_apply_apply] at hi

theorem Corresponds.eq {item item' other : ItemRef} (h : r.Corresponds item item')
    (h' : r.Corresponds item other) : item' = other := by
  cases h with
  | definition j =>
    obtain ⟨k, hk, rfl⟩ : ∃ k, k = j ∧ other = .definition (r.definition k) := by
      generalize hitem : ItemRef.definition j = item at h'
      cases h' with
      | definition k => exact ⟨k, Fin.ext (ItemRef.definition.inj hitem).symm, rfl⟩
      | declaration => cases hitem
    rw [hk]
  | declaration i =>
    obtain ⟨k, hk, rfl⟩ : ∃ k, k = i ∧ other = .declaration (r.declaration k) := by
      generalize hitem : ItemRef.declaration i = item at h'
      cases h' with
      | definition => cases hitem
      | declaration k => exact ⟨k, Fin.ext (ItemRef.declaration.inj hitem).symm, rfl⟩
    rw [hk]

theorem precedes {item item' other other' : ItemRef} {name : String} {arity : Nat}
    (hitem : r.Corresponds item item') (hother : r.Corresponds other other')
    (h : u.Stands item name arity) (h' : u.Stands other name arity)
    (hlt : item.Precedes other) : item'.Precedes other' := by
  cases hitem with
  | definition j =>
    cases hother with
    | definition => exact hlt
    | declaration => trivial
  | declaration i =>
    cases hother with
    | definition => exact hlt
    | declaration k => exact r.order i k hlt (h.name_eq.trans h'.name_eq.symm)

/-- A call means the same item in any order. -/
theorem corresponds_of_means {item item' : ItemRef} {name : String} {arity : Nat}
    (h : u.Means name arity item) (h' : u'.Means name arity item') : r.Corresponds item item' := by
  obtain ⟨item₁, hitem, hstands⟩ := r.exists_stands h.stands
  have hmeans : u'.Means name arity item₁ := by
    refine ⟨hstands, fun other' hother' => ?_⟩
    obtain ⟨other, hother, hstands'⟩ := r.symm.exists_stands hother'
    have hother : r.Corresponds other other' := hother.symm
    rcases h.first other hstands' with rfl | hlt
    · exact Or.inl (hother.eq hitem)
    · exact Or.inr (precedes hitem hother h.stands hstands' hlt)
  rwa [h'.unique hmeans] at hitem

end SourceUnit.Reordering

theorem FunctionBody.parts_unbound (b : FunctionBody) :
    (b.relabel unbound).parts = b.parts.map (·.relabel unbound) := by
  rw [b.relabel_unbound, parts_mapExprs (Expr.parts_relabel unbound), parts_emptied]

theorem FunctionDefinition.exists_part {d d' : FunctionDefinition}
    (h : d.relabel unbound = d'.relabel unbound) {k : Nat} {e : Expr}
    (he : d.body.parts[k]? = some e) :
    ∃ e', d'.body.parts[k]? = some e' ∧ e'.relabel unbound = e.relabel unbound := by
  have hparts := congrArg (·.body.parts[k]?) h
  simp only [relabel, FunctionBody.parts_unbound, List.getElem?_map, he, Option.map_some] at hparts
  simpa using hparts.symm

theorem Expr.exists_identifier {e : Expr} {name : String} {span : Span} {symbol : Option VarId}
    (h : e.relabel unbound = (Expr.identifier name span symbol).relabel unbound) :
    ∃ symbol', e = .identifier name span symbol' := by
  cases e <;> simp [relabel] at h
  simp [h]

theorem Expr.exists_call {e : Expr} {callee : String} {calleeSpan span : Span} {args : List Expr}
    {symbol : Option FuncId}
    (h : e.relabel unbound = (Expr.call callee calleeSpan args span symbol).relabel unbound) :
    ∃ args' symbol', e = .call callee calleeSpan args' span symbol' ∧
      args'.length = args.length := by
  cases e with
  | call callee' calleeSpan' args' span' symbol' =>
    simp only [relabel_call, Expr.call.injEq, Relabelling.unbound_span] at h
    obtain ⟨rfl, rfl, hargs, rfl, -⟩ := h
    exact ⟨args', symbol', rfl, by simpa using congrArg List.length hargs⟩
  | _ => simp [relabel] at h

theorem FunctionBody.names_unbound (b : FunctionBody) :
    (b.relabel unbound).variables.map (·.name) = b.variables.map (·.name) := by
  have hstmt : ∀ stmt : Stmt, (stmt.relabel unbound).variables.map (·.name)
      = stmt.variables.map (·.name) := by
    intro stmt
    cases stmt <;> rfl
  simp [FunctionBody.variables, relabel, VariableDeclaration.relabel, List.map_flatMap,
    List.flatMap_map, hstmt, Function.comp_def]

theorem exists_find?_pair {α : Type} {label : α → String} {name : String} {l l' : List α}
    (h : l.map label = l'.map label) (hname : name ∈ l.map label) :
    ∃ (k : Nat) (a a' : α), l[k]? = some a ∧ l'[k]? = some a' ∧
      l.find? (label · = name) = some a ∧ l'.find? (label · = name) = some a' := by
  induction l generalizing l' with
  | nil => simp at hname
  | cons b l ih =>
    cases l' with
    | nil => cases h
    | cons b' l' =>
      obtain ⟨hb, hl⟩ := List.cons.inj h
      by_cases hn : label b = name
      · exact ⟨0, b, b', rfl, rfl, by simp [hn], by simp [← hb, hn]⟩
      · have hmem : name ∈ l.map label := (List.mem_cons.mp hname).resolve_left (Ne.symm hn)
        obtain ⟨k, a, a', ha, ha', hfind, hfind'⟩ := ih hl hmem
        exact ⟨k + 1, a, a', ha, ha', by simpa [hn] using hfind, by simpa [← hb, hn] using hfind'⟩

theorem exists_find?_reverse_pair {α : Type} {label : α → String} {name : String} {l l' : List α}
    (h : l.map label = l'.map label) (hname : name ∈ l.map label) :
    ∃ (k : Nat) (a a' : α), l[k]? = some a ∧ l'[k]? = some a' ∧
      l.reverse.find? (label · = name) = some a ∧ l'.reverse.find? (label · = name) = some a' := by
  have hlength : l.length = l'.length := by simpa using congrArg List.length h
  have hreverse : l.reverse.map label = l'.reverse.map label := by
    rw [List.map_reverse, List.map_reverse, h]
  obtain ⟨k, a, a', hk, hk', hfind, hfind'⟩ := exists_find?_pair hreverse (by simpa using hname)
  have hlt : k < l.length := by simpa using (List.getElem?_eq_some_iff.mp hk).1
  rw [List.getElem?_reverse hlt] at hk
  rw [List.getElem?_reverse (hlength ▸ hlt), ← hlength] at hk'
  exact ⟨l.length - 1 - k, a, a', hk, hk', hfind, hfind'⟩

namespace FunctionDefinition

variable {d d' : FunctionDefinition} {k : Nat}

theorem slot_of_param {x : Parameter} (h : d.prototype.params[k]? = some x) :
    d.slots[k]? = some (x.slot d.symbol) := by
  rw [slots, List.getElem?_append_left (by simpa using (List.getElem?_eq_some_iff.mp h).1)]
  simp [h]

theorem slot_of_variable {v : VariableDeclaration} (h : d.body.variables[k]? = some v) :
    d.slots[d.prototype.params.length + k]? = some (v.slot d.symbol) := by
  rw [slots, List.getElem?_append_right (by simp)]
  simp [h]

/-- A name means the same slot in definitions that differ in nothing but handles. -/
theorem exists_slot_pair (h : d.relabel unbound = d'.relabel unbound) {name : String}
    (hname : d.Declares name) :
    ∃ (m : Nat) (slot slot' : Slot), d.slots[m]? = some slot ∧ d'.slots[m]? = some slot' ∧
      d.binding? name = slot.symbol ∧ d'.binding? name = slot'.symbol := by
  have hparams : d.prototype.params.map (·.name) = d'.prototype.params.map (·.name) := by
    simpa [relabel, Prototype.relabel, Parameter.relabel, Function.comp_def]
      using congrArg (·.prototype.params.map (·.name)) h
  have hvariables : d.body.variables.map (·.name) = d'.body.variables.map (·.name) := by
    rw [← d.body.names_unbound, ← d'.body.names_unbound]
    exact congrArg (·.body.variables.map (·.name)) h
  by_cases hv : name ∈ d.body.variables.map (·.name)
  · -- the body hides the parameters, and a later variable hides an earlier one
    have hlength : d'.prototype.params.length = d.prototype.params.length := by
      simpa using (congrArg List.length hparams).symm
    obtain ⟨k, v, v', hk, hk', hfind, hfind'⟩ := exists_find?_reverse_pair hvariables hv
    refine ⟨_, _, _, slot_of_variable hk, hlength ▸ slot_of_variable hk', ?_, ?_⟩
    · rw [binding?, hfind]
      rfl
    · rw [binding?, hfind']
      rfl
  · have hp : name ∈ d.prototype.params.map (·.name) := by
      rw [Declares, slots_names, List.mem_append] at hname
      exact hname.resolve_right hv
    obtain ⟨k, x, x', hk, hk', hfind, hfind'⟩ := exists_find?_pair hparams hp
    have hnone : ∀ {vs : List VariableDeclaration}, name ∉ vs.map (·.name) →
        vs.reverse.find? (·.name = name) = none := by
      intro vs hvs
      simpa using hvs
    refine ⟨k, _, _, slot_of_param hk, slot_of_param hk', ?_, ?_⟩
    · rw [binding?, hnone hv, hfind]
      rfl
    · rw [binding?, hnone (hvariables ▸ hv), hfind']
      rfl

end FunctionDefinition

namespace SourceUnit.Reordering

variable {u u' : SourceUnit}

/-- References of a definition mean the same in both tables. -/
structure SameReferences (r : u.Reordering u') (t t' : SymbolTable) (d d' : FunctionDefinition) :
    Prop where
  /-- A call of one definition and that of the other in the same place are bound to the functions
  of the same item. -/
  call : ∀ (k : Nat) callee calleeSpan args span symbol,
    d.body.parts[k]? = some (.call callee calleeSpan args span symbol) →
      ∃ args' symbol' id f id' f',
        d'.body.parts[k]? = some (.call callee calleeSpan args' span symbol') ∧
        symbol = some id ∧ t.getFunction? id = some f ∧
        symbol' = some id' ∧ t'.getFunction? id' = some f' ∧ r.Corresponds f.item f'.item
  /-- A name of one definition and that of the other in the same place are bound to the variables
  of the slot in the same place. -/
  identifier : ∀ (k : Nat) name span symbol,
    d.body.parts[k]? = some (.identifier name span symbol) →
      ∃ (symbol' : Option VarId) (m : Nat) (slot slot' : Slot),
        d'.body.parts[k]? = some (.identifier name span symbol') ∧
        d.slots[m]? = some slot ∧ d'.slots[m]? = some slot' ∧
        slot.symbol = symbol ∧ slot'.symbol = symbol' ∧ t.HasVariable symbol ∧
        t'.HasVariable symbol'

end SourceUnit.Reordering

namespace Program

variable {p p' q q' : Program} {types : TypeRegistry} {t t' : SymbolTable}

theorem exists_analyzeWith_of_reordering (r : p.unit.Reordering p'.unit) (hp : p.unit.Fits)
    (h : ∃ q t, p.analyzeWith types = (q, .ok t)) : ∃ q t, p'.analyzeWith types = (q, .ok t) := by
  rw [exists_analyzeWith_eq_ok_iff hp] at h
  rw [exists_analyzeWith_eq_ok_iff (r.fits hp)]
  obtain ⟨htypes, hnames, hresolves⟩ := h
  refine ⟨fun type htype => htypes type (r.symm.typeName_mem htype), r.nodup_names hnames,
    fun d hd e he => r.resolves (hresolves d (r.symm.definition_mem hd) e he)⟩

theorem fits_of_analyzeWith (h : p.analyzeWith types = (q, .ok t)) (hp : p.unit.Fits) : t.Fits := by
  obtain ⟨r, hr, -⟩ := analyzeWith_eq_ok h
  exact fits_of_declare hr hp

theorem definition_of_analyzeWith (h : p.analyzeWith types = (q, .ok t)) {j : Nat}
    {d : FunctionDefinition} (hd : q.unit.definitions[j]? = some d) :
    ∃ e, p.unit.definitions[j]? = some e ∧ e.relabel unbound = d.relabel unbound := by
  have hget := congrArg (·.unit.definitions[j]?) (relabel_of_analyzeWith h)
  simpa [relabel, SourceUnit.relabel, hd] using hget.symm

theorem means_of_emptied (h : q.emptied = p.emptied) {name : String} {arity : Nat} {item : ItemRef}
    (hitem : q.unit.Means name arity item) : p.unit.Means name arity item :=
  ⟨stands_of_emptied h hitem.stands,
    fun other hother => hitem.first other (stands_of_emptied h.symm hother)⟩

theorem means_of_call (h : p.analyzeWith types = (q, .ok t)) (hfit : t.FunctionsFit)
    {d : FunctionDefinition} (hd : d ∈ q.unit.definitions) {callee : String}
    {calleeSpan span : Span} {args : List Expr} {symbol : Option FuncId}
    (hx : .call callee calleeSpan args span symbol ∈ d.body.parts) :
    ∃ id f, symbol = some id ∧ t.getFunction? id = some f ∧
      p.unit.Means callee args.length f.item := by
  obtain ⟨-, -, hsettled⟩ := analyzeWith_ok h
  obtain ⟨hsymbol, hne⟩ := (hsettled d hd).call callee calleeSpan args span symbol hx
  obtain ⟨_, _, hk⟩ := (hsettled d hd).registers.defined hfit
  rw [hk.resolveFunction?_eq] at hsymbol
  obtain ⟨id, rfl⟩ := Option.ne_none_iff_exists'.mp hne
  obtain ⟨⟨f, hf, -⟩, -⟩ := (SymbolTable.findOverload?_eq_some_iff hfit).mp hsymbol.symm
  obtain ⟨r, hr, -⟩ := analyzeWith_eq_ok h
  obtain ⟨-, hlists⟩ := declare_lists hr hfit
  exact ⟨id, f, rfl, hf, means_of_emptied (emptied_of_declare hr) (hlists.means hsymbol.symm hf)⟩

theorem binding?_of_identifier (h : p.analyzeWith types = (q, .ok t)) (hfit : t.Fits)
    {d : FunctionDefinition} (hd : d ∈ q.unit.definitions) {name : String} {span : Span}
    {symbol : Option VarId} (hx : .identifier name span symbol ∈ d.body.parts) :
    d.binding? name = symbol ∧ t.HasVariable symbol ∧ d.Declares name := by
  obtain ⟨hfills, -, hsettled⟩ := analyzeWith_ok h
  have hslots : ∀ slot ∈ d.slots, slot ∈ q.unit.slots := fun _ hslot =>
    List.mem_append_right _ (List.mem_flatMap.mpr ⟨d, hd, hslot⟩)
  obtain ⟨hsymbol, slot, hslot, rfl, rfl, -⟩ := (hsettled d hd).exists_slot hfit hfills hslots hx
  exact ⟨hsymbol.symm, hfills.hasVariable (hslots slot hslot), List.mem_map_of_mem hslot⟩

/-- The order of definitions does not matter to analysis, nor that of declarations of different
names: the program is accepted in both orders or in none, and where it is, the references of each
definition mean the same. There must be handles for all functions and variables. -/
theorem analyzeWith_reordering {p p' : Program} (types : TypeRegistry)
    (r : p.unit.Reordering p'.unit) (hp : p.unit.Fits) :
    ((∃ q t, p.analyzeWith types = (q, .ok t)) ↔ ∃ q t, p'.analyzeWith types = (q, .ok t)) ∧
      ∀ q t q' t', p.analyzeWith types = (q, .ok t) → p'.analyzeWith types = (q', .ok t') →
        ∀ (j : Fin p.unit.definitions.length) d d', q.unit.definitions[(j : Nat)]? = some d →
          q'.unit.definitions[(r.definition j : Nat)]? = some d' →
            r.SameReferences t t' d d' := by
  have hp' := r.fits hp
  refine ⟨⟨exists_analyzeWith_of_reordering r hp, exists_analyzeWith_of_reordering r.symm hp'⟩, ?_⟩
  intro q t q' t' h h' j d d' hd hd'
  have hfit := fits_of_analyzeWith h hp
  have hfit' := fits_of_analyzeWith h' hp'
  have hsame : d.relabel unbound = d'.relabel unbound := by
    obtain ⟨e, he, hrelabel⟩ := definition_of_analyzeWith h hd
    obtain ⟨e', he', hrelabel'⟩ := definition_of_analyzeWith h' hd'
    obtain ⟨k, hk, hget⟩ := r.definition_getElem? he
    obtain rfl : k = j := Fin.ext hk
    obtain rfl := Option.some.inj (hget.symm.trans he')
    rw [← hrelabel, ← hrelabel']
  have hmem := List.mem_of_getElem? hd
  have hmem' := List.mem_of_getElem? hd'
  constructor
  · intro k callee calleeSpan args span symbol hx
    obtain ⟨e', hx', he'⟩ := FunctionDefinition.exists_part hsame hx
    obtain ⟨args', symbol', rfl, hlength⟩ := Expr.exists_call he'
    obtain ⟨id, f, hid, hf, hmeans⟩ := means_of_call h hfit.functions hmem (List.mem_of_getElem? hx)
    obtain ⟨id', f', hid', hf', hmeans'⟩ :=
      means_of_call h' hfit'.functions hmem' (List.mem_of_getElem? hx')
    rw [hlength] at hmeans'
    exact ⟨args', symbol', id, f, id', f', hx', hid, hf, hid', hf',
      SourceUnit.Reordering.corresponds_of_means hmeans hmeans'⟩
  · intro k name span symbol hx
    obtain ⟨e', hx', he'⟩ := FunctionDefinition.exists_part hsame hx
    obtain ⟨symbol', rfl⟩ := Expr.exists_identifier he'
    obtain ⟨hbinding, hvar, hname⟩ := binding?_of_identifier h hfit hmem (List.mem_of_getElem? hx)
    obtain ⟨hbinding', hvar', -⟩ := binding?_of_identifier h' hfit' hmem' (List.mem_of_getElem? hx')
    obtain ⟨m, slot, slot', hslot, hslot', hsymbol, hsymbol'⟩ :=
      FunctionDefinition.exists_slot_pair hsame hname
    exact ⟨symbol', m, slot, slot', hx', hslot, hslot', hsymbol.symm.trans hbinding,
      hsymbol'.symm.trans hbinding', hvar, hvar'⟩

/-- The items of `merging`, both the declarations and the definitions in reverse order. -/
def reversed : Program :=
  let p := merging none none none none none none none none none
  { p with
    unit :=
      { p.unit with
        declarations := p.unit.declarations.reverse
        definitions := p.unit.definitions.reverse } }

def reversing :
    (merging none none none none none none none none none).unit.Reordering reversed.unit where
  definition := (Equiv.swap 0 1 : Fin 2 ≃ Fin 2)
  declaration := (Equiv.swap 0 1 : Fin 2 ≃ Fin 2)
  definitions := by decide
  declarations := by decide
  order := by decide

/-- In both orders, the call means the definition of `f`. -/
theorem analyze_reversed :
    ∃ q t d args id f, reversed.analyzeWith .builtin = (q, .ok t) ∧
      q.unit.definitions[1]? = some d ∧
      d.body.parts[0]? = some (.call "f" .dummy args .dummy (some id)) ∧
      t.getFunction? id = some f ∧ f.item = .definition 0 := by
  obtain ⟨haccepted, hsame⟩ := analyzeWith_reordering .builtin reversing ⟨by decide, by decide⟩
  obtain ⟨q, t, h⟩ := haccepted.mp ⟨_, _, analyze_merging⟩
  obtain ⟨d, hd⟩ : ∃ d, q.unit.definitions[1]? = some d := by
    have hget := congrArg (·.unit.definitions[1]?) (relabel_of_analyzeWith h)
    obtain ⟨d, hd, -⟩ := Option.map_eq_some_iff.mp ((List.getElem?_map ..).symm.trans hget)
    exact ⟨d, hd⟩
  obtain ⟨args, symbol, id, f, id', f', hx, hid, hf, rfl, hf', hitem⟩ :=
    (hsame _ _ q t analyze_merging h (0 : Fin 2) _ d rfl hd).call 0 _ _ _ _ _ rfl
  obtain rfl := Option.some.inj hid
  obtain rfl := Option.some.inj hf
  exact ⟨q, t, d, args, id', f', h, hd, hx, hf',
    hitem.eq (SourceUnit.Reordering.Corresponds.definition (r := reversing) (1 : Fin 2))⟩

end Program

end MiniC
