import MiniC.Proofs.Compilation.Phases
import MiniC.Proofs.Token.Spelling
import MiniC.Tree.Describe

/-! # Signatures

The signature of a prototype is its text on one line. For a prototype that was read from a source,
the signature and a semicolon are a source themselves: it is cut into the tokens that the prototype
was read from and a semicolon, and read as one declaration of the same prototype. So the signature
tells the name and the names of the parameters.
-/

namespace MiniC

open Relabelling (spanless)

/-- The tokens of a parameter, each with what a signature has behind it. -/
def Parameter.spelled (p : Parameter) : List (TokenKind × List Char) :=
  [(.intWord, [' ']), (.ident p.name, [])]

def spelledParameters : List Parameter → List (TokenKind × List Char)
  | [] => []
  | p :: ps => p.spelled ++ ps.flatMap fun q => (.comma, [' ']) :: q.spelled

def Prototype.spelled (p : Prototype) : List (TokenKind × List Char) :=
  (.intWord, [' ']) :: (.ident p.name, []) :: (.lparen, []) ::
    (spelledParameters p.params ++ [(.rparen, []), (.semicolon, [])])

variable {parts : List (TokenKind × List Char)} {kind : TokenKind} {c : Char} {gap : List Char}
  {ks : List TokenKind} {p q : Parameter} {ps : List Parameter} {f : Prototype}

theorem ident_mem_spelledParameters (h : q ∈ ps) :
    (.ident q.name, []) ∈ spelledParameters ps := by
  cases ps with
  | nil => cases h
  | cons p ps =>
    rw [spelledParameters, List.mem_append, List.mem_flatMap]
    rcases List.mem_cons.mp h with rfl | h
    · exact Or.inl (by simp [Parameter.spelled])
    · exact Or.inr ⟨q, h, by simp [Parameter.spelled]⟩

theorem intercalate_cons (sep text : String) (texts : List String) :
    sep.intercalate (text :: texts) = text ++ String.join (texts.map (sep ++ ·)) := by
  induction texts generalizing text with
  | nil => simp
  | cons text' texts ih =>
    rw [String.intercalate_cons_cons, ih, List.map_cons, String.join_cons]
    simp only [String.append_assoc]

theorem spell_append (parts' : List (TokenKind × List Char)) :
    spell [] (parts ++ parts') = spell [] parts ++ spell [] parts' := by
  simp [spell]

theorem spell_flatMap {α : Type} (as : List α) (g : α → List (TokenKind × List Char)) :
    spell [] (as.flatMap g) = as.flatMap fun a => spell [] (g a) := by
  simp [spell, List.flatMap_assoc]

theorem Parameter.spell_spelled (h : p.type.name = "int") : spell [] p.spelled = p.text.toList := by
  simp [spell, spelled, text, h, TokenKind.text]

theorem spell_spelledParameters (h : ∀ p ∈ ps, p.type.name = "int") :
    spell [] (spelledParameters ps) = (String.intercalate ", " (ps.map (·.text))).toList := by
  cases ps with
  | nil => rfl
  | cons p ps =>
    obtain ⟨hp, hps⟩ := List.forall_mem_cons.mp h
    have hmore : ∀ q ∈ ps, spell [] ((.comma, [' ']) :: q.spelled) = (", " ++ q.text).toList := by
      intro q hq
      rw [String.toList_append, ← Parameter.spell_spelled (hps q hq)]
      rfl
    rw [spelledParameters, spell_append, Parameter.spell_spelled hp, List.map_cons,
      intercalate_cons, String.toList_append, String.toList_join, List.map_map, List.flatMap_map,
      spell_flatMap]
    exact congrArg _ (List.flatMap_congr hmore)

theorem Prototype.spell_spelled (hreturn : f.returnType.name = "int")
    (hparams : ∀ p ∈ f.params, p.type.name = "int") :
    spell [] f.spelled = (f.signature ++ ";").toList := by
  have hopen : spell [] f.spelled = "int ".toList ++ f.name.toList ++ "(".toList
      ++ spell [] (spelledParameters f.params ++ [(.rparen, []), (.semicolon, [])]) := by
    simp [spell, spelled, TokenKind.text]
  have hclose : spell [] [(.rparen, []), (.semicolon, [])] = ");".toList := rfl
  rw [hopen, spell_append, spell_spelledParameters hparams, hclose, signature, hreturn]
  simp

/-- Tokens that are kept apart, and before which a word or a numeral can stand. -/
def Follows (parts : List (TokenKind × List Char)) : Prop :=
  KeptApart parts ∧ ∀ c ∈ (spell [] parts).head?, isWordPart c = false

theorem follows_mark (htext : kind.text.toList = [c]) (hc : c ∈ ['(', ')', ',', ';'])
    (hgap : Trivia gap) (h : KeptApart parts) : Follows ((kind, gap) :: parts) := by
  obtain ⟨halone, hslash, hpart⟩ : StandsAlone c ∧ c ≠ '/' ∧ isWordPart c = false := by
    simp only [List.mem_cons, List.not_mem_nil, or_false] at hc
    rcases hc with rfl | rfl | rfl | rfl <;> exact ⟨⟨rfl, rfl, rfl⟩, by decide, rfl⟩
  have hends : Ends kind.text.toList (gap ++ spell [] parts) := by
    rw [htext]
    exact halone.ends fun he => absurd he hslash
  refine ⟨.cons hgap hends h, ?_⟩
  simp only [spell, List.nil_append, List.flatMap_cons, htext, List.cons_append, List.head?_cons]
  rintro d ⟨⟩
  exact hpart

theorem keptApart_word (hname : IsWord kind.text.toList) (h : Follows parts) :
    KeptApart ((kind, []) :: parts) :=
  .cons .nil (hname.ends h.2) h.1

theorem keptApart_int (h : KeptApart parts) : KeptApart ((.intWord, [' ']) :: parts) :=
  .cons (.blank rfl .nil) (ends_of_blank (by rintro c ⟨⟩; rfl)) h

theorem keptApart_parameter (hname : IsWord p.name.toList) (h : Follows parts) :
    KeptApart (p.spelled ++ parts) :=
  have hword : IsWord (TokenKind.ident p.name).text.toList := hname
  keptApart_int (keptApart_word hword h)

theorem follows_more (hnames : ∀ p ∈ ps, IsWord p.name.toList) (h : Follows parts) :
    Follows (ps.flatMap (fun q => (.comma, [' ']) :: q.spelled) ++ parts) := by
  induction ps with
  | nil => exact h
  | cons p ps ih =>
    obtain ⟨hp, hps⟩ := List.forall_mem_cons.mp hnames
    have hcomma : TokenKind.comma.text.toList = [','] := rfl
    simpa using follows_mark hcomma (by decide) (.blank rfl .nil)
      (keptApart_parameter hp (ih hps))

theorem keptApart_parameters (hnames : ∀ p ∈ ps, IsWord p.name.toList) (h : Follows parts) :
    KeptApart (spelledParameters ps ++ parts) := by
  cases ps with
  | nil => exact h.1
  | cons p ps =>
    obtain ⟨hp, hps⟩ := List.forall_mem_cons.mp hnames
    rw [spelledParameters, List.append_assoc]
    exact keptApart_parameter hp (follows_more hps h)

theorem Prototype.keptApart_spelled (hname : IsWord f.name.toList)
    (hparams : ∀ p ∈ f.params, IsWord p.name.toList) : KeptApart f.spelled := by
  have hword : IsWord (TokenKind.ident f.name).text.toList := hname
  have hsemicolon : Follows [(.semicolon, [])] :=
    follows_mark (c := ';') rfl (by decide) .nil .nil
  have hclose : Follows [(.rparen, []), (.semicolon, [])] :=
    follows_mark (c := ')') rfl (by decide) .nil hsemicolon.1
  have hopen : Follows ((.lparen, []) :: (spelledParameters f.params ++ _)) :=
    follows_mark (c := '(') rfl (by decide) .nil (keptApart_parameters hparams hclose)
  exact keptApart_int (keptApart_word hword hopen)

namespace Grammar

theorem map_fst_spelledParameters (ps : List Parameter) :
    (spelledParameters ps).map (·.1)
      = commaSeparated (ps.map fun p => [.intWord, .ident p.name]) := by
  cases ps with
  | nil => rfl
  | cons p ps =>
    rw [List.map_cons, commaSeparated_cons]
    simp [spelledParameters, Parameter.spelled, List.map_flatMap, List.flatMap_map]

theorem DerivesPrototype.map_fst_spelled (h : DerivesPrototype ks f) :
    f.spelled.map (·.1) = ks ++ [.semicolon] := by
  obtain ⟨name, typeSpan, nameSpan, span, params, hparams⟩ := h
  have hkinds : params.map (·.1) = (params.map (·.2)).map fun p => [.intWord, .ident p.name] := by
    rw [List.map_map]
    refine List.map_congr_left fun a ha => ?_
    obtain ⟨ks, p⟩ := a
    cases hparams _ ha
    rfl
  simp [Prototype.spelled, map_fst_spelledParameters, hkinds]

/-- A signature with a semicolon is cut into the tokens of its prototype and a semicolon. -/
theorem DerivesPrototype.kinds_lex_signature (h : DerivesPrototype ks f)
    (hk : ∀ k ∈ ks, k.Spellable) :
    (Token.lex (f.signature ++ ";")).map (·.kind) = ks ++ [.semicolon] ++ [.eof] := by
  have hparts : ∀ part ∈ f.spelled, part.1.Spellable := by
    intro part hpart
    have hmem : part.1 ∈ ks ++ [.semicolon] := h.map_fst_spelled ▸ List.mem_map_of_mem hpart
    rcases List.mem_append.mp hmem with hmem | hmem
    · exact hk _ hmem
    · rw [List.mem_singleton.mp hmem]
      trivial
  have hname : IsWord f.name.toList :=
    (hparts (.ident f.name, []) (by simp [Prototype.spelled])).1
  have hparams : ∀ p ∈ f.params, IsWord p.name.toList := fun p hp =>
    (hparts (.ident p.name, []) (by simp [Prototype.spelled, ident_mem_spelledParameters hp])).1
  have hread := kinds_lex_keptApart .nil hparts (f.keptApart_spelled hname hparams)
  have htypes := h.typeName_eq
  simp only [Prototype.typeNames, List.forall_mem_cons, List.forall_mem_map] at htypes
  rwa [f.spell_spelled htypes.1 htypes.2, String.ofList_toList, h.map_fst_spelled] at hread

end Grammar

def SourceUnit.prototypes (u : SourceUnit) : List Prototype :=
  u.declarations.map (·.prototype) ++ u.definitions.map (·.prototype)

namespace Grammar

theorem DerivesUnit.exists_prototype {u : SourceUnit} (h : DerivesUnit ks u)
    (hf : f ∈ u.prototypes) : ∃ ks', DerivesPrototype ks' f ∧ ks' ⊆ ks := by
  induction h with
  | nil => cases hf
  | declaration hd _ ih =>
    obtain ⟨span, hp⟩ := hd
    rcases List.mem_cons.mp hf with rfl | hf
    · exact ⟨_, hp, by simp⟩
    · obtain ⟨ks', hks', hsub⟩ := ih hf
      exact ⟨ks', hks', List.subset_append_of_subset_right _ hsub⟩
  | definition hd _ ih =>
    obtain ⟨span, hp, hb⟩ := hd
    have hf := List.perm_middle.mem_iff.mp hf
    rcases List.mem_cons.mp hf with rfl | hf
    · exact ⟨_, hp, by simp⟩
    · obtain ⟨ks', hks', hsub⟩ := ih hf
      exact ⟨ks', hks', List.subset_append_of_subset_right _ hsub⟩

end Grammar

namespace Program

open Grammar

variable {source name : String} {p : Program}

theorem exists_derivesPrototype (h : ofSource source name = .ok p) (hf : f ∈ p.unit.prototypes) :
    ∃ ks, DerivesPrototype ks f ∧ ∀ k ∈ ks, k.Spellable := by
  obtain ⟨ks, hks⟩ := Token.lex_closes source
  have hu := derivesUnit_of_parse hks h
  obtain ⟨ks', hks', hsub⟩ := hu.exists_prototype hf
  refine ⟨ks', hks', fun k hk => ?_⟩
  obtain ⟨t, ht, rfl⟩ := List.mem_map.mp (hks.1 ▸ List.mem_append_left _ (hsub hk))
  have hterminal := List.all_eq_true.mp hu.terminal _ (hsub hk)
  simp only [Terminal, Bool.and_eq_true, bne_iff_ne, Option.isNone_iff_eq_none] at hterminal
  exact ((Token.tiling_lex source).spellable ht hterminal.2).resolve_right hterminal.1

theorem read_signature (h : ofSource source name = .ok p) (hf : f ∈ p.unit.prototypes)
    (name' : String) : ∃ q d, ofSource (f.signature ++ ";") name' = .ok q ∧
      q.unit.declarations = [d] ∧ q.unit.definitions = [] ∧
        d.prototype.relabel spanless = f.relabel spanless := by
  obtain ⟨ks, hks, hspellable⟩ := exists_derivesPrototype h hf
  have hd : DerivesDeclaration (ks ++ [.semicolon]) { prototype := f, span := .dummy } :=
    .intro .dummy hks
  have hu := DerivesUnit.declaration hd .nil
  rw [List.append_nil] at hu
  obtain ⟨q, hq, hunit⟩ := parse_of_derivesUnit (hks.kinds_lex_signature hspellable) hu
  obtain ⟨hdeclarations, hdefinitions, -⟩ := SourceUnit.mk.inj hunit
  obtain ⟨d, hd, hdf⟩ := List.map_eq_singleton_iff.mp hdeclarations
  exact ⟨q, d, hq, hd, List.map_eq_nil_iff.mp hdefinitions, congrArg (·.prototype) hdf⟩

/-- The signature of a prototype that was read from a source is, with a semicolon, a source with
one declaration and no definition, whose prototype is the same up to spans. Two prototypes that
were read, from one source or from two, have the same signature only if they have the same name and
the same names of parameters in the same order. -/
theorem parse_signature (h : ofSource source name = .ok p) (hf : f ∈ p.unit.prototypes) :
    (∀ name', ∃ q d, ofSource (f.signature ++ ";") name' = .ok q ∧
      q.unit.declarations = [d] ∧ q.unit.definitions = [] ∧
        d.prototype.relabel spanless = f.relabel spanless) ∧
    ∀ source' name' p', ofSource source' name' = .ok p' → ∀ g ∈ p'.unit.prototypes,
      g.signature = f.signature →
        g.name = f.name ∧ g.params.map (·.name) = f.params.map (·.name) := by
  refine ⟨read_signature h hf, fun source' name' p' h' g hg hsignature => ?_⟩
  obtain ⟨q, d, hq, hd, -, hdf⟩ := read_signature h hf name
  obtain ⟨q', d', hq', hd', -, hdg⟩ := read_signature h' hg name
  rw [hsignature, hq] at hq'
  cases hq'
  rw [hd] at hd'
  cases hd'
  have hgf : g.relabel spanless = f.relabel spanless := hdg.symm.trans hdf
  have hnames := congrArg (fun r => r.params.map (·.name)) hgf
  simp only [Prototype.relabel, List.map_map] at hnames
  exact ⟨congrArg (·.name) hgf, hnames⟩

def redeclared : String :=
  "int f (int a,int /* b */ _b2);\nint f(int a, int _b2) \x7b return f(a, 1); \x7d"

theorem parse_signature_redeclared : ∃ p f g, ofSource redeclared "m" = .ok p ∧
    p.unit.prototypes = [f, g] ∧ f.signature = "int f(int a, int _b2)" ∧
    (∃ q d, ofSource (f.signature ++ ";") "n" = .ok q ∧ q.unit.declarations = [d] ∧
      q.unit.definitions = [] ∧ d.prototype.relabel spanless = f.relabel spanless) ∧
    g.signature = f.signature ∧ g.name = f.name ∧
      g.params.map (·.name) = f.params.map (·.name) := by
  have hsignatures : (ofSource redeclared "m").toOption.map (·.unit.prototypes.map (·.signature))
      = some ["int f(int a, int _b2)", "int f(int a, int _b2)"] := by
    decide +kernel
  cases h : ofSource redeclared "m" with
  | error failure =>
    rw [h] at hsignatures
    cases hsignatures
  | ok p =>
    rw [h] at hsignatures
    obtain ⟨f, fs, hp, hf, hfs⟩ := List.map_eq_cons_iff.mp (Option.some.inj hsignatures)
    obtain ⟨g, rfl, hg⟩ := List.map_eq_singleton_iff.mp hfs
    have hmem : f ∈ p.unit.prototypes ∧ g ∈ p.unit.prototypes := by simp [hp]
    have hgf : g.signature = f.signature := hg.trans hf.symm
    obtain ⟨hread, hsame⟩ := parse_signature h hmem.1
    exact ⟨p, f, g, rfl, hp, hf, hread "n", hgf, hsame redeclared "m" p h g hmem.2 hgf⟩

end Program

end MiniC
