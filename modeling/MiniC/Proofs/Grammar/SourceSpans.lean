import Mathlib.Data.List.Pairwise
import MiniC.Proofs.Grammar.Earliest
import MiniC.Proofs.Grammar.Extents
import MiniC.Proofs.Span.Merging

/-! # The spans of a program

The items of a source stand in one row, of which a program keeps declarations and definitions
apart. All its nodes are nested, in every source short enough for its positions to be counted. Its
own span is merged from the spans of the items, whatever they are, and not only from those of a
source.
-/

namespace MiniC

/-- One of the spans ends before the other one begins. -/
def Span.Apart (s t : Span) : Prop := s.Precedes t ∨ t.Precedes s

namespace Grammar

def Item.declaration? : Item → Option FunctionDeclaration
  | declaration d => some d
  | definition _ => none

def Item.definition? : Item → Option FunctionDefinition
  | declaration _ => none
  | definition d => some d

variable {tokens : List Token} {p q : Position} {is : List Item} {d : FunctionDeclaration}
  {f : FunctionDefinition}

theorem mem_of_declaration? (h : d ∈ is.filterMap Item.declaration?) : .declaration d ∈ is := by
  obtain ⟨i, hi, hd⟩ := List.mem_filterMap.mp h
  cases i with
  | declaration d' => exact Option.some.inj hd ▸ hi
  | definition f => cases hd

theorem mem_of_definition? (h : f ∈ is.filterMap Item.definition?) : .definition f ∈ is := by
  obtain ⟨i, hi, hf⟩ := List.mem_filterMap.mp h
  cases i with
  | declaration d => cases hf
  | definition f' => exact Option.some.inj hf ▸ hi

theorem declarations_sublist (is : List Item) :
    ((is.filterMap Item.declaration?).map (·.span)).Sublist (is.map (·.extent.span)) := by
  induction is with
  | nil => exact .refl _
  | cons i is ih =>
    cases i with
    | declaration d => exact ih.cons_cons _
    | definition f => exact ih.cons _

theorem definitions_sublist (is : List Item) :
    ((is.filterMap Item.definition?).map (·.span)).Sublist (is.map (·.extent.span)) := by
  induction is with
  | nil => exact .refl _
  | cons i is ih =>
    cases i with
    | declaration d => exact ih.cons _
    | definition f => exact ih.cons_cons _

theorem items_laid {declarations : List FunctionDeclaration}
    {definitions : List FunctionDefinition} {c : Cursor} {u : SourceUnit}
    (ho : Token.InOrder tokens) (hc : c.On tokens)
    (h : items declarations definitions c = .ok u) :
    ∃ (is : List Item) (q : Position),
      u.declarations = declarations.reverse ++ is.filterMap Item.declaration? ∧
      u.definitions = definitions.reverse ++ is.filterMap Item.definition? ∧
        Laid tokens c.span.start (is.map (·.extent)) q := by
  fun_induction items declarations definitions c with
  | case1 declarations definitions c hend =>
    cases h
    exact ⟨[], _, by simp, by simp, .nil (le_refl _)⟩
  | case2 => cases h
  | case3 declarations definitions c hend c' hb d hi ih =>
    obtain ⟨hlaid, hc'⟩ := lays_item ho _ _ _ hc hi
    obtain ⟨is, q, hdeclarations, hdefinitions, hrest⟩ := ih hc' h
    exact ⟨.declaration d :: is, q, by simp [hdeclarations, Item.declaration?],
      hdefinitions, hlaid.append hrest⟩
  | case4 declarations definitions c hend c' hb f hi ih =>
    obtain ⟨hlaid, hc'⟩ := lays_item ho _ _ _ hc hi
    obtain ⟨is, q, hdeclarations, hdefinitions, hrest⟩ := ih hc' h
    exact ⟨.definition f :: is, q, hdeclarations, by simp [hdefinitions, Item.definition?],
      hlaid.append hrest⟩
  | case5 => cases h

/-- All items of a row are apart from each other, in whatever lists they are kept. -/
theorem pairwise_apart (h : Laid tokens p (is.map (·.extent)) q) :
    ((is.filterMap Item.declaration?).map (·.span)
      ++ (is.filterMap Item.definition?).map (·.span)).Pairwise Span.Apart := by
  have hrow : (is.map (·.extent.span)).Pairwise Span.Precedes := by
    simpa [Function.comp_def] using h.row.pairwise
  have hapart : is.Pairwise fun i j => i.extent.span.Apart j.extent.span :=
    (List.pairwise_map.mp hrow).imp Or.inl
  have hsymm : Std.Symm fun i j : Item => i.extent.span.Apart j.extent.span :=
    ⟨fun _ _ => Or.symm⟩
  refine List.pairwise_append.mpr ⟨(hrow.sublist (declarations_sublist is)).imp Or.inl,
    (hrow.sublist (definitions_sublist is)).imp Or.inl, ?_⟩
  rw [List.forall_mem_map]
  intro d hd
  rw [List.forall_mem_map]
  intro f hf
  exact hapart.forall (mem_of_declaration? hd) (mem_of_definition? hf) (by simp)

end Grammar

namespace Program

open Grammar

variable {tokens : List Token} {p : Program} {name source : String}

def itemSpans (p : Program) : List Span :=
  p.unit.declarations.map (·.span) ++ p.unit.definitions.map (·.span)

theorem itemSpans_ne_nil (h : p.unit.isEmpty = false) : p.itemSpans ≠ [] := by
  intro hnil
  simp only [itemSpans, List.append_eq_nil_iff, List.map_eq_nil_iff] at hnil
  simp [SourceUnit.isEmpty, hnil] at h

theorem nested_program (hproper : ∀ s ∈ p.itemSpans, s.Proper)
    (hdeclarations : (p.unit.declarations.map (·.span)).Pairwise Span.Precedes)
    (hdefinitions : (p.unit.definitions.map (·.span)).Pairwise Span.Precedes) :
    (Node.program p).Nested tokens where
  proper := by
    rw [Node.span?]
    cases hempty : p.unit.isEmpty with
    | true => simp
    | false =>
      rintro s ⟨⟩
      obtain ⟨s, hs⟩ := List.exists_mem_of_ne_nil _ (itemSpans_ne_nil hempty)
      have hspan : p.span.Proper := (Span.mergeAll_covers hs (hproper s hs)).proper (hproper s hs)
      exact ⟨hspan.ne_dummy, hspan⟩
  covers := by
    rw [Node.span?, Node.rows]
    cases p.unit.isEmpty with
    | true => simp
    | false =>
      rintro s ⟨⟩ row hrow t ht
      have hitem : t ∈ p.itemSpans := by
        rw [itemSpans, List.mem_append]
        simp only [List.mem_cons, List.not_mem_nil, or_false] at hrow
        rcases hrow with rfl | rfl
        · exact Or.inl ht
        · exact Or.inr ht
      exact Span.mergeAll_covers hitem (hproper t hitem)
  ordered := by
    rw [Node.rows, List.forall_mem_cons, List.forall_mem_singleton]
    exact ⟨hdeclarations, hdefinitions⟩
  written := by simp [Node.words]

theorem nested_unit {u : SourceUnit}
    (hdeclarations : (u.declarations.map (·.span)).Pairwise Span.Precedes)
    (hdefinitions : (u.definitions.map (·.span)).Pairwise Span.Precedes) :
    (Node.unit u).Nested tokens where
  proper := by simp [Node.span?]
  covers := by simp [Node.span?]
  ordered := by
    rw [Node.rows, List.forall_mem_cons, List.forall_mem_singleton]
    exact ⟨hdeclarations, hdefinitions⟩
  written := by simp [Node.words]

/-- Every node of a program that was read from tokens in order is nested, and its items are
apart. -/
theorem nested_of_parse (ho : Token.InOrder tokens) (heof : .eof ∈ tokens.map (·.kind))
    (h : parse tokens name = .ok p) :
    (∀ n ∈ p.nodes, n.Nested tokens) ∧ p.itemSpans.Pairwise Span.Apart := by
  have hc : (Cursor.ofTokens tokens).On tokens := (Cursor.reaches_refl _).on heof
  obtain ⟨is, q, hdeclarations, hdefinitions, hlaid⟩ := items_laid ho hc (parse_eq_ok_iff.mp h).2
  rw [List.reverse_nil, List.nil_append] at hdeclarations hdefinitions
  have hrow : Span.Row (Cursor.ofTokens tokens).span.start (is.map (·.extent.span)) q := by
    simpa [Function.comp_def] using hlaid.row
  have hdecls := hrow.sublist (declarations_sublist is)
  have hdefs := hrow.sublist (definitions_sublist is)
  have hapart := pairwise_apart hlaid
  rw [← hdeclarations] at hdecls hapart
  rw [← hdefinitions] at hdefs hapart
  have hproper : ∀ s ∈ p.itemSpans, s.Proper := by
    intro s hs
    rcases List.mem_append.mp hs with hs | hs
    · exact (hdecls.span hs).2.1
    · exact (hdefs.span hs).2.1
  refine ⟨?_, hapart⟩
  intro n hn
  rw [nodes, List.mem_cons, SourceUnit.nodes, List.mem_cons, List.mem_append, List.mem_flatMap,
    List.mem_flatMap] at hn
  rcases hn with rfl | rfl | ⟨d, hd, hn⟩ | ⟨f, hf, hn⟩
  · exact nested_program hproper hdecls.pairwise hdefs.pairwise
  · exact nested_unit hdecls.pairwise hdefs.pairwise
  · rw [hdeclarations] at hd
    exact hlaid.nested _ (List.mem_map_of_mem (mem_of_declaration? hd)) n hn
  · rw [hdefinitions] at hf
    exact hlaid.nested _ (List.mem_map_of_mem (mem_of_definition? hf)) n hn

/-- In a program read from a source that is not too long for its positions, the span of every node
has some text, holds what is inside it in the order of the source, and names, numbers and types
have the spans of their tokens. No two items overlap. -/
theorem nested_of_source (hsize : source.utf8ByteSize < 2 ^ 32 - 1)
    (h : ofSource source name = .ok p) :
    (∀ n ∈ p.nodes, n.Nested (Token.lex source)) ∧ p.itemSpans.Pairwise Span.Apart := by
  obtain ⟨ks, hks⟩ := Token.lex_closes source
  exact nested_of_parse (Token.inOrder_lex hsize) (by simp [hks.1]) h

/-- A declaration between two definitions, one of which takes several lines. -/
def interleaved : String :=
  "int f(int a, int b) \x7b\n  int c;\n  c = (a + b) * g(a, 1);\n  return c;\n\x7d\n\n" ++
    "int g(int a, int b); int g(int a, int b) \x7b \x7d"

theorem nested_interleaved : ∃ p, ofSource interleaved "m" = .ok p ∧ p.itemSpans.length = 3 ∧
    (∀ n ∈ p.nodes, n.Nested (Token.lex interleaved)) ∧ p.itemSpans.Pairwise Span.Apart := by
  have hitems : ((ofSource interleaved "m").toOption.map (·.itemSpans.length)) = some 3 := by
    decide +kernel
  cases h : ofSource interleaved "m" with
  | error failure =>
    rw [h] at hitems
    cases hitems
  | ok p =>
    rw [h] at hitems
    exact ⟨p, rfl, Option.some.inj hitems, nested_of_source (by decide +kernel) h⟩

/-- Merging joins spans, so the span of a program does not depend on the order of its items, and it
contains every position that the span of an item contains. -/
theorem span_joins : Span.Joins Span.merge ∧
    (∀ p q : Program, p.itemSpans.Perm q.itemSpans → p.span = q.span) ∧
    ∀ p : Program, ∀ s ∈ p.itemSpans, ∀ x, s.contains x = true → p.span.contains x = true := by
  refine ⟨Span.joins_merge, fun p q h => ?_, fun p s hs x hx => ?_⟩
  · exact Span.mergeAll_perm h
  · exact Span.contains_mergeAll hs hx

def placed (spans : List Span) : Program where
  name := "m"
  unit := { declarations := spans.map fun span =>
    { prototype := ⟨⟨"int", .dummy⟩, "f", .dummy, [], .dummy⟩, span } }

/-- A span that ends before it starts, and one that starts at the dummy position. -/
theorem span_joins_malformed :
    let s : Span := ⟨⟨3, 1⟩, ⟨1, 2⟩⟩
    let t : Span := ⟨.dummy, ⟨2, 0⟩⟩
    (placed [s, .dummy, t]).itemSpans.Perm (placed [t, s, .dummy]).itemSpans ∧
      (placed [s, .dummy, t]).span = (placed [t, s, .dummy]).span ∧
      t ∈ (placed [t, s, .dummy]).itemSpans ∧ t.contains ⟨1, 9⟩ = true ∧
      (placed [t, s, .dummy]).span.contains ⟨1, 9⟩ = true := by
  intro s t
  obtain ⟨-, hperm, hcontains⟩ := span_joins
  have hitems : (placed [s, .dummy, t]).itemSpans.Perm (placed [t, s, .dummy]).itemSpans := by
    decide
  have ht : t ∈ (placed [t, s, .dummy]).itemSpans := by decide
  have hx : t.contains ⟨1, 9⟩ = true := by decide
  exact ⟨hitems, hperm _ _ hitems, ht, hx, hcontains _ t ht _ hx⟩

end Program

end MiniC
