import MiniC.Proofs.Span
import MiniC.Proofs.Tree.Visited
import MiniC.Token.Lexer

/-! # Nested nodes

A node is nested if its span has some text, holds the spans of what is inside it, and what is
inside it stands in order. What a node writes down itself, a name, a number or a type, stands
among the tokens. A tree is put together from parts that stand in a row: the first and the last of
them give the span, and the row is what is inside.
-/

namespace MiniC

namespace Node

/-- A unit has no span, and neither has a program without items. -/
def span? : Node → Option Span
  | program p => if p.unit.isEmpty then none else some p.span
  | unit _ => none
  | declaration d => some d.span
  | definition d => some d.span
  | prototype p => some p.span
  | body b => some b.span
  | ret _ span => some span
  | decl d => some d.span
  | parameter p => some p.span
  | expr e => some e.span

/-- The spans of what is inside a node, in the order of the source. Declarations and definitions
are two rows, which may stand mixed. -/
def rows : Node → List (List Span)
  | program p => [p.unit.declarations.map (·.span), p.unit.definitions.map (·.span)]
  | unit u => [u.declarations.map (·.span), u.definitions.map (·.span)]
  | declaration d => [[d.prototype.span]]
  | definition d => [[d.prototype.span, d.body.span]]
  | prototype p => [p.returnType.span :: p.nameSpan :: p.params.map (·.span)]
  | body b => [b.locals.map (·.span) ++ b.statements.map (·.span)]
  | ret value _ => [[value.span]]
  | decl d => [[d.type.span, d.nameSpan]]
  | parameter p => [[p.type.span, p.nameSpan]]
  | expr (.identifier ..) | expr (.number ..) => [[]]
  | expr (.parameter p) => [[p.type.span, p.nameSpan]]
  | expr (.binary _ lhs rhs _) => [[lhs.span, rhs.span]]
  | expr (.call _ calleeSpan args _ _) => [calleeSpan :: args.map (·.span)]

end Node

def TypeName.word (t : TypeName) : Token := ⟨.ofWord t.name.toList, t.span⟩

/-- The tokens that a node writes down itself: types, names and numbers. -/
def Node.words : Node → List Token
  | prototype p => [p.returnType.word, ⟨.ident p.name, p.nameSpan⟩]
  | decl d => [d.type.word, ⟨.ident d.name, d.nameSpan⟩]
  | parameter p => [p.type.word, ⟨.ident p.name, p.nameSpan⟩]
  | expr (.identifier name span _) => [⟨.ident name, span⟩]
  | expr (.number value span) => [⟨.number value, span⟩]
  | expr (.parameter p) => [p.type.word, ⟨.ident p.name, p.nameSpan⟩]
  | expr (.call callee calleeSpan _ _ _) => [⟨.ident callee, calleeSpan⟩]
  | expr (.binary ..) | program _ | unit _ | declaration _ | definition _ | body _ | ret .. => []

/-- The spans of a node and of what is inside it fit, and its words are tokens. -/
structure Node.Nested (tokens : List Token) (n : Node) : Prop where
  proper : ∀ s ∈ n.span?, s ≠ .dummy ∧ s.Proper
  covers : ∀ s ∈ n.span?, ∀ row ∈ n.rows, ∀ t ∈ row, s.Covers t
  ordered : ∀ row ∈ n.rows, row.Pairwise Span.Precedes
  written : ∀ t ∈ n.words, t ∈ tokens

/-- A part of a tree as it stands in a row: its span and its nodes. -/
structure Extent where
  span : Span
  nodes : List Node

def Span.extent (s : Span) : Extent := ⟨s, []⟩

def Expr.extent (e : Expr) : Extent := ⟨e.span, e.parts.map (·.node)⟩

def Parameter.extent (p : Parameter) : Extent := ⟨p.span, [.parameter p]⟩

def VariableDeclaration.extent (d : VariableDeclaration) : Extent := ⟨d.span, [.decl d]⟩

def Stmt.extent (s : Stmt) : Extent := ⟨s.span, s.nodes⟩

def FunctionBody.extent (b : FunctionBody) : Extent := ⟨b.span, b.nodes⟩

def Prototype.extent (p : Prototype) : Extent := ⟨p.span, p.nodes⟩

def FunctionDeclaration.extent (d : FunctionDeclaration) : Extent := ⟨d.span, d.nodes⟩

def FunctionDefinition.extent (d : FunctionDefinition) : Extent := ⟨d.span, d.nodes⟩

/-- The parts stand in a row between two positions, and their nodes are nested. -/
structure Laid (tokens : List Token) (p : Position) (parts : List Extent) (q : Position) :
    Prop where
  row : Span.Row p (parts.map (·.span)) q
  nested : ∀ a ∈ parts, ∀ n ∈ a.nodes, n.Nested tokens

variable {tokens : List Token} {n : Node} {p q r : Position} {parts parts' before m : List Extent}
  {s : Span} {a b w : Extent}

theorem Node.nested_of_row {l : List Span} (hspan : n.span? = some s) (hrows : n.rows = [l])
    (hproper : s.Proper) (hrow : Span.Row s.start l s.stop) (hwords : ∀ t ∈ n.words, t ∈ tokens) :
    n.Nested tokens where
  proper := by
    rw [hspan]
    rintro s ⟨⟩
    exact ⟨hproper.ne_dummy, hproper⟩
  covers := by
    rw [hspan, hrows]
    rintro s ⟨⟩ row hl t ht
    obtain rfl := List.mem_singleton.mp hl
    obtain ⟨hstart, -, hstop⟩ := hrow.span ht
    exact ⟨hstart, hstop⟩
  ordered := by
    rw [hrows]
    exact List.forall_mem_singleton.mpr hrow.pairwise
  written := hwords

namespace Laid

theorem nil (h : p ≤ q) : Laid tokens p [] q := ⟨h, by simp⟩

theorem to_le (h : Laid tokens p parts q) (hq : q ≤ r) : Laid tokens p parts r :=
  ⟨h.row.to_le hq, h.nested⟩

theorem append (h : Laid tokens p parts q) (h' : Laid tokens q parts' r) :
    Laid tokens p (parts ++ parts') r where
  row := by
    rw [List.map_append]
    exact h.row.append h'.row
  nested := List.forall_mem_append.mpr ⟨h.nested, h'.nested⟩

theorem sublist (h : Laid tokens p parts q) (hs : parts'.Sublist parts) :
    Laid tokens p parts' q :=
  ⟨h.row.sublist (hs.map _), fun a ha => h.nested a (hs.subset ha)⟩

theorem leaf {t : Token} (h : Span.Row p [t.span] q) (ht : t ∈ tokens)
    (hspan : n.span? = some t.span) (hrows : n.rows = [[]]) (hwords : n.words = [t]) :
    Laid tokens p [⟨t.span, [n]⟩] q where
  row := h
  nested := by
    have hn : n.Nested tokens := n.nested_of_row hspan hrows h.2.1 (le_of_lt h.2.1)
      (by rw [hwords]; exact List.forall_mem_singleton.mpr ht)
    simpa using hn

/-- The parts from one to another make a tree, and are what is inside of it. -/
theorem wrap {l : List Span} (h : Laid tokens p (before ++ a :: (m ++ [b])) q)
    (hmerge : w.span = a.span.merge b.span)
    (hnodes : w.nodes ⊆ n :: (a :: (m ++ [b])).flatMap (·.nodes))
    (hspan : n.span? = some w.span) (hrows : n.rows = [l])
    (hl : l.Sublist ((a :: (m ++ [b])).map (·.span))) (hwords : ∀ t ∈ n.words, t ∈ tokens) :
    Laid tokens p (before ++ [w]) q := by
  have hrow := h.row
  simp only [List.map_append, List.map_cons, List.map_nil] at hrow hl
  obtain ⟨mid, hbefore, hpart⟩ := hrow.split
  obtain ⟨hmerged, hinside⟩ := hpart.merge
  rw [← hmerge] at hmerged hinside
  obtain ⟨hold, hnew⟩ := List.forall_mem_append.mp h.nested
  have hn : n.Nested tokens :=
    n.nested_of_row hspan hrows hmerged.2.1 (hinside.sublist hl) hwords
  refine ⟨by simpa using hbefore.append hmerged, List.forall_mem_append.mpr ⟨hold, ?_⟩⟩
  rw [List.forall_mem_singleton]
  intro n' hn'
  rcases List.mem_cons.mp (hnodes hn') with rfl | hmem
  · exact hn
  · obtain ⟨part, hpart, hmem⟩ := List.mem_flatMap.mp hmem
    exact hnew part hpart n' hmem

theorem whole {l : List Span} (h : Laid tokens p (a :: (m ++ [b])) q)
    (hmerge : w.span = a.span.merge b.span)
    (hnodes : w.nodes ⊆ n :: (a :: (m ++ [b])).flatMap (·.nodes))
    (hspan : n.span? = some w.span) (hrows : n.rows = [l])
    (hl : l.Sublist ((a :: (m ++ [b])).map (·.span))) (hwords : ∀ t ∈ n.words, t ∈ tokens) :
    Laid tokens p [w] q := by
  rw [← List.nil_append (a :: (m ++ [b]))] at h
  exact h.wrap hmerge hnodes hspan hrows hl hwords

end Laid

end MiniC
