import MiniC.Proofs.Grammar.Derivation

/-! # Rendering expressions

An expression is written out with a pair of parentheses where its sort is looser than what its
place demands. More pairs can be asked for around every subexpression, which its path from the
root names. The rendering derives the expression.
-/

namespace MiniC

namespace Rank

def tightness : Rank → Nat
  | assignment => 0
  | additive => 1
  | multiplicative => 2
  | call => 3
  | primary => 4

end Rank

namespace BinaryOp

def leftRank : BinaryOp → Rank
  | assign => .primary
  | add | sub => .additive
  | mul | div => .multiplicative

def rightRank : BinaryOp → Rank
  | assign => .additive
  | add | sub => .multiplicative
  | mul | div => .call

end BinaryOp

namespace Expr

/-- The trees that can be written out: each assignment has a name on its left, and nothing is
bound. -/
inductive Printable : Expr → Prop
  | identifier (name : String) (span : Span) : Printable (.identifier name span none)
  | number (value : Int32) (span : Span) : Printable (.number value span)
  | assign {e : Expr} (name : String) (nameSpan span : Span) : Printable e →
      Printable (.binary .assign (.identifier name nameSpan none) e span)
  | binary {op : BinaryOp} {lhs rhs : Expr} (span : Span) : op ≠ .assign → Printable lhs →
      Printable rhs → Printable (.binary op lhs rhs span)
  | call (callee : String) (calleeSpan : Span) (args : List Expr) (span : Span) :
      (∀ a ∈ args, Printable a) → Printable (.call callee calleeSpan args span none)

def rank : Expr → Rank
  | .identifier .. | .number .. | .parameter .. => .primary
  | .binary op .. => op.rank
  | .call .. => .call

end Expr

namespace Grammar

/-- The number of redundant pairs around each subexpression, named by its path from the root. -/
abbrev Redundancy := List Nat → Nat

namespace Redundancy

def none : Redundancy := fun _ => 0

def part (extra : Redundancy) (i : Nat) : Redundancy := fun path => extra (i :: path)

/-- The pairs within the left operand, of which the name before `=` has none. -/
def left (extra : Redundancy) : BinaryOp → Redundancy
  | .assign => none
  | .add | .sub | .mul | .div => extra.part 0

end Redundancy

def parenthesize : Nat → List TokenKind → List TokenKind
  | 0, ks => ks
  | n + 1, ks => .lparen :: (parenthesize n ks ++ [.rparen])

/-- How many pairs precedence demands around an expression of the sort `r`: one, if it is looser
than what its place demands. -/
def neededPairs (demand r : Rank) : Nat := if r.tightness < demand.tightness then 1 else 0

mutual

/-- The kinds of an expression at a place. -/
def render (extra : Redundancy) (demand : Rank) : Expr → List TokenKind
  | .identifier name _ _ =>
    parenthesize (neededPairs demand .primary + extra []) [.ident name]
  | .number value _ =>
    parenthesize (neededPairs demand .primary + extra []) [.number value]
  | .parameter p =>
    parenthesize (neededPairs demand .primary + extra []) [.ident p.name]
  | .binary op lhs rhs _ =>
    parenthesize (neededPairs demand op.rank + extra [])
      (render (extra.left op) op.leftRank lhs ++ op.token ::
        render (extra.part 1) op.rightRank rhs)
  | .call callee _ args _ _ =>
    parenthesize (neededPairs demand .call + extra [])
      (.ident callee :: .lparen :: (commaSeparated (renderAll extra 0 args) ++ [.rparen]))

def renderAll (extra : Redundancy) (i : Nat) : List Expr → List (List TokenKind)
  | [] => []
  | e :: es => render (extra.part i) .assignment e :: renderAll extra (i + 1) es

end

variable {r r' : Rank} {ks : List TokenKind} {e : Expr}

/-- A tighter expression stands wherever a looser one is allowed. -/
theorem Derives.loosen (h : Derives r' ks e) (hr : r.tightness ≤ r'.tightness) :
    Derives r ks e := by
  have h₃ : Derives .primary ks e → Derives .call ks e := .ofPrimary
  have h₂ : Derives .call ks e → Derives .multiplicative ks e := .ofCall
  have h₁ : Derives .multiplicative ks e → Derives .additive ks e := .ofMultiplicative
  have h₀ : Derives .additive ks e → Derives .assignment ks e := .ofAdditive
  cases r <;> cases r' <;> first | exact absurd hr (by decide) | simp_all

theorem Derives.parenthesize (h : Derives r' ks e) (n : Nat)
    (hn : r'.tightness < r.tightness → 0 < n) : Derives r (parenthesize n ks) e := by
  induction n generalizing r with
  | zero => exact h.loosen (Nat.le_of_not_lt fun hr => Nat.lt_irrefl 0 (hn hr))
  | succ n ih =>
    have hp : Derives .primary (.lparen :: (Grammar.parenthesize n ks ++ [.rparen])) e :=
      .group (ih fun hr => absurd hr (Nat.not_lt_zero _))
    exact hp.loosen (by cases r <;> decide)

theorem Derives.at_place (h : Derives r' ks e) (demand : Rank) (n : Nat) :
    Derives demand (Grammar.parenthesize (neededPairs demand r' + n) ks) e := by
  refine h.parenthesize _ fun hr => ?_
  rw [neededPairs, if_pos hr]
  omega

theorem derives_renderAll {args : List Expr}
    (h : ∀ a ∈ args, ∀ extra demand, Derives demand (render extra demand a) a)
    (extra : Redundancy) (i : Nat) :
    ∃ parts : List (List TokenKind × Expr), (∀ a ∈ parts, Derives .assignment a.1 a.2) ∧
      parts.map (·.1) = renderAll extra i args ∧ parts.map (·.2) = args := by
  induction args generalizing i with
  | nil => exact ⟨[], by simp, by simp [renderAll], rfl⟩
  | cons a args ih =>
    obtain ⟨parts, hparts, hks, hargs⟩ := ih (fun b hb => h b (List.mem_cons_of_mem _ hb)) (i + 1)
    refine ⟨(render (extra.part i) .assignment a, a) :: parts, ?_, ?_, ?_⟩
    · exact List.forall_mem_cons.mpr ⟨h a (by simp) _ _, hparts⟩
    · rw [List.map_cons, hks, renderAll]
    · rw [List.map_cons, hargs]

/-- The kinds that an expression is written out with derive it. -/
theorem derives_render (he : e.Printable) (extra : Redundancy) (demand : Rank) :
    Derives demand (render extra demand e) e := by
  induction he generalizing extra demand with
  | identifier name span =>
    rw [render]
    exact Derives.at_place (.identifier name span) _ _
  | number value span =>
    rw [render]
    exact Derives.at_place (.number value span) _ _
  | assign name nameSpan span _ ih =>
    rw [render, render]
    exact Derives.at_place (.assign name nameSpan span (ih _ _)) _ _
  | @binary op lhs rhs span hop _ _ ih ih' =>
    rw [render]
    cases op with
    | assign => exact absurd rfl hop
    | add => exact Derives.at_place (.sum rfl span (ih _ _) (ih' _ _)) _ _
    | sub => exact Derives.at_place (.sum rfl span (ih _ _) (ih' _ _)) _ _
    | mul => exact Derives.at_place (.product rfl span (ih _ _) (ih' _ _)) _ _
    | div => exact Derives.at_place (.product rfl span (ih _ _) (ih' _ _)) _ _
  | call callee calleeSpan args span _ ih =>
    obtain ⟨parts, hparts, hks, hargs⟩ := derives_renderAll ih extra 0
    have hd := Derives.call callee calleeSpan span parts hparts
    rw [hks, hargs] at hd
    rw [render]
    exact hd.at_place _ _

end Grammar

end MiniC
