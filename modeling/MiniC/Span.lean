/-! # Positions and spans

A position is a line and a column, both counted from one; columns count characters.
Positions are ordered by line and then by column. A span runs from its start up to, and not
including, its end. The dummy span, which no text has, marks nodes without a place and is the
neutral element of `Span.merge`.
-/

namespace MiniC

structure Position where
  line : Nat
  col : Nat
  deriving DecidableEq, Repr, Inhabited

namespace Position

def dummy : Position := ⟨0, 0⟩

/-- The largest line or column that a position can name; counting stops there. -/
def limit : Nat := 4294967295

/-- The position of the character `col` of line `line`, each held at the limit. -/
def clamp (line col : Nat) : Position := ⟨min line limit, min col limit⟩

def advance (p : Position) (cols : Nat) : Position := { p with col := p.col + cols }

protected def lt (p q : Position) : Prop := p.line < q.line ∨ p.line = q.line ∧ p.col < q.col

instance : LT Position := ⟨Position.lt⟩

instance : LE Position := ⟨fun p q => ¬ q < p⟩

instance (p q : Position) : Decidable (p < q) :=
  inferInstanceAs (Decidable (p.line < q.line ∨ p.line = q.line ∧ p.col < q.col))

instance (p q : Position) : Decidable (p ≤ q) := inferInstanceAs (Decidable (¬ q < p))

theorem lt_def {p q : Position} :
    p < q ↔ p.line < q.line ∨ p.line = q.line ∧ p.col < q.col := Iff.rfl

theorem le_def {p q : Position} :
    p ≤ q ↔ p.line < q.line ∨ p.line = q.line ∧ p.col ≤ q.col := by
  change ¬ (q.line < p.line ∨ q.line = p.line ∧ q.col < p.col) ↔ _
  omega

def compare (p q : Position) : Ordering :=
  if p < q then .lt else if p = q then .eq else .gt

def min (p q : Position) : Position := if p ≤ q then p else q

def max (p q : Position) : Position := if p ≤ q then q else p

/-- The text `line:col`. -/
def text (p : Position) : String := toString p.line ++ ":" ++ toString p.col

end Position

structure Span where
  start : Position
  stop : Position
  deriving DecidableEq, Repr, Inhabited

namespace Span

def dummy : Span := ⟨.dummy, .dummy⟩

def point (p : Position) : Span := ⟨p, p⟩

def onLine (line col len : Nat) : Span := ⟨⟨line, col⟩, ⟨line, col + len⟩⟩

def isDummy (s : Span) : Bool := s = dummy

def isEmpty (s : Span) : Bool := s.start = s.stop

/-- The span that runs from the earlier start to the later end; a dummy span adds nothing. -/
def merge (a b : Span) : Span :=
  if a = dummy then b
  else if b = dummy then a
  else ⟨a.start.min b.start, a.stop.max b.stop⟩

def mergeAll (spans : List Span) : Span := spans.foldl merge dummy

def contains (s : Span) (p : Position) : Bool := s.start ≤ p ∧ p < s.stop

/-- A span is cited by its start. -/
def text (s : Span) : String := s.start.text

/-- Both ends, as `l:c..l:c`. -/
def fullText (s : Span) : String := s.start.text ++ ".." ++ s.stop.text

end Span

end MiniC
