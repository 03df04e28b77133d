import MiniC.Proofs.Tree.Simulation
import MiniC.Tree.Outline

/-! # The events of a walk

What a walk tells a visitor is a list of events. `Records` says without the walk what the list of
some trees is: a leaf is visited; any other node is entered and visited, then comes all that is
below it, child by child, and then the exit from the node. The walk over a program tells just this
list, and a visitor that binds nothing makes its state of it.
-/

namespace MiniC

/-- An expression as a node; a parameter is the same node wherever it stands. -/
def Expr.node : Expr → Node
  | .parameter p => .parameter p
  | e => .expr e

def Stmt.node : Stmt → Node
  | .decl d => .decl d
  | .ret value span => .ret value span
  | .expr value => value.node

namespace Node

/-- The nodes right below a node, in their order. The name that a call calls is no node. -/
def children : Node → List Node
  | program p => [unit p.unit]
  | unit u => u.declarations.map declaration ++ u.definitions.map definition
  | declaration d => [prototype d.prototype]
  | definition d => [prototype d.prototype, body d.body]
  | prototype p => p.params.map parameter
  | body b => b.locals.map decl ++ b.statements.map (·.node)
  | ret value _ => [value.node]
  | expr (.binary _ lhs rhs _) => [lhs.node, rhs.node]
  | expr (.call _ _ args _ _) => args.map (·.node)
  | expr (.identifier ..) | expr (.number ..) | expr (.parameter _) | decl _ | parameter _ => []

end Node

/-- What a visitor can be told. -/
inductive Event
  | enter (n : Node)
  | visit (n : Node)
  | exit (n : Node)
  deriving DecidableEq, Repr

/-- The events of trees that stand side by side, each given by its root. -/
inductive Records : List Node → List Event → Prop
  | nil : Records [] []
  | leaf {n : Node} {ns : List Node} {es : List Event} : n.isLeaf = true → Records ns es →
      Records (n :: ns) (.visit n :: es)
  | inner {n : Node} {ns : List Node} {below es : List Event} : n.isLeaf = false →
      Records n.children below → Records ns es →
      Records (n :: ns) (.enter n :: .visit n :: (below ++ .exit n :: es))

namespace Records

variable {n : Node} {ns ms : List Node} {es es' fs : List Event}

theorem append (h : Records ns es) (h' : Records ms fs) : Records (ns ++ ms) (es ++ fs) := by
  induction h with
  | nil => exact h'
  | leaf hn _ ih => exact .leaf hn ih
  | inner hn hbelow _ _ ih => simpa using inner hn hbelow ih

theorem node (hn : n.isLeaf = false) (h : Records n.children es) :
    Records [n] ([.enter n, .visit n] ++ es ++ [.exit n]) := by
  simpa using inner hn h .nil

/-- Trees have one record. -/
theorem unique (h : Records ns es) (h' : Records ns es') : es = es' := by
  induction h generalizing es' with
  | nil =>
    cases h'
    rfl
  | leaf hn _ ih =>
    cases h' with
    | leaf _ h' => rw [ih h']
    | inner hn' _ _ =>
      rw [hn] at hn'
      cases hn'
  | inner hn _ _ ihbelow ih =>
    cases h' with
    | leaf hn' _ =>
      rw [hn] at hn'
      cases hn'
    | inner _ hbelow h' => rw [ihbelow hbelow, ih h']

end Records

namespace Visitor

/-- The visitor that writes down all it is told. -/
def listener : Visitor (List Event) where
  enter n es := es ++ [.enter n]
  visit n es := es ++ [.visit n]
  exit n es := es ++ [.exit n]

variable {α : Type} {f : α → List Event → α × List Event} {node : α → Node}

/-- A walk that leaves each element as it is and tells the record of its node. -/
def Tells (f : α → List Event → α × List Event) (node : α → Node) : Prop :=
  ∀ a seen, ∃ es, Records [node a] es ∧ f a seen = (a, seen ++ es)

theorem Tells.walkList (h : Tells f node) (as : List α) (seen : List Event) :
    ∃ es, Records (as.map node) es ∧ walkList f as seen = (as, seen ++ es) := by
  induction as generalizing seen with
  | nil => exact ⟨[], .nil, by simp⟩
  | cons a as ih =>
    obtain ⟨es, hes, ha⟩ := h a seen
    obtain ⟨fs, hfs, has⟩ := ih (seen ++ es)
    exact ⟨es ++ fs, hes.append hfs, by simp [ha, has]⟩

theorem opened_listener (n : Node) (seen : List Event) :
    listener.visit n (listener.enter n seen) = seen ++ [.enter n, .visit n] := by
  simp [listener]

mutual

theorem walkExpr_listener (e : Expr) (seen : List Event) :
    ∃ es, Records [e.node] es ∧ listener.walkExpr e seen = (e, seen ++ es) := by
  match e with
  | .identifier .. => exact ⟨_, .leaf rfl .nil, by rw [walkExpr]; rfl⟩
  | .number .. => exact ⟨_, .leaf rfl .nil, by rw [walkExpr]; rfl⟩
  | .parameter _ => exact ⟨_, .leaf rfl .nil, by rw [walkExpr]; rfl⟩
  | .binary op lhs rhs span =>
    obtain ⟨ls, hls, hl⟩ := walkExpr_listener lhs
      (seen ++ [.enter (.expr (.binary op lhs rhs span)), .visit (.expr (.binary op lhs rhs span))])
    obtain ⟨rs, hrs, hr⟩ := walkExpr_listener rhs _
    refine ⟨_, Records.node rfl (hls.append hrs), ?_⟩
    rw [walkExpr, openExpr, opened_listener, hl]
    dsimp only
    rw [hr]
    simp [closeExpr, listener, Expr.node]
  | .call callee calleeSpan args span symbol =>
    obtain ⟨es, hes, h⟩ := walkArgs_listener args
      (seen ++ [.enter (.expr (.call callee calleeSpan args span symbol)),
        .visit (.expr (.call callee calleeSpan args span symbol))])
    have hopen : listener.openCall ⟨callee, calleeSpan, args, span, symbol⟩ seen
        = (⟨callee, calleeSpan, args, span, symbol⟩,
            seen ++ [.enter (.expr (.call callee calleeSpan args span symbol)),
              .visit (.expr (.call callee calleeSpan args span symbol))]) :=
      congrArg (Prod.mk _) (opened_listener _ seen)
    refine ⟨_, Records.node rfl hes, ?_⟩
    rw [walkExpr, hopen]
    dsimp only
    rw [h]
    simp [closeExpr, FunctionCall.toExpr, listener, Expr.node]

theorem walkArgs_listener (args : List Expr) (seen : List Event) :
    ∃ es, Records (args.map (·.node)) es ∧ listener.walkArgs args seen = (args, seen ++ es) := by
  match args with
  | [] => exact ⟨[], .nil, by simp [walkArgs]⟩
  | e :: args =>
    obtain ⟨es, hes, he⟩ := walkExpr_listener e seen
    obtain ⟨fs, hfs, hargs⟩ := walkArgs_listener args (seen ++ es)
    refine ⟨es ++ fs, hes.append hfs, ?_⟩
    rw [walkArgs, he]
    dsimp only
    rw [hargs, List.append_assoc]

end

theorem runExpr_listener : Tells listener.runExpr (·.node) := by
  intro e seen
  rw [runExpr_eq]
  exact walkExpr_listener e seen

theorem walkVariable_listener : Tells listener.walkVariable .decl :=
  fun _ _ => ⟨_, .leaf rfl .nil, rfl⟩

theorem walkParameter_listener : Tells listener.walkParameter .parameter :=
  fun _ _ => ⟨_, .leaf rfl .nil, rfl⟩

theorem walkStmt_listener : Tells listener.walkStmt (·.node) := by
  intro stmt seen
  cases stmt with
  | decl d =>
    obtain ⟨es, hes, hd⟩ := walkVariable_listener d seen
    exact ⟨es, hes, by simp [walkStmt, hd]⟩
  | ret value span =>
    obtain ⟨es, hes, hvalue⟩ := runExpr_listener value
      (seen ++ [.enter (.ret value span), .visit (.ret value span)])
    refine ⟨_, Records.node rfl hes, ?_⟩
    rw [walkStmt, opened_listener, hvalue]
    simp [listener, Stmt.node]
  | expr value =>
    obtain ⟨es, hes, hvalue⟩ := runExpr_listener value seen
    exact ⟨es, hes, by simp [walkStmt, hvalue]⟩

theorem walkPrototype_listener : Tells listener.walkPrototype .prototype := by
  intro p seen
  obtain ⟨es, hes, hparams⟩ := walkParameter_listener.walkList p.params
    (seen ++ [.enter (.prototype p), .visit (.prototype p)])
  refine ⟨_, Records.node rfl hes, ?_⟩
  rw [walkPrototype, opened_listener, hparams]
  simp [listener]

theorem walkBody_listener : Tells listener.walkBody .body := by
  intro b seen
  obtain ⟨ls, hls, hlocals⟩ := walkVariable_listener.walkList b.locals
    (seen ++ [.enter (.body b), .visit (.body b)])
  obtain ⟨ss, hss, hstatements⟩ := walkStmt_listener.walkList b.statements _
  refine ⟨_, Records.node rfl (hls.append hss), ?_⟩
  rw [walkBody, opened_listener, hlocals]
  dsimp only
  rw [hstatements]
  simp [listener]

theorem walkDeclaration_listener : Tells listener.walkDeclaration .declaration := by
  intro d seen
  obtain ⟨es, hes, hp⟩ := walkPrototype_listener d.prototype
    (seen ++ [.enter (.declaration d), .visit (.declaration d)])
  have hopen : listener.bindDeclaration d
      (listener.visit (.declaration d) (listener.enter (.declaration d) seen)) = (d, _) :=
    congrArg (Prod.mk d) (opened_listener _ seen)
  refine ⟨_, Records.node rfl hes, ?_⟩
  rw [walkDeclaration, hopen]
  dsimp only
  rw [hp]
  simp [listener]

theorem walkDefinition_listener : Tells listener.walkDefinition .definition := by
  intro d seen
  obtain ⟨ps, hps, hp⟩ := walkPrototype_listener d.prototype
    (seen ++ [.enter (.definition d), .visit (.definition d)])
  obtain ⟨bs, hbs, hb⟩ := walkBody_listener d.body _
  have hopen : listener.bindDefinition d
      (listener.visit (.definition d) (listener.enter (.definition d) seen)) = (d, _) :=
    congrArg (Prod.mk d) (opened_listener _ seen)
  refine ⟨_, Records.node rfl (hps.append hbs), ?_⟩
  rw [walkDefinition, hopen]
  dsimp only
  rw [hp]
  dsimp only
  rw [hb]
  simp [listener]

theorem walkUnit_listener : Tells listener.walkUnit .unit := by
  intro u seen
  obtain ⟨ds, hds, hdeclarations⟩ := walkDeclaration_listener.walkList u.declarations
    (seen ++ [.enter (.unit u), .visit (.unit u)])
  obtain ⟨fs, hfs, hdefinitions⟩ := walkDefinition_listener.walkList u.definitions _
  have hopen : listener.bindUnit u
      (listener.visit (.unit u) (listener.enter (.unit u) seen)) = (u, _) :=
    congrArg (Prod.mk u) (opened_listener _ seen)
  refine ⟨_, Records.node rfl (hds.append hfs), ?_⟩
  rw [walkUnit, hopen]
  dsimp only
  rw [hdeclarations]
  dsimp only
  rw [hdefinitions]
  simp [listener]

theorem walk_listener : Tells listener.walk .program := by
  intro p seen
  obtain ⟨es, hes, hu⟩ := walkUnit_listener p.unit
    (seen ++ [.enter (.program p), .visit (.program p)])
  refine ⟨_, Records.node rfl hes, ?_⟩
  rw [walk, opened_listener, hu]
  simp [listener]

variable {σ : Type} {v : Visitor σ}

/-- A visitor that leaves every node as it is. -/
structure Silent (v : Visitor σ) : Prop where
  bindUnit : ∀ u s, v.bindUnit u s = (u, s) := by intros; rfl
  bindDeclaration : ∀ d s, v.bindDeclaration d s = (d, s) := by intros; rfl
  bindDefinition : ∀ d s, v.bindDefinition d s = (d, s) := by intros; rfl
  bindVariable : ∀ d s, v.bindVariable d s = (d, s) := by intros; rfl
  bindIdentifier : ∀ x s, v.bindIdentifier x s = (x, s) := by intros; rfl
  bindCall : ∀ c s, v.bindCall c s = (c, s) := by intros; rfl

def hear (v : Visitor σ) (s : σ) : Event → σ
  | .enter n => v.enter n s
  | .visit n => v.visit n s
  | .exit n => v.exit n s

theorem Silent.simulates (h : v.Silent) (start : σ) :
    Simulates v listener fun s es => s = es.foldl v.hear start where
  enter n s es hs := by simp [listener, hear, hs]
  visit n s es hs := by simp [listener, hear, hs]
  exit n s es hs := by simp [listener, hear, hs]
  bindUnit u s es hs := ⟨by rw [h.bindUnit]; rfl, by rw [h.bindUnit]; exact hs⟩
  bindDeclaration d s es hs := ⟨by rw [h.bindDeclaration]; rfl, by rw [h.bindDeclaration]; exact hs⟩
  bindDefinition d s es hs := ⟨by rw [h.bindDefinition]; rfl, by rw [h.bindDefinition]; exact hs⟩
  bindVariable d s es hs := ⟨by rw [h.bindVariable]; rfl, by rw [h.bindVariable]; exact hs⟩
  bindIdentifier x s es hs := ⟨by rw [h.bindIdentifier]; rfl, by rw [h.bindIdentifier]; exact hs⟩
  bindCall c s es hs := ⟨by rw [h.bindCall]; rfl, by rw [h.bindCall]; exact hs⟩

end Visitor

def Program.events (p : Program) : List Event := (Visitor.listener.walk p []).2

namespace Program

theorem walk_listener (p : Program) : Visitor.listener.walk p [] = (p, p.events) := by
  obtain ⟨es, -, h⟩ := Visitor.walk_listener p []
  rw [events, h]

theorem records_events (p : Program) : Records [.program p] p.events := by
  obtain ⟨es, hes, h⟩ := Visitor.walk_listener p []
  rw [events, h]
  exact hes

/-- A visitor that binds nothing makes its state of the events and leaves the program as it is. -/
theorem walk_silent {σ : Type} {v : Visitor σ} (h : v.Silent) (p : Program) (s : σ) :
    v.walk p s = (p, p.events.foldl v.hear s) := by
  obtain ⟨hp, hs⟩ := (h.simulates s).walk p s [] rfl
  rw [walk_listener] at hp hs
  exact Prod.ext hp hs

end Program

namespace Trace

def eventLine : Event → String
  | .enter n => line "enter" n (enterDetail n)
  | .visit n => line "visit" n (visitDetail n)
  | .exit n => line "exit" n (exitDetail n)

theorem silent_visitor : visitor.Silent := {}

theorem hear_visitor (lines : Array String) (e : Event) :
    visitor.hear lines e = lines.push (eventLine e) := by
  cases e <;> rfl

end Trace

theorem Program.trace_eq_map (p : Program) : p.trace = p.events.map Trace.eventLine := by
  have hpush : Trace.visitor.hear = fun lines e => lines.push (Trace.eventLine e) :=
    funext fun lines => funext (Trace.hear_visitor lines)
  rw [trace, walk_silent Trace.silent_visitor, hpush]
  simp

end MiniC
