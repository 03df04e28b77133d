import MiniC.Proofs.Tree.Events
import MiniC.Proofs.Tree.Walk

/-! # Visited nodes

The nodes of a program in the order in which the walk visits them. The record of a program has one
visit for each of them, so a visitor that only records what it is told to visit records just these.
-/

namespace MiniC

def Stmt.nodes : Stmt → List Node
  | .decl d => [.decl d]
  | .ret value span => .ret value span :: value.parts.map (·.node)
  | .expr value => value.parts.map (·.node)

def FunctionBody.nodes (b : FunctionBody) : List Node :=
  .body b :: (b.locals.map .decl ++ b.statements.flatMap (·.nodes))

theorem FunctionBody.mem_nodes {b : FunctionBody} {n : Node} (h : n ∈ b.nodes) :
    n = .body b ∨ (∃ v ∈ b.variables, n = .decl v) ∨ (∃ value span, n = .ret value span) ∨
      ∃ e ∈ b.parts, n = e.node := by
  simp only [nodes, List.mem_cons, List.mem_append, List.mem_map, List.mem_flatMap] at h
  rcases h with rfl | ⟨v, hv, rfl⟩ | ⟨stmt, hstmt, hn⟩
  · exact Or.inl rfl
  · exact Or.inr (Or.inl ⟨v, List.mem_append_left _ hv, rfl⟩)
  · have hpart : ∀ e ∈ stmt.parts, e ∈ b.parts := fun e he =>
      List.mem_flatMap.mpr ⟨stmt, hstmt, he⟩
    have hvar : ∀ v ∈ stmt.variables, v ∈ b.variables := fun v hv =>
      List.mem_append_right _ (List.mem_flatMap.mpr ⟨stmt, hstmt, hv⟩)
    cases stmt with
    | decl v =>
      exact Or.inr (Or.inl ⟨v, hvar v (List.mem_singleton.mpr rfl), List.mem_singleton.mp hn⟩)
    | ret value span =>
      rcases List.mem_cons.mp hn with rfl | hn
      · exact Or.inr (Or.inr (Or.inl ⟨value, span, rfl⟩))
      · obtain ⟨e, he, rfl⟩ := List.mem_map.mp hn
        exact Or.inr (Or.inr (Or.inr ⟨e, hpart e he, rfl⟩))
    | expr value =>
      obtain ⟨e, he, rfl⟩ := List.mem_map.mp hn
      exact Or.inr (Or.inr (Or.inr ⟨e, hpart e he, rfl⟩))

theorem FunctionBody.node_mem_nodes (b : FunctionBody) {e : Expr} (h : e ∈ b.parts) :
    e.node ∈ b.nodes := by
  obtain ⟨stmt, hstmt, he⟩ := List.mem_flatMap.mp h
  refine List.mem_cons_of_mem _ (List.mem_append_right _ (List.mem_flatMap.mpr ⟨stmt, hstmt, ?_⟩))
  cases stmt with
  | decl v => cases he
  | ret value span => exact List.mem_cons_of_mem _ (List.mem_map_of_mem he)
  | expr value => exact List.mem_map_of_mem he

def Prototype.nodes (p : Prototype) : List Node := .prototype p :: p.params.map .parameter

def FunctionDeclaration.nodes (d : FunctionDeclaration) : List Node :=
  .declaration d :: d.prototype.nodes

def FunctionDefinition.nodes (d : FunctionDefinition) : List Node :=
  .definition d :: (d.prototype.nodes ++ d.body.nodes)

def SourceUnit.nodes (u : SourceUnit) : List Node :=
  .unit u :: (u.declarations.flatMap (·.nodes) ++ u.definitions.flatMap (·.nodes))

def Program.nodes (p : Program) : List Node := .program p :: p.unit.nodes

namespace Node

/-- The nodes of the tree below a node, itself first. -/
def nodes : Node → List Node
  | program p => p.nodes
  | unit u => u.nodes
  | declaration d => d.nodes
  | definition d => d.nodes
  | prototype p => p.nodes
  | body b => b.nodes
  | ret value span => ret value span :: value.parts.map (·.node)
  | decl d => [decl d]
  | parameter p => [parameter p]
  | expr e => expr e :: e.parts.tail.map (·.node)

end Node

theorem Expr.nodes_node (e : Expr) : e.node.nodes = e.parts.map (·.node) := by
  cases e <;> simp [Expr.node, Node.nodes, Expr.parts]

theorem Stmt.nodes_node (s : Stmt) : s.node.nodes = s.nodes := by
  cases s with
  | decl d => rfl
  | ret value span => rfl
  | expr value => exact value.nodes_node

namespace Node

theorem nodes_of_leaf {n : Node} (h : n.isLeaf = true) : n.nodes = [n] := by
  cases n with
  | expr e =>
    cases e with
    | identifier _ _ _ => rw [nodes, Expr.parts]; rfl
    | number _ _ => rw [nodes, Expr.parts]; rfl
    | parameter _ => rw [nodes, Expr.parts]; rfl
    | _ => cases h
  | decl _ => rfl
  | parameter _ => rfl
  | _ => cases h

theorem flatMap_nodes {α : Type} {node : α → Node} {below : α → List Node}
    (h : ∀ a, (node a).nodes = below a) (as : List α) :
    (as.map node).flatMap (·.nodes) = as.flatMap below := by
  rw [List.flatMap_map]
  exact congrArg (as.flatMap ·) (funext h)

theorem flatMap_nodes_leaves {α : Type} {node : α → Node} (h : ∀ a, (node a).nodes = [node a])
    (as : List α) : (as.map node).flatMap (·.nodes) = as.map node := by
  rw [flatMap_nodes h, List.map_eq_flatMap]

theorem nodes_eq {n : Node} (h : n.isLeaf = false) :
    n.nodes = n :: n.children.flatMap (·.nodes) := by
  cases n with
  | program p => rw [children, List.flatMap_singleton]; rfl
  | unit u =>
    rw [children, List.flatMap_append, flatMap_nodes fun _ => rfl, flatMap_nodes fun _ => rfl]
    rfl
  | declaration d => rw [children, List.flatMap_singleton]; rfl
  | definition d => rw [children, List.flatMap_cons, List.flatMap_singleton]; rfl
  | prototype p =>
    rw [children, flatMap_nodes_leaves fun _ => rfl]
    rfl
  | body b =>
    rw [children, List.flatMap_append, flatMap_nodes_leaves fun _ => rfl,
      flatMap_nodes Stmt.nodes_node]
    rfl
  | ret value span => rw [children, List.flatMap_singleton, value.nodes_node]; rfl
  | expr e =>
    cases e with
    | binary op lhs rhs span =>
      rw [children, List.flatMap_cons, List.flatMap_singleton, lhs.nodes_node, rhs.nodes_node,
        nodes, Expr.parts, List.tail_cons, List.map_append]
    | call callee calleeSpan args span symbol =>
      rw [children, flatMap_nodes Expr.nodes_node, nodes, Expr.parts, Expr.partsAll_eq_flatMap,
        List.tail_cons, List.map_flatMap]
    | _ => cases h
  | _ => cases h

end Node

namespace Event

def visited? : Event → Option Node
  | visit n => some n
  | enter _ | exit _ => none

@[simp] theorem visited?_visit (n : Node) : (visit n).visited? = some n := rfl

@[simp] theorem visited?_enter (n : Node) : (enter n).visited? = none := rfl

@[simp] theorem visited?_exit (n : Node) : (exit n).visited? = none := rfl

end Event

/-- The visits of a record are those of the nodes, each node before all below it. -/
theorem Records.visited {ns : List Node} {es : List Event} (h : Records ns es) :
    es.filterMap (·.visited?) = ns.flatMap (·.nodes) := by
  induction h with
  | nil => rfl
  | leaf hn _ ih => simp [ih, Node.nodes_of_leaf hn]
  | inner hn _ _ ihbelow ih => simp [List.filterMap_cons, ihbelow, ih, Node.nodes_eq hn]

def Visitor.recorder : Visitor (List Node) where
  visit n seen := seen ++ [n]

theorem Visitor.silent_recorder : recorder.Silent := {}

theorem Visitor.hear_recorder (seen : List Node) (e : Event) :
    recorder.hear seen e = seen ++ e.visited?.toList := by
  cases e <;> simp [hear, recorder]

theorem Visitor.foldl_recorder (es : List Event) (seen : List Node) :
    es.foldl recorder.hear seen = seen ++ es.filterMap (·.visited?) := by
  induction es generalizing seen with
  | nil => simp
  | cons e es ih =>
    rw [List.foldl_cons, hear_recorder, ih, List.append_assoc]
    cases e <;> rfl

def Program.visited (p : Program) : List Node := (Visitor.recorder.walk p []).2

theorem Program.visited_eq_nodes (p : Program) : p.visited = p.nodes := by
  rw [visited, walk_silent Visitor.silent_recorder, Visitor.foldl_recorder,
    p.records_events.visited]
  simp [Node.nodes]

/-- A walk with a visitor that only writes down what it is told leaves the program as it is. What
it is told is the record of the program: the only list in which each node that is no leaf is
entered, visited at once, and left behind all below it, each leaf is visited, and the nodes below
one node come in their order. It has as many visits as the program has nodes, and a trace has one
line for each of its events. -/
theorem Program.walk_records (p : Program) :
    (Visitor.listener.walk p []).1 = p ∧
      (∀ es, Records [.program p] es ↔ (Visitor.listener.walk p []).2 = es) ∧
      (Visitor.listener.walk p []).2.filterMap (·.visited?) = p.nodes ∧
      (Visitor.listener.walk p []).2.countP (·.visited?.isSome) = p.nodes.length ∧
      p.trace = (Visitor.listener.walk p []).2.map Trace.eventLine := by
  rw [p.walk_listener]
  have hvisited : p.events.filterMap (·.visited?) = p.nodes := by
    simpa [Node.nodes] using p.records_events.visited
  refine ⟨rfl, fun es => ⟨p.records_events.unique, ?_⟩, hvisited, ?_, p.trace_eq_map⟩
  · rintro rfl
    exact p.records_events
  · rw [← hvisited, List.length_filterMap_eq_countP]

end MiniC
