import TraceGraph.Proofs.Graph.Lockstep
import TraceGraph.Proofs.Graph.Positions
import TraceGraph.Proofs.Graph.Wiring

/-!
# The first number only renames

A body has the same graph from any first number on, but for the identities of nodes and
the numbers in front of labels.  The graphs are compared by position, since identities
cannot be translated one by one: from number zero on, the junctions of a conditional at
zero and of one at one would both get number one.  What keeps them apart is that a
conditional takes at least two numbers.

* `Node.Alike`: nodes that agree in everything else.
* `Builder.connect_of_matches`: edges that match connect the same positions.
* `Graph.ofBody_renames`: the graphs of a body from two first numbers on.
-/

namespace TraceGraph

/-! ## Nodes -/

/-- Nodes that agree in all but their identities and the numbers in front of their labels. -/
structure Node.Alike (node node' : Node) : Prop where
  shape : node.shape = node'.shape
  highlighted : node.highlighted = node'.highlighted
  line : node.line = node'.line
  label : ∃ text, node.label = Label.numbered node.id text ∧
    node'.label = Label.numbered node'.id text

/-- Nodes that are drawn for one part along one path are alike. -/
theorem Node.Draws.alike {path : Option Classification} {part : Part} {node node' : Node}
    (h : node.Draws path part) (h' : node'.Draws path part) : node.Alike node' := by
  rw [Node.Draws] at h h'
  rw [h, h']
  exact ⟨rfl, rfl, rfl, part.event.label, rfl, rfl⟩

private theorem alike_of_draws {path : Option Classification} {parts : List Part}
    {nodes nodes' : List Node} (h : List.Forall₂ (Node.Draws path) nodes parts)
    (h' : List.Forall₂ (Node.Draws path) nodes' parts) : List.Forall₂ Node.Alike nodes nodes' := by
  induction h generalizing nodes' with
  | nil =>
    cases h'
    exact .nil
  | cons hnode _ ih =>
    cases h' with
    | cons hnode' hrest' => exact .cons (hnode.alike hnode') (ih hrest')

/-- Two identities in one range, as far from `first` as from `first'`. -/
def NodeId.Shifted (first first' : Nat) (id id' : NodeId) : Prop :=
  ∃ count, id = .statement (first + count) ∧ id' = .statement (first' + count) ∨
    id = .junction (first + count) ∧ id' = .junction (first' + count)

/-- From positive numbers on, junctions have the number of their first test. -/
theorem NodeId.Counterpart.shifted {first first' : Nat} (hfirst : 1 ≤ first)
    (hfirst' : 1 ≤ first') {id id' : NodeId} (h : Counterpart first first' id id') :
    Shifted first first' id id' := by
  cases h with
  | statement count => exact ⟨count, .inl ⟨rfl, rfl⟩⟩
  | junction count =>
    refine ⟨count, .inr ⟨?_, ?_⟩⟩
    · rw [Nat.max_eq_left (by omega)]
    · rw [Nat.max_eq_left (by omega)]

/-! ## Edges -/

/-- Edges of two graphs that connect the same positions, and have the same kind. -/
def Graph.Connect (graph graph' : Graph) (edge edge' : Edge) : Prop :=
  ∃ link, graph.link? edge = some link ∧ graph'.link? edge' = some link

namespace Builder

variable {first first' : Nat} {b b' : Builder}

/-- Identities of nodes that correspond to each other have the same position. -/
theorem position?_of_meets (h : Numbered first b) (h' : Numbered first' b') {id id' : NodeId}
    (hid : id ∈ b.graph.ids) (hmeets : b.Meets b' id id') :
    ∃ i, b.graph.position? id = some i ∧ b'.graph.position? id' = some i := by
  rcases hmeets with ⟨i, hi, hi'⟩ | ⟨rfl, -⟩
  · exact ⟨i, (Graph.position?_eq_some_iff (nodup_ids h)).2 hi,
      (Graph.position?_eq_some_iff (nodup_ids h')).2 hi'⟩
  · exact absurd hid (statement_not_mem h (Nat.le_refl _))

/-- Edges that match connect the same positions, once nothing is reserved any more. -/
theorem connect_of_matches (h : Numbered first b) (h' : Numbered first' b')
    (hpending : b.pending = none) {edges edges' : List Edge} (hsubset : edges ⊆ b.graph.edges)
    (hmatch : List.Forall₂ (Edge.Matches (b.Meets b')) edges edges') :
    List.Forall₂ (b.graph.Connect b'.graph) edges edges' := by
  refine ((List.forall₂_and_left _ _).2 ⟨@hsubset, hmatch⟩).imp fun edge edge' hedge => ?_
  obtain ⟨hmem, hmatches⟩ := hedge
  obtain ⟨hsource, htarget⟩ := edges_mem h hpending edge hmem
  obtain ⟨i, hi, hi'⟩ := position?_of_meets h h' hsource hmatches.source
  obtain ⟨j, hj, hj'⟩ := position?_of_meets h h' htarget hmatches.target
  refine ⟨⟨i, j, edge.kind⟩, ?_, ?_⟩
  · rw [Graph.link?, hi, hj]
    rfl
  · rw [Graph.link?, hi', hj', hmatches.kind]
    rfl

end Builder

/-! ## Graphs -/

namespace Graph

/-- From any two first numbers on, a body is refused for the same reason, or has graphs
whose nodes are alike one by one and whose edges connect the same positions one by one, in
each of the three lists.  If both first numbers are positive, all identities are shifted by
the same amount. -/
theorem ofBody_renames (body : List Stmt) (path : Option Classification) (m n : Nat) :
    (∃ fault, ofBody body m path = .error fault ∧ ofBody body n path = .error fault) ∨
      ∃ graph graph', ofBody body m path = .ok graph ∧ ofBody body n path = .ok graph' ∧
        List.Forall₂ Node.Alike graph.nodes graph'.nodes ∧
        List.Forall₂ (graph.Connect graph') graph.always graph'.always ∧
        List.Forall₂ (graph.Connect graph') graph.onTrue graph'.onTrue ∧
        List.Forall₂ (graph.Connect graph') graph.onFalse graph'.onFalse ∧
        (1 ≤ m → 1 ≤ n → List.Forall₂ (NodeId.Shifted m n) graph.ids graph'.ids) := by
  obtain hfault | ⟨b, b', hbody, hbody', ⟨hready, hready'⟩, hparallel⟩ :=
    ofBody_parallel (rfl : Stmt.outlines body = _) m n path path
  · exact .inl hfault
  · obtain ⟨hnumbered, hpending⟩ := Builder.close_numbered hready.toNumbered
    obtain ⟨hnumbered', -⟩ := Builder.close_numbered hready'.toNumbered
    have hconnect : ∀ {edges edges' : List Edge}, edges ⊆ b.finish.edges →
        List.Forall₂ (Edge.Matches (b.close.Meets b'.close)) edges edges' →
        List.Forall₂ (b.finish.Connect b'.finish) edges edges' :=
      Builder.connect_of_matches hnumbered hnumbered' hpending
    refine .inr ⟨b.finish, b'.finish, hbody, hbody',
      alike_of_draws (draws_of_ofBody hbody) (draws_of_ofBody hbody'),
      hconnect (fun edge hedge => ?_) hparallel.always,
      hconnect (fun edge hedge => ?_) hparallel.onTrue,
      hconnect (fun edge hedge => ?_) hparallel.onFalse,
      fun hm hn => hparallel.ids.imp fun _ _ hid => hid.shifted hm hn⟩
    · simp [edges, hedge]
    · simp [edges, hedge]
    · simp [edges, hedge]

/-- A conditional at the first number, another one right after it, and a loop whose exit is
the end. -/
private def conditionalsAndLoop : List Stmt :=
  [.ifThen 1 (.identifier 1 "a") (.block 1 []),
   .ifElse 2 (.identifier 2 "b") (.block 2 [.exit 3 none])
     (.expression 4 (.update 4 .increment true "c")),
   .loop 5 (.identifier 5 "d") (.block 5 [])]

theorem ofBody_renames_conditionalsAndLoop :
    1 ≤ 1 ∧ 1 ≤ 40 ∧ ∃ graph graph', ofBody conditionalsAndLoop 1 none = .ok graph ∧
      ofBody conditionalsAndLoop 40 none = .ok graph' ∧
      graph.ids = [.junction 1, .statement 1, .statement 2, .junction 3, .statement 3, .statement 4,
        .statement 5, .statement 6, .statement 7, .statement 8, .statement 9] ∧
      List.Forall₂ (NodeId.Shifted 1 40) graph.ids graph'.ids ∧
      List.Forall₂ (graph.Connect graph') graph.onFalse graph'.onFalse := by
  have hgraph : ofBody conditionalsAndLoop 1 none
      = .ok ((Builder.start 1 none).walk conditionalsAndLoop).1.finish := rfl
  obtain ⟨fault, hfault, -⟩ | ⟨graph, graph', hbody, hbody', -, -, -, hfalse, hshift⟩ :=
    ofBody_renames conditionalsAndLoop none 1 40
  · rw [hgraph] at hfault
    cases hfault
  · refine ⟨Nat.le_refl 1, by decide, graph, graph', hbody, hbody', ?_,
      hshift (Nat.le_refl 1) (by decide), hfalse⟩
    rw [hgraph] at hbody
    rw [← Except.ok.inj hbody]
    rfl

end Graph

end TraceGraph
