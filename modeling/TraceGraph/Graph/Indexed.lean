import TraceGraph.Graph

/-!
# Graphs by position

Some formats name nodes by their position in the list of nodes.  If several
nodes have one identity, the last one is meant.  Edges to an identity without a
node are left out.
-/

namespace TraceGraph

/-- An edge between positions. -/
structure Link where
  source : Nat
  target : Nat
  kind : EdgeKind
deriving DecidableEq, Repr

/-- Statement numbers come before junction numbers. -/
def NodeId.le : NodeId → NodeId → Bool
  | .statement m, .statement n => m ≤ n
  | .junction m, .junction n => m ≤ n
  | .statement _, .junction _ => true
  | .junction _, .statement _ => false

namespace Graph

/-- The position of the last node with the given identity. -/
def position? (graph : Graph) (id : NodeId) : Option Nat :=
  (graph.nodes.zipIdx.findRev? (·.1.id = id)).map Prod.snd

/-- The identities of the nodes in order, each of them once, with their
positions. -/
def positions (graph : Graph) : List (NodeId × Nat) :=
  ((graph.nodes.map Node.id).eraseDups.mergeSort NodeId.le).filterMap fun id =>
    (graph.position? id).map (id, ·)

/-- The edges by position. -/
def links (graph : Graph) : List Link :=
  graph.edges.filterMap fun edge => do
    return ⟨← graph.position? edge.source, ← graph.position? edge.target, edge.kind⟩

end Graph

end TraceGraph
