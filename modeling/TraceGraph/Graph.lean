/-!
# Control-flow graphs

Nodes are numbered in two ranges.  Statement numbers are handed out in order,
and junction numbers mark the points where the branches of a conditional meet
again.  A junction number is shown as a negative number.

Edges are kept in three lists by their kind.
-/

namespace TraceGraph

/-- The identity of a node. -/
inductive NodeId where
  | statement (number : Nat)
  | junction (number : Nat)
deriving DecidableEq, Repr, Inhabited

/-- The identity as one number. -/
def NodeId.signed : NodeId → Int
  | .statement n => n
  | .junction n => -n

/-- What a node stands for. -/
inductive NodeShape where
  /-- Statements that run one after the other. -/
  | block
  /-- A condition. -/
  | decision
  /-- A point where paths meet. -/
  | junction
deriving DecidableEq, Repr, Inhabited

/-- When an edge is followed. -/
inductive EdgeKind where
  | always
  | onTrue
  | onFalse
deriving DecidableEq, Repr, Inhabited

/-- A node of the graph. -/
structure Node where
  id : NodeId
  label : String
  shape : NodeShape
  /-- Whether the node lies on the path taken. -/
  highlighted : Bool
  line : Option Nat
deriving DecidableEq, Repr, Inhabited

/-- An edge of the graph. -/
structure Edge where
  source : NodeId
  target : NodeId
  kind : EdgeKind
deriving DecidableEq, Repr, Inhabited

/-- Nodes, and edges by their kind. -/
structure Graph where
  nodes : List Node
  always : List Edge
  onTrue : List Edge
  onFalse : List Edge
deriving DecidableEq, Repr, Inhabited

namespace Graph

/-- The graph without nodes. -/
def empty : Graph := ⟨[], [], [], []⟩

/-- All edges, those that are always followed first. -/
def edges (graph : Graph) : List Edge :=
  graph.always ++ graph.onTrue ++ graph.onFalse

/-- The first node with the given identity. -/
def node? (graph : Graph) (id : NodeId) : Option Node :=
  graph.nodes.find? (·.id = id)

/-- The edges that leave a node. -/
def outgoing (graph : Graph) (id : NodeId) : List Edge :=
  graph.edges.filter (·.source = id)

/-- The nodes of a shape. -/
def withShape (graph : Graph) (shape : NodeShape) : List Node :=
  graph.nodes.filter (·.shape = shape)

/-- Adds a node after the others. -/
def addNode (graph : Graph) (node : Node) : Graph :=
  { graph with nodes := graph.nodes ++ [node] }

/-- Adds an edge to the list of its kind. -/
def addEdge (graph : Graph) (source target : NodeId) (kind : EdgeKind) : Graph :=
  let edge : Edge := ⟨source, target, kind⟩
  match kind with
  | .always => { graph with always := graph.always ++ [edge] }
  | .onTrue => { graph with onTrue := graph.onTrue ++ [edge] }
  | .onFalse => { graph with onFalse := graph.onFalse ++ [edge] }

end Graph

end TraceGraph
