import TraceGraph.Classification
import TraceGraph.Graph.Label
import TraceGraph.Graph.Segment
import TraceGraph.Stmt.Printer

/-!
# Building control-flow graphs

A builder walks the segments of a body and adds nodes and edges to its graph.
Statement numbers are handed out in order.  A loop does not know yet where it
goes on when its test fails, so it reserves the next number, and the node that
gets this number is added by whatever comes next, or by `finish`.

A builder can walk several bodies.  Each walk starts without a predecessor, and
a walk that meets a fault keeps what it has added up to there.

The builder checks its own numbering: whenever a number is handed out while one
is reserved, the two must agree.  `broken` tells whether this has ever failed.

The counter is a natural number and never overflows, while the numbers of nodes
have 32 bits.  The graphs built here are those of runs whose counter `next` stays
below `Settings.idLimit`, up to and including `finish`.  The counter only grows,
so this is a condition on its last value.  Nothing is meant about a run that
counts further, since it hands out numbers that no node can have.
-/

namespace TraceGraph

/-- A graph in the making. -/
structure Builder where
  graph : Graph
  /-- The next statement number. -/
  next : Nat
  /-- The number that a loop has reserved for what follows it. -/
  pending : Option Nat
  /-- Whether a reserved number has gone to a different node. -/
  broken : Bool
  /-- The path to highlight. -/
  path : Option Classification
deriving DecidableEq

namespace Builder

/-- A builder that has not built anything. -/
def start (firstId : Nat) (path : Option Classification) : Builder :=
  ⟨.empty, firstId, none, false, path⟩

/-! ## Nodes -/

/-- Whether a node at the line lies on the path. -/
def onPath (b : Builder) (line : Nat) : Bool :=
  match b.path with
  | some path => path.executed.contains line
  | none => false

/-- Adds a node under an identity. -/
def addNode (b : Builder) (id : NodeId) (label : String) (shape : NodeShape) (highlighted : Bool)
    (line : Option Nat) : Builder :=
  { b with graph := b.graph.addNode ⟨id, label, shape, highlighted, line⟩ }

/-- Adds an edge. -/
def addEdge (b : Builder) (source target : NodeId) (kind : EdgeKind) : Builder :=
  { b with graph := b.graph.addEdge source target kind }

/-- Adds an edge that is always followed, if there is a predecessor. -/
def link (b : Builder) (last : Option NodeId) (target : NodeId) : Builder :=
  match last with
  | some source => b.addEdge source target .always
  | none => b

/-- Adds a node under the next statement number.  If a number is reserved, it is
taken for this node and must be the same. -/
def addNext (b : Builder) (label : String) (shape : NodeShape) (highlighted : Bool)
    (line : Option Nat) : NodeId × Builder :=
  let id := .statement b.next
  let b := { b with
    next := b.next + 1
    pending := none
    broken := b.broken || b.pending.any (· ≠ b.next) }
  (id, b.addNode id (Label.numbered id label) shape highlighted line)

/-- Adds a condition. -/
def addDecision (b : Builder) (test : Expr) : NodeId × Builder :=
  b.addNext (Label.clean test.render) .decision (b.onPath test.line) (some test.line)

/-- Adds the body of a branch as one node. -/
def addBody (b : Builder) (body : Stmt) : NodeId × Builder :=
  b.addNext (Label.clean body.render) .block (b.onPath body.firstLine) (some body.firstLine)

/-! ## Segments -/

/-- Adds a run of statements as one node. -/
def addRun (b : Builder) (stmts : List Stmt) (last : Option NodeId) : NodeId × Builder :=
  let line := stmts.head?.map Stmt.line
  let text := String.intercalate "\n" (stmts.map Stmt.render)
  let (id, b) := b.addNext (Label.clean text) .block ((line.map b.onPath).getD false) line
  (id, b.link last id)

/-- Adds a loop and reserves the number of what follows it. -/
def addLoop (b : Builder) (line : Nat) (test : Expr) (body : Stmt) (last : Option NodeId) :
    Builder :=
  let (entry, b) := b.addNext "NULL" .junction b.path.isSome (some line)
  let (decision, b) := b.addDecision test
  let (inner, b) := b.addNext (Label.clean body.render) .block false (some body.firstLine)
  let b := b.link last entry
  let b := b.addEdge entry decision .always
  let b := b.addEdge inner entry .always
  let b := b.addEdge decision inner .onTrue
  let b := b.addEdge decision (.statement b.next) .onFalse
  { b with pending := some b.next }

/-- Adds the test and the consequent of one link of a chain. -/
def addLink (b : Builder) (test : Expr) (consequent : Stmt) (merge : NodeId) : NodeId × Builder :=
  let (decision, b) := b.addDecision test
  let (body, b) := b.addBody consequent
  let b := b.addEdge body merge .always
  (decision, b.addEdge decision body .onTrue)

/-- Adds what a chain does after the test at `decision` fails. -/
def addAlternate (b : Builder) (decision merge : NodeId) : Stmt → Builder
  | .ifThen _ test consequent =>
    let (next, b) := b.addLink test consequent merge
    let b := b.addEdge decision next .onFalse
    b.addEdge next merge .onFalse
  | .ifElse _ test consequent alternate =>
    let (next, b) := b.addLink test consequent merge
    let b := b.addEdge decision next .onFalse
    b.addAlternate next merge alternate
  | otherwise =>
    let (body, b) := b.addBody otherwise
    let b := b.addEdge decision body .onFalse
    b.addEdge body merge .always

/-- Adds a conditional with all its links, and returns the junction where they
meet again.  The junction has the number that its first test is about to get,
but never zero, which would look like statement zero. -/
def addBranching (b : Builder) (test : Expr) (consequent : Stmt) (alternate : Option Stmt)
    (last : Option NodeId) : NodeId × Builder :=
  let merge := .junction (max b.next 1)
  let b := b.addNode merge "" .junction b.path.isSome none
  let (decision, b) := b.addLink test consequent merge
  let b := b.link last decision
  match alternate with
  | none => (merge, b.addEdge decision merge .onFalse)
  | some alternate => (merge, b.addAlternate decision merge alternate)

/-- Adds a segment, and returns the node that leads on to the next one.  After
a loop only the reserved number does. -/
def addSegment (b : Builder) (last : Option NodeId) : Segment → Option NodeId × Builder
  | .run stmts =>
    let (id, b) := b.addRun stmts last
    (some id, b)
  | .branching test consequent alternate =>
    let (merge, b) := b.addBranching test consequent alternate last
    (some merge, b)
  | .loop line test body => (none, b.addLoop line test body last)

/-! ## Whole bodies -/

/-- Adds segments one after the other, up to the first one with a fault. -/
def walkSegments (b : Builder) (last : Option NodeId) : List Segment → Builder × Option Fault
  | [] => (b, none)
  | segment :: rest =>
    match segment.fault? with
    | some fault => (b, some fault)
    | none =>
      let (last, b) := b.addSegment last segment
      b.walkSegments last rest

/-- Walks a body. -/
def walk (b : Builder) (body : List Stmt) : Builder × Option Fault :=
  b.walkSegments none (Segment.ofBody body)

/-- Turns a number that is still reserved into the exit. -/
def close (b : Builder) : Builder :=
  match b.pending with
  | some _ => (b.addNext "exit" .junction b.path.isSome none).2
  | none => b

/-- The graph, with nothing left open. -/
def finish (b : Builder) : Graph :=
  b.close.graph

end Builder

/-- The control-flow graph of a body. -/
def Graph.ofBody (body : List Stmt) (firstId : Nat) (path : Option Classification) :
    Except Fault Graph :=
  match (Builder.start firstId path).walk body with
  | (b, none) => .ok b.finish
  | (_, some fault) => .error fault

end TraceGraph
