import Mathlib.Data.List.Forall2
import TraceGraph.Proofs.Graph.Execution
import TraceGraph.Proofs.Graph.Numbering
import TraceGraph.Proofs.Stmt.Outline

/-!
# The nodes of a graph and what they are drawn for

Every node of a graph is drawn for one part of the body: a run of statements, a
test, a branch, the body of a loop, or a point where paths meet.  What is drawn
depends on the part, on the path to highlight and on the identity of the node, and
on nothing else.

* `Segment.partsOf`: the parts of segments, in the order of their nodes.
* `Builder.addSegment_adds`: a segment adds the nodes of its parts.
* `Graph.draws_of_ofBody`: the nodes of a graph are those of the parts of the body.
* `Segment.ofBody_outlines` and `Segment.partsOf_outline`: the segments and the parts
  can be read off the outline of the body.
-/

namespace TraceGraph

/-! ## Parts -/

/-- A part of a body that becomes one node. -/
inductive Part where
  /-- Statements that run one after the other. -/
  | run (stmts : List Stmt)
  /-- Where the branches of a conditional meet again. -/
  | merge
  /-- The test of a conditional or of a loop. -/
  | decision (test : Expr)
  /-- A consequent, or what comes after the last `else`. -/
  | branch (body : Stmt)
  /-- The start of a loop. -/
  | round (line : Nat)
  /-- The body of a loop. -/
  | inner (body : Stmt)
  /-- The end of a body that ends with a loop. -/
  | exit

/-- Whether a line lies on a path. -/
def onPath (path : Option Classification) (line : Nat) : Bool :=
  match path with
  | some path => path.executed.contains line
  | none => false

namespace Part

/-- What is seen of an execution when it passes the part. -/
def event : Part → Event
  | .run stmts => .run stmts
  | .merge => .merge
  | .decision test => .decision test
  | .branch body | .inner body => .body body
  | .round line => .round line
  | .exit => .exit

/-- Whether the node of the part is highlighted.  Where paths meet it always is, and
the body of a loop never is. -/
def lit (path : Option Classification) : Part → Bool
  | .run stmts => ((stmts.head?.map Stmt.line).map (onPath path)).getD false
  | .decision test => onPath path test.line
  | .branch body => onPath path body.firstLine
  | .merge | .round _ | .exit => path.isSome
  | .inner _ => false

/-- The node of the part. -/
def node (path : Option Classification) (part : Part) (id : NodeId) : Node :=
  ⟨id, Label.numbered id part.event.label, part.event.shape, part.lit path, part.event.line⟩

end Part

/-- Whether a node is the one of a part, under whatever identity it has. -/
def Node.Draws (path : Option Classification) (node : Node) (part : Part) : Prop :=
  node = part.node path node.id

/-- The parts of a chain of conditionals, or what comes after its last `else`. -/
def Stmt.chainParts : Stmt → List Part
  | .ifThen _ test consequent => [.decision test, .branch consequent]
  | .ifElse _ test consequent alternate =>
    .decision test :: .branch consequent :: alternate.chainParts
  | otherwise => [.branch otherwise]

theorem Stmt.chainParts_otherwise {s : Stmt} (h : s.isConditional = false) :
    s.chainParts = [.branch s] := by
  cases s with
  | ifThen => cases h
  | ifElse => cases h
  | _ => rfl

namespace Segment

/-- The parts of a segment. -/
def parts : Segment → List Part
  | .run stmts => [.run stmts]
  | .branching test consequent alternate =>
    .merge :: .decision test :: .branch consequent :: alternate.elim [] Stmt.chainParts
  | .loop line test body => [.round line, .decision test, .inner body]

/-- Whether the segment is a loop. -/
def isLoop : Segment → Bool
  | .loop .. => true
  | .run .. | .branching .. => false

/-- The parts of segments one after the other.  If the last one is a loop, the exit
comes after it. -/
def partsOf (segments : List Segment) : List Part :=
  segments.flatMap parts ++ if segments.getLast?.any isLoop then [.exit] else []

end Segment

/-! ## Nodes that a builder adds -/

namespace Builder

/-- Adds the node of a part under the next statement number. -/
def addPart (b : Builder) (part : Part) : Builder :=
  (b.addNext part.event.label part.event.shape (part.lit b.path) part.event.line).2

/-- The builder has gone on from `b` to `b'`, and has added the nodes of some parts. -/
structure Adds (b b' : Builder) (parts : List Part) : Prop where
  path_eq : b'.path = b.path
  nodes_eq : ∃ added, b'.graph.nodes = b.graph.nodes ++ added ∧
    List.Forall₂ (Node.Draws b.path) added parts

namespace Adds

variable {b b' b'' : Builder} {parts parts' : List Part}

theorem refl (b : Builder) : b.Adds b [] :=
  ⟨rfl, [], (List.append_nil _).symm, .nil⟩

theorem trans (h : b.Adds b' parts) (h' : b'.Adds b'' parts') : b.Adds b'' (parts ++ parts') := by
  obtain ⟨hpath, added, hnodes, hdraws⟩ := h
  obtain ⟨hpath', added', hnodes', hdraws'⟩ := h'
  rw [hpath] at hdraws'
  refine ⟨hpath'.trans hpath, added ++ added', ?_, List.rel_append hdraws hdraws'⟩
  rw [hnodes', hnodes, List.append_assoc]

theorem addPart (h : b.Adds b' parts) (part : Part) : b.Adds (b'.addPart part) (parts ++ [part]) :=
  h.trans ⟨rfl, [_], rfl, .cons rfl .nil⟩

theorem addEdge (h : b.Adds b' parts) (source target : NodeId) (kind : EdgeKind) :
    b.Adds (b'.addEdge source target kind) parts := by
  obtain ⟨hpath, added, hnodes, hdraws⟩ := h
  refine ⟨hpath, added, ?_, hdraws⟩
  rw [← hnodes]
  cases kind <;> rfl

theorem link (h : b.Adds b' parts) (last : Option NodeId) (target : NodeId) :
    b.Adds (b'.link last target) parts := by
  cases last with
  | none => exact h
  | some source => exact h.addEdge source target .always

theorem reserve (h : b.Adds b' parts) (pending : Option Nat) :
    b.Adds { b' with pending := pending } parts :=
  ⟨h.path_eq, h.nodes_eq⟩

theorem addLink (h : b.Adds b' parts) (test : Expr) (consequent : Stmt) (merge : NodeId) :
    b.Adds (b'.addLink test consequent merge).2
      (parts ++ [.decision test, .branch consequent]) := by
  have hnodes := (h.addPart (.decision test)).addPart (.branch consequent)
  rw [List.append_assoc] at hnodes
  exact (hnodes.addEdge _ merge .always).addEdge _ _ .onTrue

theorem addAlternate (h : b.Adds b' parts) (decision merge : NodeId) (alternate : Stmt) :
    b.Adds (b'.addAlternate decision merge alternate) (parts ++ alternate.chainParts) := by
  induction alternate using Stmt.chain_induction generalizing b' parts decision with
  | ifThen line test consequent =>
    exact ((h.addLink test consequent merge).addEdge _ _ .onFalse).addEdge _ _ .onFalse
  | ifElse line test consequent alternate ih =>
    have hrest := ih ((h.addLink test consequent merge).addEdge decision (.statement b'.next)
      .onFalse) (.statement b'.next)
    rw [List.append_assoc] at hrest
    exact hrest
  | otherwise s hs =>
    rw [addAlternate_otherwise _ _ _ hs, Stmt.chainParts_otherwise hs]
    exact ((h.addPart (.branch s)).addEdge _ _ .onFalse).addEdge _ _ .always

end Adds

section

variable (b : Builder) (last : Option NodeId)

private theorem addBranching_adds (test : Expr) (consequent : Stmt) (alternate : Option Stmt) :
    b.Adds (b.addBranching test consequent alternate last).2
      (Segment.branching test consequent alternate).parts := by
  have hmerge : b.Adds (b.addNode b.mergeId "" .junction b.path.isSome none) [.merge] :=
    ⟨rfl, [_], rfl, .cons rfl .nil⟩
  have hhead : b.Adds (b.addHead test consequent last)
      [.merge, .decision test, .branch consequent] :=
    (hmerge.addLink test consequent b.mergeId).link last _
  cases alternate with
  | none => exact hhead.addEdge _ _ .onFalse
  | some alternate => exact hhead.addAlternate _ _ alternate

private theorem addLoop_adds (line : Nat) (test : Expr) (body : Stmt) :
    b.Adds (b.addLoop line test body last) (Segment.loop line test body).parts := by
  have hround := (Adds.refl b).addPart (.round line)
  have hnodes := (hround.addPart (.decision test)).addPart (.inner body)
  have hlink := hnodes.link last (.statement b.next)
  have hforward := hlink.addEdge (.statement b.next) (.statement (b.next + 1)) .always
  have hback := hforward.addEdge (.statement (b.next + 2)) (.statement b.next) .always
  have htrue := hback.addEdge (.statement (b.next + 1)) (.statement (b.next + 2)) .onTrue
  exact (htrue.addEdge (.statement (b.next + 1)) _ .onFalse).reserve _

/-- A segment adds the nodes of its parts. -/
theorem addSegment_adds (segment : Segment) :
    b.Adds (b.addSegment last segment).2 segment.parts := by
  cases segment with
  | run stmts => exact ((Adds.refl b).addPart (.run stmts)).link last _
  | branching test consequent alternate => exact addBranching_adds b last test consequent alternate
  | loop line test body => exact addLoop_adds b last line test body

theorem pending_addAlternate (b : Builder) (decision merge : NodeId) (alternate : Stmt) :
    (b.addAlternate decision merge alternate).pending = none := by
  induction alternate using Stmt.chain_induction generalizing b decision with
  | ifThen => rfl
  | ifElse line test consequent alternate ih => exact ih _ _
  | otherwise s hs =>
    rw [addAlternate_otherwise _ _ _ hs]
    rfl

/-- After a segment a number is reserved if and only if the segment is a loop. -/
theorem isSome_pending_addSegment (segment : Segment) :
    (b.addSegment last segment).2.pending.isSome = segment.isLoop := by
  cases segment with
  | run stmts => cases last <;> rfl
  | branching test consequent alternate =>
    cases alternate with
    | none => cases last <;> rfl
    | some alternate =>
      show ((b.addHead test consequent last).addAlternate _ _ alternate).pending.isSome = false
      rw [pending_addAlternate]
      rfl
  | loop line test body => rfl

end

/-- A walk without a fault adds the nodes of its parts.  Only a loop at the end
leaves a number reserved. -/
theorem walkSegments_adds {b b' : Builder} {last : Option NodeId} {segments : List Segment}
    (hwalk : b.walkSegments last segments = (b', none)) :
    b.Adds b' (segments.flatMap Segment.parts) ∧
      b'.pending.isSome = (segments.getLast?.map Segment.isLoop).getD b.pending.isSome := by
  induction segments generalizing b last with
  | nil =>
    cases hwalk
    exact ⟨Adds.refl _, rfl⟩
  | cons segment rest ih =>
    rw [walkSegments] at hwalk
    cases hfault : segment.fault? with
    | some fault =>
      rw [hfault] at hwalk
      cases hwalk
    | none =>
      rw [hfault] at hwalk
      obtain ⟨hadds, hpending⟩ := ih (b := (b.addSegment last segment).2) hwalk
      refine ⟨(addSegment_adds b last segment).trans hadds, ?_⟩
      rw [hpending, isSome_pending_addSegment]
      cases rest with
      | nil => rfl
      | cons next rest => rw [List.getLast?_cons_cons, List.getLast?_cons]; rfl

theorem close_adds (b : Builder) :
    b.Adds b.close (if b.pending.isSome then [.exit] else []) := by
  cases hpending : b.pending with
  | none =>
    have hclose : b.close = b := by simp [close, hpending]
    rw [hclose]
    exact Adds.refl b
  | some n =>
    have hclose : b.close = (b.addNext "exit" .junction b.path.isSome none).2 := by
      simp [close, hpending]
    rw [hclose]
    exact (Adds.refl b).addPart .exit

end Builder

/-- The nodes of the graph of a body are those of its parts, in order. -/
theorem Graph.draws_of_ofBody {body : List Stmt} {firstId : Nat} {path : Option Classification}
    {graph : Graph} (h : ofBody body firstId path = .ok graph) :
    List.Forall₂ (Node.Draws path) graph.nodes (Segment.partsOf (Segment.ofBody body)) := by
  rw [ofBody] at h
  split at h
  · rename_i b hwalk
    cases h
    obtain ⟨hadds, hpending⟩ := Builder.walkSegments_adds hwalk
    have hexit : b.pending.isSome = (Segment.ofBody body).getLast?.any Segment.isLoop := by
      rw [hpending]
      cases (Segment.ofBody body).getLast? <;> rfl
    obtain ⟨-, added, hnodes, hdraws⟩ := hadds.trans b.close_adds
    rw [hexit] at hdraws
    rw [show b.finish.nodes = added from hnodes]
    exact hdraws
  · cases h

/-! ## Outlines -/

namespace Segment

/-- The segment with nothing kept of its expressions but their lines. -/
def outline : Segment → Segment
  | .run stmts => .run (Stmt.outlines stmts)
  | .branching test consequent alternate =>
    .branching test.anchor consequent.outline (alternate.map Stmt.outline)
  | .loop line test body => .loop line test.anchor body.outline

private theorem prepend_outline (s : Stmt) (segments : List Segment) :
    prepend s.outline (segments.map outline) = (prepend s segments).map outline := by
  cases segments with
  | nil => rfl
  | cons segment rest => cases segment <;> rfl

theorem ofBody_outlines (body : List Stmt) :
    ofBody (Stmt.outlines body) = (ofBody body).map outline := by
  induction body with
  | nil => rfl
  | cons s rest ih =>
    cases s with
    | exit => rfl
    | loop => exact congrArg (_ :: ·) ih
    | ifThen => exact congrArg (_ :: ·) ih
    | ifElse => exact congrArg (_ :: ·) ih
    | _ => exact (congrArg (prepend (Stmt.outline _)) ih).trans (prepend_outline _ _)

theorem fault?_outline (segment : Segment) : segment.outline.fault? = segment.fault? := by
  cases segment with
  | run stmts =>
    show (Stmt.outlines stmts).findSome? _ = stmts.findSome? _
    induction stmts with
    | nil => rfl
    | cons s rest ih =>
      rw [Stmt.outlines_cons, List.findSome?_cons, List.findSome?_cons,
        Stmt.asNestedFunction?_outline, ih]
  | branching test consequent alternate =>
    cases alternate <;> simp [outline, fault?]
  | loop line test body => exact Stmt.nestedFunction?_outline body

end Segment

namespace Part

/-- The part with nothing kept of its expressions but their lines. -/
def outline : Part → Part
  | .run stmts => .run (Stmt.outlines stmts)
  | .decision test => .decision test.anchor
  | .branch body => .branch body.outline
  | .inner body => .inner body.outline
  | .merge => .merge
  | .round line => .round line
  | .exit => .exit

end Part

theorem Stmt.chainParts_outline (s : Stmt) :
    s.outline.chainParts = s.chainParts.map Part.outline := by
  induction s using Stmt.chain_induction with
  | ifThen => rfl
  | ifElse line test consequent alternate ih => exact congrArg (_ :: _ :: ·) ih
  | otherwise s hs =>
    have hs' : s.outline.isConditional = false := by rw [isConditional_outline, hs]
    rw [chainParts_otherwise hs, chainParts_otherwise hs']
    rfl

theorem Segment.parts_outline (segment : Segment) :
    segment.outline.parts = segment.parts.map Part.outline := by
  cases segment with
  | run => rfl
  | branching test consequent alternate =>
    cases alternate with
    | none => rfl
    | some alternate => exact congrArg (_ :: _ :: _ :: ·) alternate.chainParts_outline
  | loop => rfl

theorem Segment.partsOf_outline (segments : List Segment) :
    partsOf (segments.map outline) = (partsOf segments).map Part.outline := by
  have hloop : (segments.map outline).getLast?.any isLoop = segments.getLast?.any isLoop := by
    rw [List.getLast?_map]
    cases segments.getLast? with
    | none => rfl
    | some segment => cases segment <;> rfl
  rw [partsOf, partsOf, hloop, List.map_append, List.flatMap_map, List.map_flatMap]
  congr 1
  · exact congrArg (segments.flatMap ·) (funext parts_outline)
  · split <;> rfl

/-- What the outline of a part decides about its node: everything but the label. -/
theorem Part.node_outline (path : Option Classification) (part : Part) (id : NodeId) :
    { part.outline.node path id with label := "" } = { part.node path id with label := "" } := by
  cases part with
  | run stmts =>
    cases stmts with
    | nil => rfl
    | cons s rest => simp [node, outline, event, Event.run, lit]
  | decision => rfl
  | branch body => simp [node, outline, event, Event.body, lit]
  | inner body => simp [node, outline, event, Event.body, lit]
  | merge => rfl
  | round => rfl
  | exit => rfl

end TraceGraph
