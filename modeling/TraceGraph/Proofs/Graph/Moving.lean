import TraceGraph.Proofs.Classification.Moving
import TraceGraph.Proofs.Graph.Lockstep

/-!
# Graphs of bodies on other lines

As long as no path is highlighted, the lines of a body end up in the nodes of its graph
and in faults, and have no other effect.  On other lines a body has the same graph with
the lines of its nodes changed.

* `Segment.ofBody_mapLinesAll` and `Segment.fault?_mapLines`: the segments of a body on
  other lines, and why they cannot be built.
* `Builder.Moves`: a builder has come equally far on other lines.
* `Graph.ofBody_mapLinesAll`: the graph of a body on other lines.
-/

namespace TraceGraph

variable (f : Nat → Nat)

/-! ## Statements -/

namespace Stmt

theorem render_mapLines (s : Stmt) : (s.mapLines f).render = s.render :=
  renderAt_map f (Expr.render_mapLines f) s 0

theorem firstLine_mapLines : (s : Stmt) → (s.mapLines f).firstLine = f s.firstLine
  | .block _ (s :: _) => firstLine_mapLines s
  | .block _ [] => rfl
  | .function .. | .expression .. | .declare .. | .ifThen .. | .ifElse .. | .loop .. | .exit .. =>
    rfl

theorem mapLinesAll_eq_map (body : List Stmt) : mapLinesAll f body = body.map (mapLines f) := by
  induction body with
  | nil => rfl
  | cons s rest ih => exact congrArg (s.mapLines f :: ·) ih

theorem asNestedFunction?_mapLines (s : Stmt) :
    (s.mapLines f).asNestedFunction? = s.asNestedFunction?.map (Fault.mapLine f) := by
  cases s <;> rfl

mutual

theorem nestedFunction?_mapLines : (s : Stmt) →
    (s.mapLines f).nestedFunction? = s.nestedFunction?.map (Fault.mapLine f)
  | .block _ body => nestedFunctionIn?_mapLinesAll body
  | .ifThen _ _ consequent => nestedFunction?_mapLines consequent
  | .ifElse _ _ consequent alternate => by
    show (consequent.mapLines f).nestedFunction?.or (alternate.mapLines f).nestedFunction? = _
    rw [nestedFunction?_mapLines consequent, nestedFunction?_mapLines alternate, ← Option.map_or]
    rfl
  | .loop _ _ body => nestedFunction?_mapLines body
  | .function .. | .expression .. | .declare .. | .exit .. => rfl

theorem nestedFunctionIn?_mapLinesAll : (body : List Stmt) →
    nestedFunctionIn? (mapLinesAll f body) = (nestedFunctionIn? body).map (Fault.mapLine f)
  | [] => rfl
  | s :: rest => by
    show (s.mapLines f).nestedFunction?.or (nestedFunctionIn? (mapLinesAll f rest)) = _
    rw [nestedFunction?_mapLines s, nestedFunctionIn?_mapLinesAll rest, ← Option.map_or]
    rfl

end

end Stmt

/-! ## Segments -/

namespace Segment

/-- The segment with all lines changed. -/
def mapLines : Segment → Segment
  | .run stmts => .run (Stmt.mapLinesAll f stmts)
  | .branching test consequent alternate =>
    .branching (test.mapLines f) (consequent.mapLines f) (alternate.map (Stmt.mapLines f))
  | .loop line test body => .loop (f line) (test.mapLines f) (body.mapLines f)

theorem prepend_mapLines (s : Stmt) (segments : List Segment) :
    prepend (s.mapLines f) (segments.map (mapLines f)) = (prepend s segments).map (mapLines f) := by
  cases segments with
  | nil => rfl
  | cons segment rest => cases segment <;> rfl

/-- The segments of a body on other lines. -/
theorem ofBody_mapLinesAll (body : List Stmt) :
    ofBody (Stmt.mapLinesAll f body) = (ofBody body).map (mapLines f) := by
  induction body with
  | nil => rfl
  | cons s rest ih =>
    cases s with
    | loop => exact congrArg (_ :: ·) ih
    | ifThen => exact congrArg (_ :: ·) ih
    | ifElse => exact congrArg (_ :: ·) ih
    | exit => rfl
    | _ =>
      show prepend (Stmt.mapLines f _) (ofBody (Stmt.mapLinesAll f rest)) = _
      rw [ih]
      exact prepend_mapLines f _ _

theorem fault?_mapLines (segment : Segment) :
    (segment.mapLines f).fault? = segment.fault?.map (Fault.mapLine f) := by
  cases segment with
  | run stmts =>
    show (Stmt.mapLinesAll f stmts).findSome? _ = (stmts.findSome? _).map _
    induction stmts with
    | nil => rfl
    | cons s rest ih =>
      show List.findSome? _ (s.mapLines f :: Stmt.mapLinesAll f rest) = _
      rw [List.findSome?_cons, List.findSome?_cons, Stmt.asNestedFunction?_mapLines]
      cases s.asNestedFunction? with
      | some fault => rfl
      | none => exact ih
  | branching test consequent alternate =>
    show (consequent.mapLines f).nestedFunction?.or
      ((alternate.map (Stmt.mapLines f)).bind Stmt.nestedFunction?) = _
    have halternate : (alternate.map (Stmt.mapLines f)).bind Stmt.nestedFunction?
        = (alternate.bind Stmt.nestedFunction?).map (Fault.mapLine f) := by
      cases alternate with
      | none => rfl
      | some alternate => exact Stmt.nestedFunction?_mapLines f alternate
    rw [Stmt.nestedFunction?_mapLines, halternate, ← Option.map_or]
    rfl
  | loop line test body => exact Stmt.nestedFunction?_mapLines f body

end Segment

/-- The part with all lines changed. -/
def Part.mapLines : Part → Part
  | .run stmts => .run (Stmt.mapLinesAll f stmts)
  | .merge => .merge
  | .decision test => .decision (test.mapLines f)
  | .branch body => .branch (body.mapLines f)
  | .round line => .round (f line)
  | .inner body => .inner (body.mapLines f)
  | .exit => .exit

namespace Part

/-- What is seen of a part on other lines. -/
theorem event_mapLines (part : Part) :
    (part.mapLines f).event = ⟨part.event.shape, part.event.label, part.event.line.map f⟩ := by
  have hbody : ∀ s : Stmt, Event.body (s.mapLines f)
      = ⟨.block, Label.clean s.render, some (f s.firstLine)⟩ := by
    intro s
    rw [Event.body, Stmt.render_mapLines, Stmt.firstLine_mapLines]
  cases part with
  | run stmts =>
    have hrender : (Stmt.mapLinesAll f stmts).map Stmt.render = stmts.map Stmt.render := by
      rw [Stmt.mapLinesAll_eq_map, List.map_map]
      exact List.map_congr_left fun s _ => Stmt.render_mapLines f s
    have hline : (Stmt.mapLinesAll f stmts).head?.map Stmt.line
        = (stmts.head?.map Stmt.line).map f := by
      cases stmts with
      | nil => rfl
      | cons s rest => exact congrArg some (Stmt.line_mapLines f s)
    show Event.run _ = _
    rw [Event.run, hrender, hline]
    rfl
  | decision test =>
    show Event.decision _ = _
    rw [Event.decision, Expr.render_mapLines, Expr.line_mapLines]
    rfl
  | branch body => exact hbody body
  | inner body => exact hbody body
  | merge => rfl
  | round line => rfl
  | exit => rfl

/-- Without a path nothing is highlighted. -/
theorem lit_none (part : Part) : part.lit none = false := by
  cases part with
  | run stmts => cases stmts <;> rfl
  | _ => rfl

end Part

/-! ## Builders -/

/-- The node on another line. -/
def Node.mapLine (node : Node) : Node :=
  { node with line := node.line.map f }

/-- The graph with the lines of its nodes changed. -/
def Graph.mapLines : Graph → Graph :=
  mapNodes (Node.mapLine f)

theorem Graph.mapLines_addNode (graph : Graph) (node : Node) :
    (graph.addNode node).mapLines f = (graph.mapLines f).addNode (node.mapLine f) :=
  congrArg (Graph.mk · graph.always graph.onTrue graph.onFalse) List.map_append

namespace Builder

/-- The builder on other lines. -/
def mapLines (b : Builder) : Builder :=
  { b with graph := b.graph.mapLines f }

/-- The builder `b'` has come as far as `b` on other lines, and neither of them
highlights a path. -/
structure Moves (b b' : Builder) : Prop where
  path : b.path = none
  eq : b' = b.mapLines f

namespace Moves

variable {f} {b b' : Builder}

theorem start (f : Nat → Nat) (firstId : Nat) :
    Moves f (.start firstId none) (.start firstId none) :=
  ⟨rfl, rfl⟩

theorem addNode (h : b.Moves f b') (id : NodeId) (label : String) (shape : NodeShape)
    (highlighted : Bool) (line : Option Nat) :
    (b.addNode id label shape highlighted line).Moves f
      (b'.addNode id label shape highlighted (line.map f)) := by
  obtain ⟨hpath, rfl⟩ := h
  refine ⟨hpath, ?_⟩
  show _ = { b with graph := (b.graph.addNode ⟨id, label, shape, highlighted, line⟩).mapLines f }
  rw [Graph.mapLines_addNode]
  rfl

theorem addPart (h : b.Moves f b') (part : Part) :
    (b.addPart part).Moves f (b'.addPart (part.mapLines f)) := by
  obtain ⟨hpath, rfl⟩ := h
  -- The counter moves on first, then the node is added.
  let counted : Builder := { b with
    next := b.next + 1
    pending := none
    broken := b.broken || b.pending.any (· ≠ b.next) }
  have hcounted : counted.Moves f (counted.mapLines f) := ⟨hpath, rfl⟩
  have hnode := hcounted.addNode (.statement b.next)
    (Label.numbered (.statement b.next) part.event.label) part.event.shape (part.lit b.path)
    part.event.line
  have hlit : (part.mapLines f).lit (b.mapLines f).path = part.lit b.path := by
    rw [show (b.mapLines f).path = none from hpath, hpath, Part.lit_none, Part.lit_none]
  unfold Builder.addPart
  rw [hlit, Part.event_mapLines]
  exact hnode

theorem addEdge (h : b.Moves f b') (source target : NodeId) (kind : EdgeKind) :
    (b.addEdge source target kind).Moves f (b'.addEdge source target kind) := by
  obtain ⟨hpath, rfl⟩ := h
  refine ⟨hpath, ?_⟩
  cases kind <;> rfl

theorem link (h : b.Moves f b') (last : Option NodeId) (target : NodeId) :
    (b.link last target).Moves f (b'.link last target) := by
  cases last with
  | none => exact h
  | some source => exact h.addEdge source target .always

theorem reserve (h : b.Moves f b') (decision : NodeId) :
    Moves f { b.addEdge decision (.statement b.next) .onFalse with pending := some b.next }
      { b'.addEdge decision (.statement b'.next) .onFalse with pending := some b'.next } := by
  obtain ⟨hpath, rfl⟩ := h
  exact ⟨hpath, rfl⟩

/-! ## Steps of segments -/

theorem addLink (h : b.Moves f b') (test : Expr) (consequent : Stmt) (merge : NodeId) :
    (b.addLink test consequent merge).2.Moves f
      (b'.addLink (test.mapLines f) (consequent.mapLines f) merge).2 := by
  have hnodes := (h.addPart (.decision test)).addPart (.branch consequent)
  obtain ⟨-, rfl⟩ := h
  exact (hnodes.addEdge (.statement (b.next + 1)) merge .always).addEdge (.statement b.next)
    (.statement (b.next + 1)) .onTrue

theorem addAlternate (h : b.Moves f b') (decision merge : NodeId) (alternate : Stmt) :
    (b.addAlternate decision merge alternate).Moves f
      (b'.addAlternate decision merge (alternate.mapLines f)) := by
  induction alternate using Stmt.chain_induction generalizing b b' decision with
  | ifThen line test consequent =>
    have hlink := h.addLink test consequent merge
    obtain ⟨-, rfl⟩ := h
    exact (hlink.addEdge decision (.statement b.next) .onFalse).addEdge (.statement b.next) merge
      .onFalse
  | ifElse line test consequent alternate ih =>
    have hlink := h.addLink test consequent merge
    obtain ⟨-, rfl⟩ := h
    exact ih (hlink.addEdge decision (.statement b.next) .onFalse) (.statement b.next)
  | otherwise s hs =>
    have hs' : (s.mapLines f).isConditional = false := (Stmt.isConditional_map f _ s).trans hs
    have hbody := h.addPart (.branch s)
    obtain ⟨-, rfl⟩ := h
    rw [addAlternate_otherwise _ _ _ hs, addAlternate_otherwise _ _ _ hs']
    exact (hbody.addEdge decision (.statement b.next) .onFalse).addEdge (.statement b.next) merge
      .always

theorem addHead (h : b.Moves f b') (test : Expr) (consequent : Stmt) (last : Option NodeId) :
    (b.addHead test consequent last).Moves f
      (b'.addHead (test.mapLines f) (consequent.mapLines f) last) := by
  have hmerge := h.addNode b.mergeId "" .junction b.path.isSome none
  obtain ⟨-, rfl⟩ := h
  exact (hmerge.addLink test consequent b.mergeId).link last (.statement b.next)

theorem addLoop (h : b.Moves f b') (line : Nat) (test : Expr) (body : Stmt)
    (last : Option NodeId) :
    (b.addLoop line test body last).Moves f
      (b'.addLoop (f line) (test.mapLines f) (body.mapLines f) last) := by
  have hnodes := ((h.addPart (.round line)).addPart (.decision test)).addPart (.inner body)
  obtain ⟨-, rfl⟩ := h
  have hlink := hnodes.link last (.statement b.next)
  have hforward := hlink.addEdge (.statement b.next) (.statement (b.next + 1)) .always
  have hback := hforward.addEdge (.statement (b.next + 2)) (.statement b.next) .always
  have htrue := hback.addEdge (.statement (b.next + 1)) (.statement (b.next + 2)) .onTrue
  exact htrue.reserve (.statement (b.next + 1))

end Moves

section

variable {f} {b b' : Builder} (h : b.Moves f b') (last : Option NodeId)
include h

/-- A segment keeps builders together, and both lead on from the same node. -/
theorem addSegment_moves (segment : Segment) :
    (b.addSegment last segment).2.Moves f (b'.addSegment last (segment.mapLines f)).2 ∧
      (b'.addSegment last (segment.mapLines f)).1 = (b.addSegment last segment).1 := by
  cases segment with
  | run stmts =>
    have hrun := h.addPart (.run stmts)
    obtain ⟨-, rfl⟩ := h
    exact ⟨hrun.link last (.statement b.next), rfl⟩
  | branching test consequent alternate =>
    have hhead := h.addHead test consequent last
    obtain ⟨-, rfl⟩ := h
    cases alternate with
    | none => exact ⟨hhead.addEdge (.statement b.next) b.mergeId .onFalse, rfl⟩
    | some alternate =>
      exact ⟨hhead.addAlternate (.statement b.next) b.mergeId alternate, rfl⟩
  | loop line test body => exact ⟨h.addLoop line test body last, rfl⟩

/-- Walks along segments on their lines stay together, and end with the same fault on
its line, if they end with one. -/
theorem walkSegments_moves (segments : List Segment) :
    (b.walkSegments last segments).1.Moves f
        (b'.walkSegments last (segments.map (Segment.mapLines f))).1 ∧
      (b'.walkSegments last (segments.map (Segment.mapLines f))).2
        = (b.walkSegments last segments).2.map (Fault.mapLine f) := by
  induction segments generalizing b b' last with
  | nil => exact ⟨h, rfl⟩
  | cons segment rest ih =>
    rw [List.map_cons, walkSegments, walkSegments, Segment.fault?_mapLines]
    cases segment.fault? with
    | some fault => exact ⟨h, rfl⟩
    | none =>
      obtain ⟨hadded, hlast⟩ := addSegment_moves h last segment
      show (Builder.walkSegments (b.addSegment last segment).2 _ rest).1.Moves f
          (Builder.walkSegments (b'.addSegment last (segment.mapLines f)).2
            (b'.addSegment last (segment.mapLines f)).1 _).1 ∧
        (Builder.walkSegments (b'.addSegment last (segment.mapLines f)).2
          (b'.addSegment last (segment.mapLines f)).1 _).2 = _
      rw [hlast]
      exact ih hadded (b.addSegment last segment).1

theorem close_moves : b.close.Moves f b'.close := by
  have hexit := h.addPart .exit
  have hpath := h.path
  obtain ⟨-, rfl⟩ := h
  cases hpending : b.pending with
  | none =>
    have hclose : b.close = b := by simp [close, hpending]
    have hclose' : (b.mapLines f).close = b.mapLines f := by simp [close, mapLines, hpending]
    rw [hclose, hclose']
    exact ⟨hpath, rfl⟩
  | some n =>
    have hclose : b.close = b.addPart .exit := by
      simp only [close, hpending]
      rfl
    have hclose' : (b.mapLines f).close = (b.mapLines f).addPart .exit := by
      simp only [close, mapLines, hpending]
      rfl
    rw [hclose, hclose']
    exact hexit

end

end Builder

/-- The graph of a body on other lines has the lines of its nodes changed and nothing
else. -/
theorem Graph.ofBody_mapLinesAll (body : List Stmt) (firstId : Nat) :
    ofBody (Stmt.mapLinesAll f body) firstId none
      = relined f (Graph.mapLines f) (ofBody body firstId none) := by
  obtain ⟨hmoves, hfault⟩ := Builder.walkSegments_moves (.start f firstId) none
    (Segment.ofBody body)
  unfold ofBody Builder.walk
  rw [Segment.ofBody_mapLinesAll]
  revert hmoves hfault
  rcases (Builder.start firstId none).walkSegments none (Segment.ofBody body) with ⟨b, fault⟩
  rcases (Builder.start firstId none).walkSegments none
    ((Segment.ofBody body).map (Segment.mapLines f)) with ⟨b', fault'⟩
  intro hmoves hfault
  cases fault with
  | some fault =>
    cases hfault
    rfl
  | none =>
    cases hfault
    have hclose := Builder.close_moves hmoves
    exact congrArg (fun b : Builder => Except.ok b.graph) hclose.eq

end TraceGraph
