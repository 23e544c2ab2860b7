import Mathlib.Data.List.Nodup
import TraceGraph.Graph.Builder
import TraceGraph.Proofs.Graph.Segmenting

/-!
# Node numbers over whole builder runs

A builder hands out statement numbers in order and reads junction numbers off the
same counter.  The false edge of a loop is added before the node that it leads to.
`Builder.Numbered` is the invariant that ties the counter, the reserved number,
the nodes and the edges together: an edge may only lead to a node that is not
there yet if that node has the reserved number, which is the next one.

* `Builder.addNext_numbered` and `Builder.addEdge_numbered`: the two steps that
  everything is made of keep the invariant.
* `Builder.addSegment_ready`: so does every segment, and it leads on from a node
  of the graph.
* `Builder.walk_ready`: so does every walk, also one that meets a fault.
* `Builder.numbered_walks`: the numbers of a graph after any walks.
-/

namespace TraceGraph

/-! ## Identities of nodes -/

namespace NodeId

/-- The number of a statement node. -/
def statement? : NodeId → Option Nat
  | .statement n => some n
  | .junction _ => none

/-- The number of a junction. -/
def junction? : NodeId → Option Nat
  | .statement _ => none
  | .junction n => some n

@[simp] theorem junction?_eq_some {id : NodeId} {n : Nat} :
    id.junction? = some n ↔ id = .junction n := by
  cases id <;> simp [junction?]

end NodeId

/-! ## Nodes and edges -/

namespace Graph

/-- The identities of the nodes, in order. -/
def ids (graph : Graph) : List NodeId :=
  graph.nodes.map Node.id

@[simp] theorem ids_addNode (graph : Graph) (node : Node) :
    (graph.addNode node).ids = graph.ids ++ [node.id] := by
  simp [ids, addNode]

@[simp] theorem ids_addEdge (graph : Graph) (source target : NodeId) (kind : EdgeKind) :
    (graph.addEdge source target kind).ids = graph.ids := by
  cases kind <;> rfl

@[simp] theorem mem_edges_addEdge {graph : Graph} {source target : NodeId} {kind : EdgeKind}
    {edge : Edge} : edge ∈ (graph.addEdge source target kind).edges ↔
      edge ∈ graph.edges ∨ edge = ⟨source, target, kind⟩ := by
  cases kind <;> simp [edges, addEdge] <;> tauto

end Graph

/-! ## What the steps of a builder change -/

namespace Builder

section

variable (b : Builder) (id source target : NodeId) (label : String) (shape : NodeShape)
  (kind : EdgeKind) (highlighted : Bool) (line : Option Nat)

@[simp] theorem graph_addNode : (b.addNode id label shape highlighted line).graph
    = b.graph.addNode ⟨id, label, shape, highlighted, line⟩ := rfl

@[simp] theorem next_addNode : (b.addNode id label shape highlighted line).next = b.next := rfl

@[simp] theorem graph_addEdge :
    (b.addEdge source target kind).graph = b.graph.addEdge source target kind := rfl

@[simp] theorem next_addEdge : (b.addEdge source target kind).next = b.next := rfl

@[simp] theorem fst_addNext : (b.addNext label shape highlighted line).1 = .statement b.next := rfl

@[simp] theorem graph_addNext : (b.addNext label shape highlighted line).2.graph
    = b.graph.addNode
        ⟨.statement b.next, Label.numbered (.statement b.next) label, shape, highlighted, line⟩ :=
  rfl

@[simp] theorem next_addNext : (b.addNext label shape highlighted line).2.next = b.next + 1 := rfl

@[simp] theorem broken_addNext : (b.addNext label shape highlighted line).2.broken
    = (b.broken || b.pending.any (· ≠ b.next)) := rfl

@[simp] theorem ids_link (last : Option NodeId) : (b.link last target).graph.ids = b.graph.ids := by
  cases last <;> simp [link]

@[simp] theorem next_link (last : Option NodeId) : (b.link last target).next = b.next := by
  cases last <;> rfl

end

/-! ## Where the parts of a segment go -/

section

variable (b : Builder) (last : Option NodeId) (test : Expr) (body : Stmt) (merge : NodeId)

@[simp] theorem next_addDecision : (b.addDecision test).2.next = b.next + 1 := rfl

@[simp] theorem ids_addDecision :
    (b.addDecision test).2.graph.ids = b.graph.ids ++ [.statement b.next] := by
  simp [addDecision]

@[simp] theorem next_addBody : (b.addBody body).2.next = b.next + 1 := rfl

@[simp] theorem ids_addBody :
    (b.addBody body).2.graph.ids = b.graph.ids ++ [.statement b.next] := by
  simp [addBody]

@[simp] theorem next_addRun (stmts : List Stmt) : (b.addRun stmts last).2.next = b.next + 1 := by
  simp [addRun]

@[simp] theorem ids_addRun (stmts : List Stmt) :
    (b.addRun stmts last).2.graph.ids = b.graph.ids ++ [.statement b.next] := by
  simp [addRun]

@[simp] theorem next_addLoop (line : Nat) : (b.addLoop line test body last).next = b.next + 3 := by
  simp [addLoop]

@[simp] theorem ids_addLoop (line : Nat) : (b.addLoop line test body last).graph.ids
    = b.graph.ids ++ [.statement b.next, .statement (b.next + 1), .statement (b.next + 2)] := by
  simp [addLoop]

@[simp] theorem next_addLink : (b.addLink test body merge).2.next = b.next + 2 := rfl

@[simp] theorem ids_addLink : (b.addLink test body merge).2.graph.ids
    = b.graph.ids ++ [.statement b.next, .statement (b.next + 1)] := by
  simp [addLink]

end

/-! ## Chains of conditionals -/

section

variable (b : Builder) (decision merge : NodeId) (line : Nat) (test : Expr)
  (consequent alternate : Stmt)

theorem addAlternate_ifThen : b.addAlternate decision merge (.ifThen line test consequent)
    = ((b.addLink test consequent merge).2.addEdge decision (.statement b.next) .onFalse).addEdge
        (.statement b.next) merge .onFalse := rfl

theorem addAlternate_ifElse :
    b.addAlternate decision merge (.ifElse line test consequent alternate)
      = ((b.addLink test consequent merge).2.addEdge decision (.statement b.next)
          .onFalse).addAlternate (.statement b.next) merge alternate := rfl

theorem addAlternate_otherwise {s : Stmt} (h : s.isConditional = false) :
    b.addAlternate decision merge s
      = ((b.addBody s).2.addEdge decision (.statement b.next) .onFalse).addEdge
          (.statement b.next) merge .always := by
  cases s with
  | ifThen => cases h
  | ifElse => cases h
  | _ => rfl

/-- What a chain adds after its first link are statement nodes. -/
theorem grows_addAlternate : b.next ≤ (b.addAlternate decision merge alternate).next ∧
    ∃ added, (b.addAlternate decision merge alternate).graph.ids = b.graph.ids ++ added ∧
      ∀ n, .junction n ∉ added := by
  induction alternate using Stmt.chain_induction generalizing b decision with
  | ifThen line test consequent =>
    rw [addAlternate_ifThen]
    refine ⟨?_, [.statement b.next, .statement (b.next + 1)], ?_, ?_⟩ <;> simp
  | ifElse line test consequent alternate ih =>
    rw [addAlternate_ifElse]
    obtain ⟨hnext, added, hids, hadded⟩ :=
      ih ((b.addLink test consequent merge).2.addEdge decision (.statement b.next) .onFalse)
        (.statement b.next)
    refine ⟨?_, [.statement b.next, .statement (b.next + 1)] ++ added, ?_, ?_⟩
    · rw [next_addEdge, next_addLink] at hnext
      omega
    · rw [hids, graph_addEdge, Graph.ids_addEdge, ids_addLink, List.append_assoc]
    · simpa using hadded
  | otherwise s hs =>
    rw [addAlternate_otherwise _ _ _ hs]
    refine ⟨?_, [.statement b.next], ?_, ?_⟩ <;> simp

end

/-! ## Conditionals -/

section

variable (b : Builder) (test : Expr) (consequent : Stmt) (last : Option NodeId)

/-- The junction that a conditional gets. -/
abbrev mergeId : NodeId := .junction (max b.next 1)

/-- A conditional with its junction and its first link only. -/
def addHead : Builder :=
  ((b.addNode b.mergeId "" .junction b.path.isSome none).addLink test consequent
    b.mergeId).2.link last (.statement b.next)

theorem addBranching_none : b.addBranching test consequent none last
    = (b.mergeId, (b.addHead test consequent last).addEdge (.statement b.next) b.mergeId
        .onFalse) := rfl

theorem addBranching_some (alternate : Stmt) :
    b.addBranching test consequent (some alternate) last
      = (b.mergeId, (b.addHead test consequent last).addAlternate (.statement b.next) b.mergeId
          alternate) := rfl

@[simp] theorem next_addHead : (b.addHead test consequent last).next = b.next + 2 := by
  simp [addHead]

@[simp] theorem ids_addHead : (b.addHead test consequent last).graph.ids
    = b.graph.ids ++ [b.mergeId, .statement b.next, .statement (b.next + 1)] := by
  simp [addHead]

@[simp] theorem fst_addBranching (alternate : Option Stmt) :
    (b.addBranching test consequent alternate last).1 = b.mergeId := by
  cases alternate <;> rfl

/-- A conditional adds its junction first, and then statement nodes, at least two. -/
theorem grows_addBranching (alternate : Option Stmt) :
    b.next + 2 ≤ (b.addBranching test consequent alternate last).2.next ∧
      ∃ added, (b.addBranching test consequent alternate last).2.graph.ids
          = b.graph.ids ++ b.mergeId :: added ∧ ∀ n, .junction n ∉ added := by
  cases alternate with
  | none =>
    rw [addBranching_none]
    refine ⟨?_, [.statement b.next, .statement (b.next + 1)], ?_, ?_⟩ <;> simp
  | some alternate =>
    rw [addBranching_some]
    obtain ⟨hnext, added, hids, hadded⟩ := grows_addAlternate (b.addHead test consequent last)
      (.statement b.next) b.mergeId alternate
    refine ⟨?_, [.statement b.next, .statement (b.next + 1)] ++ added, ?_, ?_⟩
    · rwa [next_addHead] at hnext
    · simp [hids]
    · simpa using hadded

end

/-! ## The invariant -/

/-- The counter, the reserved number, the nodes and the edges fit together, for a
builder that started at the number `first`. -/
structure Numbered (first : Nat) (b : Builder) : Prop where
  kept : b.broken = false
  pending_eq : ∀ n, b.pending = some n → n = b.next
  first_le : first ≤ b.next
  statements : b.graph.ids.filterMap NodeId.statement? = List.range' first (b.next - first)
  junctions : (b.graph.ids.filterMap NodeId.junction?).Pairwise (· < ·)
  junction_pos : ∀ n, .junction n ∈ b.graph.ids → 0 < n
  source_mem : ∀ edge ∈ b.graph.edges, edge.source ∈ b.graph.ids
  target_mem : ∀ edge ∈ b.graph.edges, edge.target ∈ b.graph.ids ∨
    b.pending = some b.next ∧ edge.target = .statement b.next

theorem start_numbered (first : Nat) (path : Option Classification) :
    Numbered first (start first path) where
  kept := rfl
  pending_eq _ h := by cases h
  first_le := Nat.le_refl _
  statements := by simp [start, Graph.empty, Graph.ids]
  junctions := .nil
  junction_pos _ h := by cases h
  source_mem _ h := by cases h
  target_mem _ h := by cases h

section

variable {first : Nat} {b : Builder}

/-- Handing out a number keeps the promise that was made to a loop: edges that led
to the reserved number now lead to a node. -/
theorem addNext_numbered (h : Numbered first b) (label : String) (shape : NodeShape)
    (highlighted : Bool) (line : Option Nat) :
    Numbered first (b.addNext label shape highlighted line).2 where
  kept := by
    have hpending : b.pending.any (· ≠ b.next) = false := by
      cases hp : b.pending with
      | none => rfl
      | some n => simp [h.pending_eq n hp]
    rw [broken_addNext, h.kept, hpending]
    rfl
  pending_eq _ hn := by cases hn
  first_le := Nat.le_succ_of_le h.first_le
  statements := by
    have hsub : b.next + 1 - first = b.next - first + 1 := Nat.succ_sub h.first_le
    rw [graph_addNext, Graph.ids_addNode, List.filterMap_append, h.statements, next_addNext, hsub,
      List.range'_concat, Nat.one_mul, Nat.add_sub_cancel' h.first_le]
    rfl
  junctions := by
    rw [graph_addNext, Graph.ids_addNode, List.filterMap_append]
    show (_ ++ []).Pairwise _
    rw [List.append_nil]
    exact h.junctions
  junction_pos n hn := by
    refine h.junction_pos n ?_
    simpa using hn
  source_mem edge hedge := by
    rw [graph_addNext, Graph.ids_addNode]
    exact List.mem_append_left _ (h.source_mem edge hedge)
  target_mem edge hedge := by
    rw [graph_addNext, Graph.ids_addNode]
    refine .inl ?_
    rcases h.target_mem edge hedge with hmem | ⟨-, htarget⟩
    · exact List.mem_append_left _ hmem
    · rw [htarget]
      exact List.mem_append_right _ List.mem_cons_self

/-- An edge between nodes of the graph keeps the invariant. -/
theorem addEdge_numbered (h : Numbered first b) (source target : NodeId)
    (hsource : source ∈ b.graph.ids) (htarget : target ∈ b.graph.ids) (kind : EdgeKind) :
    Numbered first (b.addEdge source target kind) where
  kept := h.kept
  pending_eq := h.pending_eq
  first_le := h.first_le
  statements := by simpa using h.statements
  junctions := by simpa using h.junctions
  junction_pos := by simpa using h.junction_pos
  source_mem edge hedge := by
    rw [graph_addEdge, Graph.ids_addEdge]
    rcases Graph.mem_edges_addEdge.1 hedge with hedge | rfl
    · exact h.source_mem edge hedge
    · exact hsource
  target_mem edge hedge := by
    rw [graph_addEdge, Graph.ids_addEdge]
    rcases Graph.mem_edges_addEdge.1 hedge with hedge | rfl
    · exact h.target_mem edge hedge
    · exact .inl htarget

theorem link_numbered (h : Numbered first b) (last : Option NodeId) (target : NodeId)
    (hlast : ∀ id ∈ last, id ∈ b.graph.ids) (htarget : target ∈ b.graph.ids) :
    Numbered first (b.link last target) := by
  cases last with
  | none => exact h
  | some id => exact addEdge_numbered h id target (hlast id rfl) htarget .always

/-- An edge to the next number, if this number is reserved along with it. -/
theorem reserve_numbered (h : Numbered first b) (source : NodeId) (hsource : source ∈ b.graph.ids)
    (kind : EdgeKind) :
    Numbered first { b.addEdge source (.statement b.next) kind with pending := some b.next } where
  kept := h.kept
  pending_eq n hn := by
    cases hn
    rfl
  first_le := h.first_le
  statements := by simpa using h.statements
  junctions := by simpa using h.junctions
  junction_pos := by simpa using h.junction_pos
  source_mem edge hedge := by
    rw [graph_addEdge, Graph.ids_addEdge]
    rcases Graph.mem_edges_addEdge.1 hedge with hedge | rfl
    · exact h.source_mem edge hedge
    · exact hsource
  target_mem edge hedge := by
    rw [graph_addEdge, Graph.ids_addEdge]
    rcases Graph.mem_edges_addEdge.1 hedge with hedge | rfl
    · rcases h.target_mem edge hedge with hmem | ⟨-, htarget⟩
      · exact .inl hmem
      · exact .inr ⟨rfl, htarget⟩
    · exact .inr ⟨rfl, rfl⟩

/-- All junction numbers lie below the counter.  This holds between segments, but
not while a conditional is added, whose junction comes before its first test. -/
def Settled (b : Builder) : Prop :=
  ∀ n, .junction n ∈ b.graph.ids → n < b.next

/-- A junction with the next number, or one instead of zero. -/
theorem addMerge_numbered (h : Numbered first b) (hsettled : b.Settled) (label : String)
    (shape : NodeShape) (highlighted : Bool) (line : Option Nat) :
    Numbered first (b.addNode (.junction (max b.next 1)) label shape highlighted line) where
  kept := h.kept
  pending_eq := h.pending_eq
  first_le := h.first_le
  statements := by
    rw [graph_addNode, Graph.ids_addNode, List.filterMap_append]
    show _ ++ [] = _
    rw [List.append_nil]
    exact h.statements
  junctions := by
    rw [graph_addNode, Graph.ids_addNode, List.filterMap_append]
    refine List.pairwise_append.2 ⟨h.junctions, List.pairwise_singleton _ _, fun n hn m hm => ?_⟩
    obtain ⟨id, hid, hn⟩ := List.mem_filterMap.1 hn
    rw [NodeId.junction?_eq_some.1 hn] at hid
    rw [List.mem_singleton.1 hm]
    exact Nat.lt_of_lt_of_le (hsettled n hid) (Nat.le_max_left _ _)
  junction_pos n hn := by
    rw [graph_addNode, Graph.ids_addNode, List.mem_append] at hn
    rcases hn with hn | hn
    · exact h.junction_pos n hn
    · cases List.mem_singleton.1 hn
      exact Nat.le_max_right _ _
  source_mem edge hedge := by
    rw [graph_addNode, Graph.ids_addNode]
    exact List.mem_append_left _ (h.source_mem edge hedge)
  target_mem edge hedge := by
    rw [graph_addNode, Graph.ids_addNode]
    rcases h.target_mem edge hedge with hmem | hpending
    · exact .inl (List.mem_append_left _ hmem)
    · exact .inr hpending

/-! ## Segments -/

/-- The builder is between two segments, and `last` leads on from a node of the
graph. -/
structure Ready (first : Nat) (b : Builder) (last : Option NodeId) : Prop extends
    Numbered first b where
  settled : b.Settled
  last_mem : ∀ id ∈ last, id ∈ b.graph.ids

theorem start_ready (first : Nat) (path : Option Classification) :
    Ready first (start first path) none where
  toNumbered := start_numbered first path
  settled _ hn := by cases hn
  last_mem _ hid := by cases hid

private theorem addRun_ready {last : Option NodeId} (h : Ready first b last)
    (stmts : List Stmt) :
    Ready first (b.addRun stmts last).2 (some (.statement b.next)) := by
  refine ⟨?_, fun n hn => ?_, ?_⟩
  · refine link_numbered (addNext_numbered h.toNumbered _ _ _ _) last _ (fun id hid => ?_) ?_
    · simp [h.last_mem id hid]
    · simp
  · rw [ids_addRun, List.mem_append] at hn
    rw [next_addRun]
    rcases hn with hn | hn
    · exact Nat.lt_succ_of_lt (h.settled n hn)
    · cases List.mem_singleton.1 hn
  · rintro id ⟨⟩
    simp

private theorem addLoop_ready {last : Option NodeId} (h : Ready first b last) (line : Nat)
    (test : Expr) (body : Stmt) : Ready first (b.addLoop line test body last) none := by
  refine ⟨?_, fun n hn => ?_, by simp⟩
  · -- three nodes, then the edges between them, and last the edge to what follows
    have hentry := addNext_numbered h.toNumbered "NULL" .junction b.path.isSome (some line)
    have hdecision := addNext_numbered hentry (Label.clean test.render) .decision
      (b.onPath test.line) (some test.line)
    have hinner := addNext_numbered hdecision (Label.clean body.render) .block false
      (some body.firstLine)
    have hlink := link_numbered hinner last (.statement b.next)
      (fun id hid => by simp [h.last_mem id hid]) (by simp)
    have hforward := addEdge_numbered hlink (.statement b.next) (.statement (b.next + 1))
      (by simp) (by simp) .always
    have hback := addEdge_numbered hforward (.statement (b.next + 2)) (.statement b.next)
      (by simp) (by simp) .always
    have htrue := addEdge_numbered hback (.statement (b.next + 1)) (.statement (b.next + 2))
      (by simp) (by simp) .onTrue
    exact reserve_numbered htrue (.statement (b.next + 1)) (by simp) .onFalse
  · rw [next_addLoop]
    have hn : .junction n ∈ b.graph.ids := by simpa using hn
    exact Nat.lt_add_right 3 (h.settled n hn)

/-- A link of a chain: its test and its consequent, which leads to the merge. -/
theorem addLink_numbered (h : Numbered first b) (test : Expr) (consequent : Stmt)
    (merge : NodeId) (hmerge : merge ∈ b.graph.ids) :
    Numbered first (b.addLink test consequent merge).2 := by
  have hdecision : Numbered first (b.addDecision test).2 := addNext_numbered h _ _ _ _
  have hbody : Numbered first ((b.addDecision test).2.addBody consequent).2 :=
    addNext_numbered hdecision _ _ _ _
  have hjoin := addEdge_numbered hbody (.statement (b.next + 1)) merge (by simp) (by simp [hmerge])
    .always
  exact addEdge_numbered hjoin (.statement b.next) (.statement (b.next + 1)) (by simp) (by simp)
    .onTrue

private theorem addAlternate_numbered (decision merge : NodeId) (alternate : Stmt)
    (h : Numbered first b) (hdecision : decision ∈ b.graph.ids) (hmerge : merge ∈ b.graph.ids) :
    Numbered first (b.addAlternate decision merge alternate) := by
  induction alternate using Stmt.chain_induction generalizing b decision with
  | ifThen line test consequent =>
    rw [addAlternate_ifThen]
    have hlink := addLink_numbered h test consequent merge hmerge
    have hedge := addEdge_numbered hlink decision (.statement b.next) (by simp [hdecision])
      (by simp) .onFalse
    exact addEdge_numbered hedge (.statement b.next) merge (by simp) (by simp [hmerge]) .onFalse
  | ifElse line test consequent alternate ih =>
    rw [addAlternate_ifElse]
    have hlink := addLink_numbered h test consequent merge hmerge
    have hedge := addEdge_numbered hlink decision (.statement b.next) (by simp [hdecision])
      (by simp) .onFalse
    exact ih (.statement b.next) hedge (by simp) (by simp [hmerge])
  | otherwise s hs =>
    rw [addAlternate_otherwise _ _ _ hs]
    have hbody : Numbered first (b.addBody s).2 := addNext_numbered h _ _ _ _
    have hedge := addEdge_numbered hbody decision (.statement b.next) (by simp [hdecision])
      (by simp) .onFalse
    exact addEdge_numbered hedge (.statement b.next) merge (by simp) (by simp [hmerge]) .always

theorem addHead_numbered {last : Option NodeId} (h : Ready first b last) (test : Expr)
    (consequent : Stmt) : Numbered first (b.addHead test consequent last) := by
  have hmerge := addMerge_numbered h.toNumbered h.settled "" .junction b.path.isSome none
  have hlink := addLink_numbered hmerge test consequent b.mergeId (by simp)
  exact link_numbered hlink last (.statement b.next) (fun id hid => by simp [h.last_mem id hid])
    (by simp)

/-- A conditional.  Its first link alone takes two numbers, so its junction lies
below the counter again afterwards. -/
private theorem addBranching_ready {last : Option NodeId} (h : Ready first b last) (test : Expr)
    (consequent : Stmt) (alternate : Option Stmt) :
    Ready first (b.addBranching test consequent alternate last).2 (some b.mergeId) := by
  obtain ⟨hnext, added, hids, hadded⟩ := grows_addBranching b test consequent last alternate
  refine ⟨?_, fun n hn => ?_, ?_⟩
  · have hhead := addHead_numbered h test consequent
    cases alternate with
    | none =>
      exact addEdge_numbered hhead (.statement b.next) b.mergeId (by simp) (by simp) .onFalse
    | some alternate =>
      exact addAlternate_numbered (.statement b.next) b.mergeId alternate hhead (by simp) (by simp)
  · rw [hids, List.mem_append, List.mem_cons] at hn
    rcases hn with hn | hn | hn
    · have hlt := h.settled n hn
      omega
    · cases hn
      omega
    · exact absurd hn (hadded n)
  · rintro id ⟨⟩
    simp [hids]

/-- Every segment leaves the builder ready for the next one. -/
theorem addSegment_ready {last : Option NodeId} (h : Ready first b last) (segment : Segment) :
    Ready first (b.addSegment last segment).2 (b.addSegment last segment).1 := by
  cases segment with
  | run stmts => exact addRun_ready h stmts
  | branching test consequent alternate =>
    have hready := addBranching_ready h test consequent alternate
    rw [← fst_addBranching b test consequent last alternate] at hready
    exact hready
  | loop line test body => exact addLoop_ready h line test body

/-! ## Walks -/

/-- A walk that starts at `last` can be followed by another walk, which starts
without a predecessor.  This also holds if the walk stops at a fault. -/
theorem walkSegments_ready {last : Option NodeId} (h : Ready first b last)
    (segments : List Segment) : Ready first (b.walkSegments last segments).1 none := by
  induction segments generalizing b last with
  | nil => exact ⟨h.toNumbered, h.settled, by simp⟩
  | cons segment rest ih =>
    rw [walkSegments]
    cases segment.fault? with
    | some fault => exact ⟨h.toNumbered, h.settled, by simp⟩
    | none => exact ih (addSegment_ready h segment)

theorem walk_ready (h : Ready first b none) (body : List Stmt) : Ready first (b.walk body).1 none :=
  walkSegments_ready h (Segment.ofBody body)

theorem walks_ready (h : Ready first b none) (bodies : List (List Stmt)) :
    Ready first (bodies.foldl (fun b body => (b.walk body).1) b) none := by
  induction bodies generalizing b with
  | nil => exact h
  | cons body rest ih => exact ih (walk_ready h body)

/-- Closing a builder keeps the last promise. -/
theorem close_numbered (h : Numbered first b) :
    Numbered first b.close ∧ b.close.pending = none := by
  cases hpending : b.pending with
  | none =>
    have hclose : b.close = b := by simp [close, hpending]
    rw [hclose]
    exact ⟨h, hpending⟩
  | some n =>
    have hclose : b.close = (b.addNext "exit" .junction b.path.isSome none).2 := by
      simp [close, hpending]
    rw [hclose]
    exact ⟨addNext_numbered h _ _ _ _, rfl⟩

/-! ## Distinct numbers -/

/-- Two nodes differ in their numbers: statement numbers grow, junction numbers
grow, and no junction has number zero, so that it cannot look like a statement. -/
theorem nodup_signed (h : Numbered first b) : (b.graph.ids.map NodeId.signed).Nodup := by
  have hstatements : (b.graph.ids.filterMap NodeId.statement?).Nodup := by
    rw [h.statements]
    exact List.nodup_range'
  have hdistinct := (List.pairwise_filterMap.1 hstatements).and
    (List.pairwise_filterMap.1 h.junctions)
  refine List.pairwise_map.2 (hdistinct.imp_of_mem fun {x y} hx hy hxy => ?_)
  cases x with
  | statement n =>
    cases y with
    | statement m =>
      have hne : n ≠ m := hxy.1 n rfl m rfl
      simp only [NodeId.signed]
      omega
    | junction m =>
      have hpos := h.junction_pos m hy
      simp only [NodeId.signed]
      omega
  | junction n =>
    have hpos := h.junction_pos n hx
    cases y with
    | statement m =>
      simp only [NodeId.signed]
      omega
    | junction m =>
      have hlt : n < m := hxy.2 n rfl m rfl
      simp only [NodeId.signed]
      omega

theorem nodup_ids (h : Numbered first b) : b.graph.ids.Nodup :=
  (nodup_signed h).of_map _

/-- Without a reserved number, no edge leads out of the graph. -/
theorem edges_mem (h : Numbered first b) (hpending : b.pending = none) (edge : Edge)
    (hedge : edge ∈ b.graph.edges) : edge.source ∈ b.graph.ids ∧ edge.target ∈ b.graph.ids := by
  refine ⟨h.source_mem edge hedge, ?_⟩
  rcases h.target_mem edge hedge with hmem | ⟨hsome, -⟩
  · exact hmem
  · rw [hpending] at hsome
    cases hsome

end

/-- The numbers of a graph after any walks, whether they succeed or not. -/
theorem numbered_walks (first : Nat) (path : Option Classification) (bodies : List (List Stmt)) :
    let b := bodies.foldl (fun b body => (b.walk body).1) (start first path)
    b.close.broken = false ∧
      b.finish.ids.Nodup ∧
      (b.finish.ids.map NodeId.signed).Nodup ∧
      (∃ count, b.finish.ids.filterMap NodeId.statement? = List.range' first count) ∧
      (∀ n, .junction n ∈ b.finish.ids → 1 ≤ n) ∧
      ∀ edge ∈ b.finish.edges, edge.source ∈ b.finish.ids ∧ edge.target ∈ b.finish.ids := by
  intro b
  have hready : Ready first b none := walks_ready (start_ready first path) bodies
  obtain ⟨hnumbered, hpending⟩ := close_numbered hready.toNumbered
  exact ⟨hnumbered.kept, nodup_ids hnumbered, nodup_signed hnumbered,
    ⟨_, hnumbered.statements⟩, hnumbered.junction_pos, edges_mem hnumbered hpending⟩

end Builder

end TraceGraph
