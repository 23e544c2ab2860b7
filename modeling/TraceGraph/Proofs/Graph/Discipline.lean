import TraceGraph.Proofs.Graph.Wiring

/-!
# The wiring of a graph after any walks

The edges of a node are added by several steps, and some of them only by what
comes next, in the same walk, in a later one or when the builder is closed.  So
the degree of a node is settled late.  Between two segments only a node that
neither is a test nor leads on yet can still get an edge, and it gets one.

* `Graph.Group`: the nodes of one segment, in order, and where they lead.
* `Builder.addSegment_group`: a segment adds its group after the nodes that are there.
* `Builder.Disciplined`: the nodes fall into the groups of the segments added so far,
  and those that are no tests lead to at most one node.
* `Builder.addSegment_disciplined` and `Builder.walkSegments_disciplined`: one segment
  and one walk, with or without a fault, keep this up.
* `Builder.disciplined_walks`: the graph after any walks.
-/

namespace TraceGraph

/-! ## Edges by their kind -/

namespace Graph

/-- Graphs that nodes and edges have been added to one by one. -/
inductive Built : Graph → Prop
  | empty : Built .empty
  | addNode {graph : Graph} (h : Built graph) (node : Node) : Built (graph.addNode node)
  | addEdge {graph : Graph} (h : Built graph) (source target : NodeId) (kind : EdgeKind) :
      Built (graph.addEdge source target kind)

/-- Each list of edges holds only edges of its kind. -/
structure ByKind (graph : Graph) : Prop where
  always : ∀ edge ∈ graph.always, edge.kind = .always
  onTrue : ∀ edge ∈ graph.onTrue, edge.kind = .onTrue
  onFalse : ∀ edge ∈ graph.onFalse, edge.kind = .onFalse

theorem Built.byKind {graph : Graph} (h : graph.Built) : graph.ByKind := by
  induction h with
  | empty => exact ⟨by simp [Graph.empty], by simp [Graph.empty], by simp [Graph.empty]⟩
  | addNode _ node ih => exact ⟨ih.always, ih.onTrue, ih.onFalse⟩
  | addEdge _ source target kind ih =>
    obtain ⟨halways, htrue, hfalse⟩ := ih
    cases kind with
    | always => exact ⟨by simpa [Graph.addEdge, or_imp, forall_and] using halways, htrue, hfalse⟩
    | onTrue => exact ⟨halways, by simpa [Graph.addEdge, or_imp, forall_and] using htrue, hfalse⟩
    | onFalse => exact ⟨halways, htrue, by simpa [Graph.addEdge, or_imp, forall_and] using hfalse⟩

end Graph

namespace Builder

section

variable {b : Builder}

theorem addNext_built (h : b.graph.Built) (label : String) (shape : NodeShape)
    (highlighted : Bool) (line : Option Nat) :
    (b.addNext label shape highlighted line).2.graph.Built :=
  h.addNode _

theorem link_built (h : b.graph.Built) (last : Option NodeId) (target : NodeId) :
    (b.link last target).graph.Built := by
  cases last with
  | none => exact h
  | some source => exact h.addEdge source target .always

theorem addLink_built (h : b.graph.Built) (test : Expr) (consequent : Stmt) (merge : NodeId) :
    (b.addLink test consequent merge).2.graph.Built :=
  (((h.addNode _).addNode _).addEdge _ merge .always).addEdge _ _ .onTrue

theorem addAlternate_built (h : b.graph.Built) (decision merge : NodeId) (alternate : Stmt) :
    (b.addAlternate decision merge alternate).graph.Built := by
  induction alternate using Stmt.chain_induction generalizing b decision with
  | ifThen line test consequent =>
    exact ((addLink_built h test consequent merge).addEdge _ _ .onFalse).addEdge _ _ .onFalse
  | ifElse line test consequent alternate ih =>
    rw [addAlternate_ifElse]
    exact ih ((addLink_built h test consequent merge).addEdge _ _ .onFalse) _
  | otherwise s hs =>
    rw [addAlternate_otherwise _ _ _ hs]
    exact ((h.addNode _).addEdge _ _ .onFalse).addEdge _ _ .always

theorem addSegment_built (h : b.graph.Built) (last : Option NodeId) (segment : Segment) :
    (b.addSegment last segment).2.graph.Built := by
  cases segment with
  | run stmts => exact link_built (h.addNode _) last _
  | branching test consequent alternate =>
    have hhead : (b.addHead test consequent last).graph.Built :=
      link_built (addLink_built (h.addNode _) test consequent b.mergeId) last _
    cases alternate with
    | none => exact hhead.addEdge _ _ .onFalse
    | some alternate => exact addAlternate_built hhead _ _ alternate
  | loop line test body =>
    have hnodes := addNext_built (addNext_built (addNext_built h "NULL" .junction b.path.isSome
      (some line)) (Label.clean test.render) .decision (b.onPath test.line) (some test.line))
      (Label.clean body.render) .block false (some body.firstLine)
    have hlink := link_built hnodes last (.statement b.next)
    have hforward := hlink.addEdge (.statement b.next) (.statement (b.next + 1)) .always
    have hback := hforward.addEdge (.statement (b.next + 2)) (.statement b.next) .always
    have htrue := hback.addEdge (.statement (b.next + 1)) (.statement (b.next + 2)) .onTrue
    exact htrue.addEdge (.statement (b.next + 1)) _ .onFalse

theorem walkSegments_built (h : b.graph.Built) (last : Option NodeId) (segments : List Segment) :
    (b.walkSegments last segments).1.graph.Built := by
  induction segments generalizing b last with
  | nil => exact h
  | cons segment rest ih =>
    rw [walkSegments]
    cases segment.fault? with
    | some fault => exact h
    | none => exact ih (addSegment_built h last segment) _

theorem close_built (h : b.graph.Built) : b.finish.Built := by
  rw [finish, close]
  split
  · exact h.addNode _
  · exact h

end

end Builder

/-! ## Groups of nodes -/

/-- A conditional with or without an alternative. -/
def Stmt.conditional (line : Nat) (test : Expr) (consequent : Stmt) : Option Stmt → Stmt
  | none => .ifThen line test consequent
  | some alternate => .ifElse line test consequent alternate

/-- The segments before the first one with a fault, which are those that a walk adds. -/
def Segment.sound (segments : List Segment) : List Segment :=
  segments.takeWhile (·.fault?.isNone)

namespace Graph

/-- A test and its consequent, which leads to the merge.  If the test fails, the node
`no` comes next. -/
structure Link (graph : Graph) (merge : NodeId) (test : Expr) (consequent : Stmt)
    (decision body : Node) (no : NodeId) : Prop where
  shows_decision : decision.Shows (.decision test)
  shows_body : body.Shows (.body consequent)
  exits_decision : graph.exits decision.id = .fork body.id no
  exits_body : graph.exits body.id = .pass merge

/-- The nodes of a chain of conditionals that meets again at the merge, or of what
comes after its last `else`.  A last link without `else` leads to the merge if its
test fails. -/
inductive Chain (graph : Graph) (merge : NodeId) : Stmt → List Node → Prop
  | ifThen {line : Nat} {test : Expr} {consequent : Stmt} {decision body : Node}
      (hlink : graph.Link merge test consequent decision body merge) :
      Chain graph merge (.ifThen line test consequent) [decision, body]
  | ifElse {line : Nat} {test : Expr} {consequent alternate : Stmt} {decision body next : Node}
      {rest : List Node} (hlink : graph.Link merge test consequent decision body next.id)
      (hrest : Chain graph merge alternate (next :: rest)) :
      Chain graph merge (.ifElse line test consequent alternate) (decision :: body :: next :: rest)
  | otherwise {s : Stmt} {body : Node} (hs : s.isConditional = false)
      (hshows : body.Shows (.body s)) (hexits : graph.exits body.id = .pass merge) :
      Chain graph merge s [body]

/-- A link is complete once its test leads somewhere if it fails, and nothing else
happens to its consequent. -/
theorem Opens.link {fixed : NodeId → Prop} {graph graph' : Graph} {merge id yes no : NodeId}
    {test : Expr} {consequent : Stmt} {decision body : Node}
    (h : graph.Opens merge test consequent id yes)
    (hdecision : decision.id = id ∧ decision.Shows (.decision test))
    (hbody : body.id = yes ∧ body.Shows (.body consequent))
    (hkeeps : Keeps fixed graph graph') (hyes : fixed yes)
    (hno : graph'.exits id = (graph.exits id).add no .onFalse) :
    graph'.Link merge test consequent decision body no := by
  obtain ⟨rfl, hdecision⟩ := hdecision
  obtain ⟨rfl, hbody⟩ := hbody
  obtain ⟨-, hopen, -, hjoin⟩ := h
  refine ⟨hdecision, hbody, ?_, (hkeeps.exits hyes).trans hjoin⟩
  rw [hno, hopen, Exits.none_add_onTrue_add_onFalse]

/-- The nodes of a segment, in order, and where they lead.  The node of a run and the
merge of a conditional lead on to what comes next. -/
inductive Group (graph : Graph) : Segment → List Node → Prop
  | run {stmts : List Stmt} {node : Node} (hshows : node.Shows (.run stmts)) :
      Group graph (.run stmts) [node]
  | branching {line : Nat} {test : Expr} {consequent : Stmt} {alternate : Option Stmt}
      {merge : Node} {nodes : List Node} (hmerge : merge.Shows .merge)
      (hsigned : merge.id.signed < 0)
      (hchain : graph.Chain merge.id (.conditional line test consequent alternate) nodes) :
      Group graph (.branching test consequent alternate) (merge :: nodes)
  | loop {line : Nat} {test : Expr} {body : Stmt} {entry decision inner : Node} {next : NodeId}
      (hentry : entry.Shows (.round line)) (hdecision : decision.Shows (.decision test))
      (hinner : inner.Shows (.body body)) (hforward : graph.exits entry.id = .pass decision.id)
      (hfork : graph.exits decision.id = .fork inner.id next)
      (hback : graph.exits inner.id = .pass entry.id) :
      Group graph (.loop line test body) [entry, decision, inner]

section

variable {graph graph' : Graph} {merge : NodeId}

theorem Link.grows {test : Expr} {consequent : Stmt} {decision body : Node} {no : NodeId}
    (h : graph.Link merge test consequent decision body no) (hgrows : graph.Grows graph') :
    graph'.Link merge test consequent decision body no :=
  ⟨h.shows_decision, h.shows_body, hgrows.exits h.exits_decision (Exits.fork_ne_none _ _),
    hgrows.exits h.exits_body (Exits.pass_ne_none _)⟩

theorem Chain.grows {s : Stmt} {nodes : List Node} (h : graph.Chain merge s nodes)
    (hgrows : graph.Grows graph') : graph'.Chain merge s nodes := by
  induction h with
  | ifThen hlink => exact .ifThen (hlink.grows hgrows)
  | ifElse hlink _ ih => exact .ifElse (hlink.grows hgrows) ih
  | otherwise hs hshows hexits =>
    exact .otherwise hs hshows (hgrows.exits hexits (Exits.pass_ne_none _))

/-- A group stays one, since all its edges are there already but those that lead on
from it. -/
theorem Group.grows {segment : Segment} {nodes : List Node} (h : graph.Group segment nodes)
    (hgrows : graph.Grows graph') : graph'.Group segment nodes := by
  cases h with
  | run hshows => exact .run hshows
  | branching hmerge hsigned hchain => exact .branching hmerge hsigned (hchain.grows hgrows)
  | loop hentry hdecision hinner hforward hfork hback =>
    exact .loop hentry hdecision hinner (hgrows.exits hforward (Exits.pass_ne_none _))
      (hgrows.exits hfork (Exits.fork_ne_none _ _)) (hgrows.exits hback (Exits.pass_ne_none _))

/-- Whether a node is a test that leads to a block among the given nodes if it holds. -/
def Decides (graph : Graph) (nodes : List Node) (node : Node) : Prop :=
  node.shape = .decision ∧
    ∃ body ∈ nodes, ∃ no, body.shape = .block ∧ graph.exits node.id = .fork body.id no

/-- Whether a node leads to at most one node, and without a condition. -/
def Passes (graph : Graph) (node : Node) : Prop :=
  graph.exits node.id = .none ∨ ∃ next, graph.exits node.id = .pass next

theorem Link.decides {test : Expr} {consequent : Stmt} {decision body : Node} {no : NodeId}
    (h : graph.Link merge test consequent decision body no) {nodes : List Node}
    (hbody : body ∈ nodes) : graph.Decides nodes decision :=
  ⟨h.shows_decision.1, body, hbody, no, h.shows_body.1, h.exits_decision⟩

theorem Decides.mono {nodes nodes' : List Node} {node : Node} (h : graph.Decides nodes node)
    (hsubset : nodes ⊆ nodes') : graph.Decides nodes' node := by
  obtain ⟨hdecision, body, hbody, hexits⟩ := h
  exact ⟨hdecision, body, hsubset hbody, hexits⟩

/-- In a chain tests lead to their consequents, and all other nodes to the merge. -/
theorem Chain.exits_cases {s : Stmt} {nodes : List Node} (h : graph.Chain merge s nodes) :
    ∀ node ∈ nodes, graph.Decides nodes node ∨
      node.shape ≠ .decision ∧ graph.exits node.id = .pass merge := by
  induction h with
  | ifThen hlink =>
    simp only [List.mem_cons, List.not_mem_nil, or_false, forall_eq_or_imp, forall_eq]
    refine ⟨.inl (hlink.decides (by simp)), .inr ⟨?_, hlink.exits_body⟩⟩
    simp [hlink.shows_body.1, Event.body]
  | @ifElse _ _ _ _ decision body next rest hlink _ ih =>
    rw [List.forall_mem_cons, List.forall_mem_cons]
    refine ⟨.inl (hlink.decides (by simp)), .inr ⟨?_, hlink.exits_body⟩, fun node hnode => ?_⟩
    · simp [hlink.shows_body.1, Event.body]
    · refine (ih node hnode).imp_left fun hdecides => hdecides.mono ?_
      intro other hother
      exact List.mem_cons_of_mem _ (List.mem_cons_of_mem _ hother)
  | otherwise hs hshows hexits =>
    simp only [List.mem_cons, List.not_mem_nil, or_false, forall_eq]
    exact .inr ⟨by simp [hshows.1, Event.body], hexits⟩

/-- A test of a group leads to its consequent, or to the body of the loop. -/
theorem Group.decides {segment : Segment} {nodes : List Node} (h : graph.Group segment nodes)
    {node : Node} (hnode : node ∈ nodes) (hshape : node.shape = .decision) :
    graph.Decides nodes node := by
  cases h with
  | run hshows =>
    rw [List.mem_singleton.1 hnode, hshows.1] at hshape
    cases hshape
  | branching hmerge _ hchain =>
    rcases List.mem_cons.1 hnode with rfl | hnode
    · rw [hmerge.1] at hshape
      cases hshape
    · rcases hchain.exits_cases node hnode with hdecides | ⟨hne, -⟩
      · exact hdecides.mono (List.subset_cons_self _ _)
      · exact absurd hshape hne
  | @loop _ _ _ entry decision inner next hentry _ hinner _ hfork _ =>
    simp only [List.mem_cons, List.not_mem_nil, or_false] at hnode
    rcases hnode with rfl | rfl | rfl
    · rw [hentry.1] at hshape
      cases hshape
    · exact ⟨hshape, inner, by simp, next, hinner.1, hfork⟩
    · rw [hinner.1] at hshape
      cases hshape

end

end Graph

namespace Builder

section

variable {first : Nat} {b : Builder}

/-! ## Chains -/

/-- The nodes that a link of a chain adds. -/
private theorem nodes_addLink (b : Builder) (test : Expr) (consequent : Stmt) (merge : NodeId) :
    ∃ decision body, (b.addLink test consequent merge).2.graph.nodes
        = b.graph.nodes ++ [decision, body] ∧
      (decision.id = .statement b.next ∧ decision.Shows (.decision test)) ∧
      body.id = .statement (b.next + 1) ∧ body.Shows (.body consequent) := by
  refine ⟨⟨.statement b.next, Label.numbered (.statement b.next) (Label.clean test.render),
      .decision, b.onPath test.line, some test.line⟩,
    ⟨.statement (b.next + 1),
      Label.numbered (.statement (b.next + 1)) (Label.clean consequent.render), .block,
      b.onPath consequent.firstLine, some consequent.firstLine⟩,
    ?_, ⟨rfl, rfl, rfl, rfl⟩, rfl, rfl, rfl, rfl⟩
  exact List.append_assoc _ _ _

/-- The next link of a chain, once the test before it leads to it. -/
private theorem addNextLink_opens (h : Numbered first b) {decision : NodeId}
    (hdecision : decision ∈ b.graph.ids) (test : Expr) (consequent : Stmt) (merge : NodeId) :
    ((b.addLink test consequent merge).2.addEdge decision (.statement b.next)
      .onFalse).graph.Opens merge test consequent (.statement b.next)
        (.statement (b.next + 1)) := by
  refine (addLink_opens h test consequent merge).keeps
    ((Graph.Keeps.refl (· ≠ decision) _).addEdge (fun hself => hself rfl) _ .onFalse) ?_ ?_
  · exact statement_ne h (Nat.le_refl _) hdecision
  · exact statement_ne h (Nat.le_succ _) hdecision

/-- What a chain adds after its first link are the nodes of the rest of the chain. -/
theorem addAlternate_chain (h : Numbered first b) (decision merge : NodeId)
    (hdecision : decision ∈ b.graph.ids) (hmerge : merge ∈ b.graph.ids) (alternate : Stmt) :
    ∃ next rest, (b.addAlternate decision merge alternate).graph.nodes
        = b.graph.nodes ++ next :: rest ∧ next.id = .statement b.next ∧
      (b.addAlternate decision merge alternate).graph.Chain merge alternate (next :: rest) := by
  induction alternate using Stmt.chain_induction generalizing b decision with
  | ifThen line test consequent =>
    obtain ⟨decision', body, hnodes, hdecision', hbody⟩ := nodes_addLink b test consequent merge
    have hopens := addNextLink_opens h hdecision test consequent merge
    have hkeeps := (Graph.Keeps.refl (· ≠ .statement b.next) ((b.addLink test consequent
      merge).2.addEdge decision (.statement b.next) .onFalse).graph).addEdge
        (fun hself => hself rfl) merge .onFalse
    rw [addAlternate_ifThen]
    refine ⟨decision', [body], hnodes, hdecision'.1, .ifThen (hopens.link hdecision' hbody hkeeps
      (by simp) ?_)⟩
    exact (Graph.exits_addEdge _ _ _ _ _).trans (if_pos rfl)
  | ifElse line test consequent alternate ih =>
    obtain ⟨decision', body, hnodes, hdecision', hbody⟩ := nodes_addLink b test consequent merge
    have hopens := addNextLink_opens h hdecision test consequent merge
    have hnumbered := addEdge_numbered (addLink_numbered h test consequent merge hmerge) decision
      (.statement b.next) (by simp [hdecision]) (by simp) .onFalse
    obtain ⟨next, rest, hadded, hnext, hchain⟩ := ih hnumbered (.statement b.next) (by simp)
      (by simp [hmerge])
    obtain ⟨hno, -⟩ := addAlternate_chained hnumbered (.statement b.next) merge (by simp)
      (by simp [hmerge]) alternate
    rw [← hnext] at hno
    -- the rest of the chain leaves the consequent alone and gives the test its other edge
    have hkeeps := addAlternate_keeps (Graph.Keeps.refl (· = .statement (b.next + 1))
        ((b.addLink test consequent merge).2.addEdge decision (.statement b.next) .onFalse).graph)
      (fun n hn => by simp at hn ⊢; omega)
      (show ¬ NodeId.statement b.next = .statement (b.next + 1) by simp) merge alternate
    rw [addAlternate_ifElse]
    refine ⟨decision', body :: next :: rest, ?_, hdecision'.1, .ifElse (hopens.link hdecision'
      hbody hkeeps rfl hno) hchain⟩
    rw [hadded]
    show (b.addLink test consequent merge).2.graph.nodes ++ _ = _
    rw [hnodes, List.append_assoc]
    rfl
  | otherwise s hs =>
    rw [addAlternate_otherwise _ _ _ hs]
    refine ⟨⟨.statement b.next, Label.numbered (.statement b.next) (Label.clean s.render), .block,
      b.onPath s.firstLine, some s.firstLine⟩, [], rfl, rfl, .otherwise hs ⟨rfl, rfl, rfl⟩ ?_⟩
    have hself := (statement_ne h (Nat.le_refl _) hdecision).symm
    simp [addBody, Graph.exits_addEdge, hself, exits_statement h (Nat.le_refl _)]

/-! ## Segments -/

variable {last : Option NodeId}

private theorem nodes_link (b : Builder) (last : Option NodeId) (target : NodeId) :
    (b.link last target).graph.nodes = b.graph.nodes := by
  cases last <;> rfl

/-- The nodes that the first link of a conditional adds, after its merge. -/
private theorem nodes_addHead (b : Builder) (test : Expr) (consequent : Stmt)
    (last : Option NodeId) :
    ∃ merge decision body, (b.addHead test consequent last).graph.nodes
        = b.graph.nodes ++ [merge, decision, body] ∧
      (merge.id = b.mergeId ∧ merge.Shows .merge) ∧
      (decision.id = .statement b.next ∧ decision.Shows (.decision test)) ∧
      body.id = .statement (b.next + 1) ∧ body.Shows (.body consequent) := by
  obtain ⟨decision, body, hnodes, hdecision, hbody⟩ := nodes_addLink
    (b.addNode b.mergeId "" .junction b.path.isSome none) test consequent b.mergeId
  refine ⟨⟨b.mergeId, "", .junction, b.path.isSome, none⟩, decision, body, ?_,
    ⟨rfl, rfl, rfl, rfl⟩, hdecision, hbody⟩
  rw [addHead, nodes_link, hnodes]
  exact List.append_assoc _ _ _

private theorem addBranching_group (h : Ready first b last) (test : Expr) (consequent : Stmt)
    (alternate : Option Stmt) :
    let graph := (b.addBranching test consequent alternate last).2.graph
    ∃ merge nodes, graph.nodes = b.graph.nodes ++ merge :: nodes ∧ merge.id = b.mergeId ∧
      merge.Shows .merge ∧
      graph.Chain merge.id (.conditional 0 test consequent alternate) nodes := by
  obtain ⟨merge, decision, body, hnodes, hmerge, hdecision, hbody⟩ :=
    nodes_addHead b test consequent last
  have hopens := addHead_opens h test consequent
  have hnumbered := addHead_numbered h test consequent
  cases alternate with
  | none =>
    have hkeeps := (Graph.Keeps.refl (· ≠ .statement b.next)
      (b.addHead test consequent last).graph).addEdge (fun hself => hself rfl) b.mergeId .onFalse
    refine ⟨merge, [decision, body], hnodes, hmerge.1, hmerge.2, .ifThen ?_⟩
    rw [hmerge.1]
    exact hopens.link hdecision hbody hkeeps (by simp)
      ((Graph.exits_addEdge _ _ _ _ _).trans (if_pos rfl))
  | some alternate =>
    obtain ⟨next, rest, hadded, hnext, hchain⟩ := addAlternate_chain hnumbered (.statement b.next)
      b.mergeId (by simp) (by simp) alternate
    obtain ⟨hno, -⟩ := addAlternate_chained hnumbered (.statement b.next) b.mergeId (by simp)
      (by simp) alternate
    rw [← hnext] at hno
    have hkeeps := addAlternate_keeps
      (Graph.Keeps.refl (· = .statement (b.next + 1)) (b.addHead test consequent last).graph)
      (fun n hn => by simp at hn ⊢; omega)
      (show ¬ NodeId.statement b.next = .statement (b.next + 1) by simp) b.mergeId alternate
    refine ⟨merge, decision :: body :: next :: rest, ?_, hmerge.1, hmerge.2, ?_⟩
    · rw [addBranching_some, hadded, hnodes, List.append_assoc]
      rfl
    · rw [hmerge.1]
      exact .ifElse (hopens.link hdecision hbody hkeeps rfl hno) hchain

/-- A segment adds its group after the nodes that are there.  Those of its nodes that
are no tests lead to at most one node. -/
theorem addSegment_group (h : Ready first b last) (segment : Segment) :
    ∃ nodes, (b.addSegment last segment).2.graph.nodes = b.graph.nodes ++ nodes ∧
      (b.addSegment last segment).2.graph.Group segment nodes ∧
      ∀ node ∈ nodes, node.shape ≠ .decision →
        (b.addSegment last segment).2.graph.Passes node := by
  cases segment with
  | run stmts =>
    refine ⟨[⟨.statement b.next, Label.numbered (.statement b.next) (Event.run stmts).label, .block,
      ((stmts.head?.map Stmt.line).map b.onPath).getD false, stmts.head?.map Stmt.line⟩], ?_,
      .run ⟨rfl, rfl, rfl⟩, ?_⟩
    · exact nodes_link _ _ _
    · simp only [List.mem_singleton, forall_eq]
      exact fun _ => .inl (addRun_wired h stmts).2
  | branching test consequent alternate =>
    obtain ⟨merge, nodes, hnodes, hid, hmerge, hchain⟩ :=
      addBranching_group h test consequent alternate
    have hsigned : merge.id.signed < 0 := by
      rw [hid]
      simp only [NodeId.signed]
      omega
    refine ⟨merge :: nodes, hnodes, .branching hmerge hsigned hchain, ?_⟩
    rw [List.forall_mem_cons]
    -- the merge waits for what comes next, all else in the chain leads to the merge
    refine ⟨fun _ => .inl ?_, fun node hnode hshape => .inr ?_⟩
    · rw [hid]
      exact (addBranching_wired h test consequent alternate).2.2
    · rcases hchain.exits_cases node hnode with ⟨hdecision, -⟩ | ⟨-, hpass⟩
      · exact absurd hdecision hshape
      · exact ⟨_, hpass⟩
  | loop line test body =>
    obtain ⟨-, hforward, -, hfork, -, hback⟩ := addLoop_wired h line test body
    refine ⟨[⟨.statement b.next, Label.numbered (.statement b.next) "NULL", .junction,
        b.path.isSome, some line⟩,
      ⟨.statement (b.next + 1), Label.numbered (.statement (b.next + 1)) (Label.clean test.render),
        .decision, b.onPath test.line, some test.line⟩,
      ⟨.statement (b.next + 2), Label.numbered (.statement (b.next + 2)) (Label.clean body.render),
        .block, false, some body.firstLine⟩], ?_,
      .loop ⟨rfl, rfl, rfl⟩ ⟨rfl, rfl, rfl⟩ ⟨rfl, rfl, rfl⟩ hforward hfork hback, ?_⟩
    · refine (nodes_link _ _ _).trans ?_
      simp [Graph.addNode]
      rfl
    · simp only [List.forall_mem_cons, List.not_mem_nil, false_implies, implies_true, and_true]
      exact ⟨fun _ => .inr ⟨_, hforward⟩, fun hshape => absurd rfl hshape,
        fun _ => .inr ⟨_, hback⟩⟩

/-! ## The invariant -/

/-- The nodes fall into the groups of the segments that have been added, and those
that are no tests lead to at most one node. -/
structure Disciplined (b : Builder) (segments : List Segment) : Prop where
  groups : ∃ groups, b.graph.nodes = groups.flatten ∧
    List.Forall₂ b.graph.Group segments groups
  passes : ∀ node ∈ b.graph.nodes, node.shape ≠ .decision → b.graph.Passes node

theorem start_disciplined (first : Nat) (path : Option Classification) :
    (start first path).Disciplined [] :=
  ⟨⟨[], rfl, .nil⟩, by simp [start, Graph.empty]⟩

/-- The node before a segment now leads to it, and where all other nodes lead stays. -/
theorem addSegment_passes (h : Ready first b last)
    (hidle : ∀ id ∈ last, b.graph.exits id = .none) (segment : Segment) {node : Node}
    (hnode : node ∈ b.graph.nodes) (hpasses : b.graph.Passes node) :
    (b.addSegment last segment).2.graph.Passes node := by
  by_cases hlast : last = some node.id
  · exact .inr ⟨_, addSegment_links h hidle segment node.id hlast⟩
  · have hkeeps := addSegment_keeps (Graph.Keeps.refl (fun id => id ∈ b.graph.ids ∧ last ≠ some id)
      b.graph) (fun n hn hold => statement_not_mem h.toNumbered hn hold.1)
      (fun id hid hold => hold.2 hid) segment
    rw [Graph.Passes, hkeeps.exits ⟨List.mem_map_of_mem hnode, hlast⟩]
    exact hpasses

/-- Adding a segment keeps the discipline, if the node before it does not lead on yet. -/
theorem addSegment_disciplined (h : Ready first b last)
    (hidle : ∀ id ∈ last, b.graph.exits id = .none) {segments : List Segment}
    (hdisciplined : b.Disciplined segments) (segment : Segment) :
    (b.addSegment last segment).2.Disciplined (segments ++ [segment]) := by
  obtain ⟨⟨groups, hnodes, hgroups⟩, hpasses⟩ := hdisciplined
  obtain ⟨nodes, hadded, hgroup, hnew⟩ := addSegment_group h segment
  have hgrows := addSegment_grows h hidle segment
  refine ⟨⟨groups ++ [nodes], ?_, ?_⟩, fun node hnode hshape => ?_⟩
  · rw [hadded, hnodes, List.flatten_append, List.flatten_singleton]
  · exact List.rel_append (hgroups.imp fun _ _ hold => hold.grows hgrows) (.cons hgroup .nil)
  · rw [hadded, List.mem_append] at hnode
    rcases hnode with hold | hnode
    · exact addSegment_passes h hidle segment hold (hpasses node hold hshape)
    · exact hnew node hnode hshape

/-! ## Walks -/

/-- A walk keeps the discipline, with the segments that it adds. -/
theorem walkSegments_disciplined (h : Ready first b last)
    (hidle : ∀ id ∈ last, b.graph.exits id = .none) {segments : List Segment}
    (hdisciplined : b.Disciplined segments) (rest : List Segment) :
    (b.walkSegments last rest).1.Disciplined (segments ++ Segment.sound rest) := by
  induction rest generalizing b last segments with
  | nil =>
    rw [Segment.sound, List.takeWhile_nil, List.append_nil]
    exact hdisciplined
  | cons segment rest ih =>
    rw [walkSegments, Segment.sound]
    cases hfault : segment.fault? with
    | some fault =>
      rw [List.takeWhile_cons_of_neg (by simp [hfault]), List.append_nil]
      exact hdisciplined
    | none =>
      rw [List.takeWhile_cons_of_pos (by simp [hfault]), List.append_cons]
      exact ih (addSegment_ready h segment) (addSegment_idle h segment)
        (addSegment_disciplined h hidle hdisciplined segment)

theorem walks_disciplined (h : Ready first b none) {segments : List Segment}
    (hdisciplined : b.Disciplined segments) (bodies : List (List Stmt)) :
    (bodies.foldl (fun b body => (b.walk body).1) b).Disciplined
      (segments ++ bodies.flatMap fun body => Segment.sound (Segment.ofBody body)) := by
  induction bodies generalizing b segments with
  | nil =>
    rw [List.flatMap_nil, List.append_nil]
    exact hdisciplined
  | cons body rest ih =>
    rw [List.flatMap_cons, ← List.append_assoc]
    exact ih (walk_ready h body)
      (walkSegments_disciplined h (by simp) hdisciplined (Segment.ofBody body))

theorem walks_built (h : b.graph.Built) (bodies : List (List Stmt)) :
    (bodies.foldl (fun b body => (b.walk body).1) b).graph.Built := by
  induction bodies generalizing b with
  | nil => exact h
  | cons body rest ih => exact ih (walkSegments_built h none (Segment.ofBody body))

/-! ## The finished graph -/

/-- Closing a builder adds at most the exit, which leads nowhere. -/
theorem close_group (h : Numbered first b) :
    ∃ exits, b.finish.nodes = b.graph.nodes ++ exits ∧ exits.length ≤ 1 ∧
      ∀ node ∈ exits, node.Shows .exit ∧ b.finish.exits node.id = .none := by
  obtain ⟨-, hexits, -⟩ := close_wired h
  cases hpending : b.pending with
  | none =>
    refine ⟨[], ?_, by simp, by simp⟩
    simp [finish, close, hpending]
  | some n =>
    refine ⟨[⟨.statement b.next, Label.numbered (.statement b.next) "exit", .junction,
      b.path.isSome, none⟩], ?_, by simp, ?_⟩
    · simp [finish, close, hpending, Graph.addNode]
    · simp only [List.mem_singleton, forall_eq]
      exact ⟨⟨rfl, rfl, rfl⟩, (hexits _).trans (exits_statement h (Nat.le_refl _))⟩

end

end Builder

namespace Graph

variable {graph : Graph}

/-- In groups every test leads to a block. -/
theorem decides_of_groups {segments : List Segment} {groups : List (List Node)}
    (h : List.Forall₂ graph.Group segments groups) {node : Node} (hnode : node ∈ groups.flatten)
    (hshape : node.shape = .decision) : graph.Decides groups.flatten node := by
  induction h with
  | nil => cases hnode
  | cons hgroup _ ih =>
    rw [List.flatten_cons, List.mem_append] at hnode
    rw [List.flatten_cons]
    rcases hnode with hnode | hnode
    · exact (hgroup.decides hnode hshape).mono (List.subset_append_left _ _)
    · exact (ih hnode).mono (List.subset_append_right _ _)

/-- An edge that is followed if a test holds leads to a block. -/
theorem exists_block_of_onTrue (hsource : ∀ edge ∈ graph.edges, edge.source ∈ graph.ids)
    (hnodes : ∀ node ∈ graph.nodes, graph.Decides graph.nodes node ∨ graph.Passes node)
    {edge : Edge} (hedge : edge ∈ graph.onTrue) :
    ∃ node ∈ graph.nodes, node.id = edge.target ∧ node.shape = .block := by
  have hmem : edge ∈ graph.edges := by simp [edges, hedge]
  obtain ⟨node, hnode, hid⟩ := List.mem_map.1 (hsource edge hmem)
  have htarget : edge.target ∈ (graph.exits node.id).onTrue :=
    List.mem_map_of_mem (List.mem_filter.2 ⟨hedge, by simp [hid]⟩)
  rcases hnodes node hnode with ⟨-, body, hbody, no, hshape, hexits⟩ | hnone | ⟨next, hpass⟩
  · rw [hexits] at htarget
    exact ⟨body, hbody, (List.mem_singleton.1 htarget).symm, hshape⟩
  · rw [hnone] at htarget
    cases htarget
  · rw [hpass] at htarget
    cases htarget

end Graph

namespace Builder

/-- The wiring of a graph after any walks, whether they succeed or not.  A test has one
edge for each answer and no other, any other node has at most one edge, which is always
followed, and each list holds edges of its kind.  The nodes fall into the groups of the
segments that the walks have added, and an exit may come last. -/
theorem disciplined_walks (first : Nat) (path : Option Classification)
    (bodies : List (List Stmt)) :
    let graph := (bodies.foldl (fun b body => (b.walk body).1) (start first path)).finish
    (∀ node ∈ graph.nodes,
        if node.shape = .decision then ∃ yes no, graph.exits node.id = .fork yes no
        else graph.exits node.id = .none ∨ ∃ next, graph.exits node.id = .pass next) ∧
      graph.ByKind ∧
      (∀ edge ∈ graph.onTrue, ∃ node ∈ graph.nodes,
        node.id = edge.target ∧ node.shape = .block) ∧
      ∃ groups exits, graph.nodes = groups.flatten ++ exits ∧
        List.Forall₂ graph.Group
          (bodies.flatMap fun body => Segment.sound (Segment.ofBody body)) groups ∧
        exits.length ≤ 1 ∧ ∀ node ∈ exits, node.Shows .exit := by
  generalize hb : bodies.foldl (fun b body => (b.walk body).1) (start first path) = b
  intro graph
  have hready : Ready first b none := hb ▸ walks_ready (start_ready first path) bodies
  have hbuilt : b.graph.Built := hb ▸ walks_built .empty bodies
  obtain ⟨⟨groups, hnodes, hgroups⟩, hpasses⟩ :=
    walks_disciplined (start_ready first path) (start_disciplined first path) bodies
  rw [hb] at hnodes hgroups hpasses
  obtain ⟨hgrows, hexits, -⟩ := close_wired hready.toNumbered
  obtain ⟨exits, hclosed, hlength, hexit⟩ := close_group hready.toNumbered
  have hfinal : List.Forall₂ graph.Group _ groups :=
    hgroups.imp fun _ _ hgroup => hgroup.grows hgrows
  have hall : ∀ node ∈ graph.nodes, graph.Decides graph.nodes node ∨
      node.shape ≠ .decision ∧ graph.Passes node := by
    intro node hnode
    rw [show graph.nodes = b.graph.nodes ++ exits from hclosed] at hnode ⊢
    rcases List.mem_append.1 hnode with hold | hexiting
    · by_cases hshape : node.shape = .decision
      · rw [hnodes] at hold ⊢
        exact .inl ((Graph.decides_of_groups hfinal hold hshape).mono
          (List.subset_append_left _ _))
      · refine .inr ⟨hshape, ?_⟩
        rw [Graph.Passes, hexits]
        exact hpasses node hold hshape
    · obtain ⟨hshows, hnone⟩ := hexit node hexiting
      exact .inr ⟨by simp [hshows.1, Event.exit], .inl hnone⟩
  refine ⟨fun node hnode => ?_, (close_built hbuilt).byKind, fun edge hedge => ?_,
    groups, exits, hnodes ▸ hclosed, hfinal, hlength, fun node hnode => (hexit node hnode).1⟩
  · rcases hall node hnode with ⟨hshape, body, -, no, -, hfork⟩ | ⟨hshape, hpass⟩
    · rw [if_pos hshape]
      exact ⟨body.id, no, hfork⟩
    · rw [if_neg hshape]
      exact hpass
  · have hnumbered := (close_numbered hready.toNumbered).1
    exact Graph.exists_block_of_onTrue hnumbered.source_mem
      (fun node hnode => (hall node hnode).imp_right And.right) hedge

end Builder

end TraceGraph
