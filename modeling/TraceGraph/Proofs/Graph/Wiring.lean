import TraceGraph.Proofs.Graph.Execution
import TraceGraph.Proofs.Graph.Numbering

/-!
# How a finished graph is wired

`Graph.Wired` says what the graph of a list of segments looks like from its first
node on: which node shows which event, and where it leads.  A builder gets there
step by step, and the proof rests on what a step leaves alone: `Graph.Keeps` holds
between two graphs if all nodes stay and certain nodes lead where they led before.

* `Builder.addSegment_keeps`: a segment adds edges only to the node before it and
  to its own nodes.
* `Builder.addAlternate_chain`: the nodes of a chain of conditionals.
* `Builder.walkSegments_wired`: a walk without a fault wires all its segments.
-/

namespace TraceGraph

/-! ## Where a node leads -/

/-- Where the edges that leave a node lead, by their kind. -/
structure Exits where
  always : List NodeId
  onTrue : List NodeId
  onFalse : List NodeId
deriving DecidableEq, Repr

namespace Exits

/-- No edge. -/
def none : Exits := ⟨[], [], []⟩

/-- One edge, which is always followed. -/
def pass (target : NodeId) : Exits := ⟨[target], [], []⟩

/-- Two edges, one for each answer. -/
def fork (yes no : NodeId) : Exits := ⟨[], [yes], [no]⟩

/-- One more edge. -/
def add (exits : Exits) (target : NodeId) : EdgeKind → Exits
  | .always => { exits with always := exits.always ++ [target] }
  | .onTrue => { exits with onTrue := exits.onTrue ++ [target] }
  | .onFalse => { exits with onFalse := exits.onFalse ++ [target] }

@[simp] theorem none_add_always (target : NodeId) : none.add target .always = pass target := rfl

@[simp] theorem none_add_onTrue_add_onFalse (yes no : NodeId) :
    (none.add yes .onTrue).add no .onFalse = fork yes no := rfl

theorem pass_ne_none (target : NodeId) : pass target ≠ none := by
  intro h
  cases h

theorem fork_ne_none (yes no : NodeId) : fork yes no ≠ none := by
  intro h
  cases h

end Exits

namespace Graph

/-- The targets of the edges that leave a node. -/
def targets (edges : List Edge) (id : NodeId) : List NodeId :=
  (edges.filter (·.source = id)).map Edge.target

/-- Where a node leads. -/
def exits (graph : Graph) (id : NodeId) : Exits :=
  ⟨targets graph.always id, targets graph.onTrue id, targets graph.onFalse id⟩

@[simp] theorem exits_addNode (graph : Graph) (node : Node) (id : NodeId) :
    (graph.addNode node).exits id = graph.exits id := rfl

theorem targets_append_singleton (edges : List Edge) (edge : Edge) (id : NodeId) :
    targets (edges ++ [edge]) id
      = if edge.source = id then targets edges id ++ [edge.target] else targets edges id := by
  by_cases h : edge.source = id <;> simp [targets, h]

theorem exits_addEdge (graph : Graph) (source target : NodeId) (kind : EdgeKind) (id : NodeId) :
    (graph.addEdge source target kind).exits id
      = if source = id then (graph.exits id).add target kind else graph.exits id := by
  cases kind <;>
    simp only [exits, addEdge, targets_append_singleton, Exits.add] <;>
    split <;> rfl

theorem exits_eq_none {graph : Graph} {id : NodeId}
    (h : ∀ edge ∈ graph.edges, edge.source ≠ id) : graph.exits id = .none := by
  have hnil : ∀ edges : List Edge, (∀ edge ∈ edges, edge ∈ graph.edges) →
      targets edges id = [] := by
    intro edges hedges
    rw [targets, List.map_eq_nil_iff, List.filter_eq_nil_iff]
    intro edge hedge
    simpa using h edge (hedges edge hedge)
  rw [exits, hnil, hnil, hnil, Exits.none]
  · intro edge hedge
    simp [edges, hedge]
  · intro edge hedge
    simp [edges, hedge]
  · intro edge hedge
    simp [edges, hedge]

theorem node?_addNode (graph : Graph) (node : Node) (id : NodeId) :
    (graph.addNode node).node? id
      = (graph.node? id).or (if node.id = id then some node else none) := by
  rw [node?, addNode, List.find?_append, List.find?_singleton]
  by_cases h : node.id = id <;> simp [h, node?]

@[simp] theorem node?_addEdge (graph : Graph) (source target : NodeId) (kind : EdgeKind)
    (id : NodeId) : (graph.addEdge source target kind).node? id = graph.node? id := by
  cases kind <;> rfl

theorem node?_eq_none {graph : Graph} {id : NodeId} (h : id ∉ graph.ids) :
    graph.node? id = none := by
  rw [node?, List.find?_eq_none]
  intro node hnode hid
  exact h (List.mem_map.2 ⟨node, hnode, of_decide_eq_true hid⟩)

end Graph

/-! ## What a node shows -/

/-- Whether a node is drawn for an event. -/
def Node.Shows (node : Node) (event : Event) : Prop :=
  node.shape = event.shape ∧ node.label = Label.numbered node.id event.label ∧
    node.line = event.line

namespace Graph

/-- Whether the graph has a node for an event under an identity. -/
def Shows (graph : Graph) (id : NodeId) (event : Event) : Prop :=
  ∃ node, graph.node? id = some node ∧ node.Shows event

theorem Shows.addNode {graph : Graph} {id : NodeId} {event : Event} (h : graph.Shows id event)
    (node : Node) : (graph.addNode node).Shows id event := by
  obtain ⟨old, hold, hshows⟩ := h
  refine ⟨old, ?_, hshows⟩
  rw [node?_addNode, hold]
  rfl

@[simp] theorem shows_addEdge {graph : Graph} {source target id : NodeId} {kind : EdgeKind}
    {event : Event} :
    (graph.addEdge source target kind).Shows id event ↔ graph.Shows id event := by
  simp [Shows]

/-! ## What stays the same -/

/-- All nodes stay, and those in `fixed` lead where they led before. -/
structure Keeps (fixed : NodeId → Prop) (graph graph' : Graph) : Prop where
  shows : ∀ {id event}, graph.Shows id event → graph'.Shows id event
  exits : ∀ {id}, fixed id → graph'.exits id = graph.exits id

namespace Keeps

variable {fixed : NodeId → Prop} {graph graph' : Graph}

theorem refl (fixed : NodeId → Prop) (graph : Graph) : Keeps fixed graph graph :=
  ⟨fun h => h, fun _ => rfl⟩

theorem addNode (h : Keeps fixed graph graph') (node : Node) :
    Keeps fixed graph (graph'.addNode node) where
  shows hshows := (h.shows hshows).addNode node
  exits hid := h.exits hid

theorem addEdge (h : Keeps fixed graph graph') {source : NodeId} (hsource : ¬ fixed source)
    (target : NodeId) (kind : EdgeKind) :
    Keeps fixed graph (graph'.addEdge source target kind) where
  shows hshows := shows_addEdge.2 (h.shows hshows)
  exits {id} hid := by
    have hne : source ≠ id := by
      rintro rfl
      exact hsource hid
    rw [exits_addEdge, if_neg hne]
    exact h.exits hid

end Keeps

end Graph

namespace Builder

section

variable {fixed : NodeId → Prop} {graph : Graph} {b : Builder}

theorem addNext_keeps (h : graph.Keeps fixed b.graph) (label : String) (shape : NodeShape)
    (highlighted : Bool) (line : Option Nat) :
    graph.Keeps fixed (b.addNext label shape highlighted line).2.graph :=
  h.addNode _

theorem link_keeps (h : graph.Keeps fixed b.graph) {last : Option NodeId}
    (hlast : ∀ id ∈ last, ¬ fixed id) (target : NodeId) :
    graph.Keeps fixed (b.link last target).graph := by
  cases last with
  | none => exact h
  | some id => exact h.addEdge (hlast id rfl) target .always

theorem addLink_keeps (h : graph.Keeps fixed b.graph)
    (hnew : ∀ n, b.next ≤ n → ¬ fixed (.statement n)) (test : Expr) (consequent : Stmt)
    (merge : NodeId) : graph.Keeps fixed (b.addLink test consequent merge).2.graph := by
  have hnodes : graph.Keeps fixed ((b.addDecision test).2.addBody consequent).2.graph :=
    addNext_keeps (addNext_keeps h _ _ _ _) _ _ _ _
  have hjoin := hnodes.addEdge (hnew (b.next + 1) (Nat.le_succ _)) merge .always
  exact hjoin.addEdge (hnew b.next (Nat.le_refl _)) (.statement (b.next + 1)) .onTrue

theorem addAlternate_keeps (h : graph.Keeps fixed b.graph)
    (hnew : ∀ n, b.next ≤ n → ¬ fixed (.statement n)) {decision : NodeId}
    (hdecision : ¬ fixed decision) (merge : NodeId) (alternate : Stmt) :
    graph.Keeps fixed (b.addAlternate decision merge alternate).graph := by
  induction alternate using Stmt.chain_induction generalizing b decision with
  | ifThen line test consequent =>
    rw [addAlternate_ifThen]
    have hlink := addLink_keeps h hnew test consequent merge
    have hedge := hlink.addEdge hdecision (.statement b.next) .onFalse
    exact hedge.addEdge (hnew b.next (Nat.le_refl _)) merge .onFalse
  | ifElse line test consequent alternate ih =>
    rw [addAlternate_ifElse]
    have hlink := addLink_keeps h hnew test consequent merge
    have hedge := hlink.addEdge hdecision (.statement b.next) .onFalse
    refine ih hedge (fun n hn => hnew n ?_) (hnew b.next (Nat.le_refl _))
    rw [next_addEdge, next_addLink] at hn
    omega
  | otherwise s hs =>
    rw [addAlternate_otherwise _ _ _ hs]
    have hbody : graph.Keeps fixed (b.addBody s).2.graph := addNext_keeps h _ _ _ _
    have hedge := hbody.addEdge hdecision (.statement b.next) .onFalse
    exact hedge.addEdge (hnew b.next (Nat.le_refl _)) merge .always

theorem addHead_keeps (h : graph.Keeps fixed b.graph)
    (hnew : ∀ n, b.next ≤ n → ¬ fixed (.statement n)) {last : Option NodeId}
    (hlast : ∀ id ∈ last, ¬ fixed id) (test : Expr) (consequent : Stmt) :
    graph.Keeps fixed (b.addHead test consequent last).graph := by
  have hmerge : graph.Keeps fixed (b.addNode b.mergeId "" .junction b.path.isSome none).graph :=
    h.addNode _
  exact link_keeps (addLink_keeps hmerge hnew test consequent b.mergeId) hlast (.statement b.next)

theorem addBranching_keeps (h : graph.Keeps fixed b.graph)
    (hnew : ∀ n, b.next ≤ n → ¬ fixed (.statement n)) {last : Option NodeId}
    (hlast : ∀ id ∈ last, ¬ fixed id) (test : Expr) (consequent : Stmt)
    (alternate : Option Stmt) :
    graph.Keeps fixed (b.addBranching test consequent alternate last).2.graph := by
  have hhead := addHead_keeps h hnew hlast test consequent
  have hdecision := hnew b.next (Nat.le_refl _)
  cases alternate with
  | none => exact hhead.addEdge hdecision b.mergeId .onFalse
  | some alternate =>
    refine addAlternate_keeps hhead (fun n hn => hnew n ?_) hdecision b.mergeId alternate
    rw [next_addHead] at hn
    omega

theorem addLoop_keeps (h : graph.Keeps fixed b.graph)
    (hnew : ∀ n, b.next ≤ n → ¬ fixed (.statement n)) {last : Option NodeId}
    (hlast : ∀ id ∈ last, ¬ fixed id) (line : Nat) (test : Expr) (body : Stmt) :
    graph.Keeps fixed (b.addLoop line test body last).graph := by
  have hnodes := addNext_keeps (addNext_keeps (addNext_keeps h "NULL" .junction b.path.isSome
    (some line)) (Label.clean test.render) .decision (b.onPath test.line) (some test.line))
    (Label.clean body.render) .block false (some body.firstLine)
  have hlink := link_keeps hnodes hlast (.statement b.next)
  have hforward := hlink.addEdge (hnew b.next (Nat.le_refl _)) (.statement (b.next + 1)) .always
  have hback := hforward.addEdge (hnew (b.next + 2) (Nat.le_add_right _ _)) (.statement b.next)
    .always
  have hdecision := hnew (b.next + 1) (Nat.le_succ _)
  have htrue := hback.addEdge hdecision (.statement (b.next + 2)) .onTrue
  exact htrue.addEdge hdecision _ .onFalse

/-- A segment adds edges to the node before it and to its own statement nodes. -/
theorem addSegment_keeps (h : graph.Keeps fixed b.graph)
    (hnew : ∀ n, b.next ≤ n → ¬ fixed (.statement n)) {last : Option NodeId}
    (hlast : ∀ id ∈ last, ¬ fixed id) (segment : Segment) :
    graph.Keeps fixed (b.addSegment last segment).2.graph := by
  cases segment with
  | run stmts => exact link_keeps (addNext_keeps h _ _ _ _) hlast (.statement b.next)
  | branching test consequent alternate =>
    exact addBranching_keeps h hnew hlast test consequent alternate
  | loop line test body => exact addLoop_keeps h hnew hlast line test body

end

end Builder

/-! ## Wired segments -/

namespace Graph

/-- A test and its consequent, which leads to the merge.  If the test fails, the
node `no` comes next. -/
def Forks (graph : Graph) (merge : NodeId) (test : Expr) (consequent : Stmt) (id no : NodeId) :
    Prop :=
  ∃ yes, graph.Shows id (.decision test) ∧ graph.exits id = .fork yes no ∧
    graph.Shows yes (.body consequent) ∧ graph.exits yes = .pass merge

/-- A chain of conditionals that starts at a node, or what comes after the last
`else`. -/
def Chained (graph : Graph) (merge : NodeId) : Stmt → NodeId → Prop
  | .ifThen _ test consequent, id => graph.Forks merge test consequent id merge
  | .ifElse _ test consequent alternate, id =>
    ∃ next, graph.Forks merge test consequent id next ∧ graph.Chained merge alternate next
  | otherwise, id => graph.Shows id (.body otherwise) ∧ graph.exits id = .pass merge

theorem chained_otherwise {graph : Graph} {merge id : NodeId} {s : Stmt}
    (h : s.isConditional = false) :
    graph.Chained merge s id ↔ graph.Shows id (.body s) ∧ graph.exits id = .pass merge := by
  cases s with
  | ifThen => cases h
  | ifElse => cases h
  | _ => exact Iff.rfl

/-- Where the test of a conditional leads if it fails. -/
def Alternates (graph : Graph) (merge : NodeId) : Option Stmt → NodeId → Prop
  | none, id => id = merge
  | some alternate, id => graph.Chained merge alternate id

/-- A node that leads to what is wired next, or nowhere if nothing comes next. -/
def LeadsOn (graph : Graph) (id : NodeId) (rest : List Segment) (wired : NodeId → Prop) : Prop :=
  if rest.isEmpty then graph.exits id = .none
  else ∃ next, graph.exits id = .pass next ∧ wired next

/-- The segments that start at a node.  Where a loop ends and nothing follows,
there is the exit. -/
def Wired (graph : Graph) : List Segment → NodeId → Prop
  | [], id => graph.Shows id .exit ∧ graph.exits id = .none
  | .run stmts :: rest, id =>
    graph.Shows id (.run stmts) ∧ graph.LeadsOn id rest (graph.Wired rest)
  | .branching test consequent alternate :: rest, id =>
    ∃ merge next, graph.Forks merge test consequent id next ∧
      graph.Alternates merge alternate next ∧ graph.Shows merge .merge ∧
      graph.LeadsOn merge rest (graph.Wired rest)
  | .loop line test body :: rest, id =>
    ∃ decision inner next, graph.Shows id (.round line) ∧ graph.exits id = .pass decision ∧
      graph.Shows decision (.decision test) ∧ graph.exits decision = .fork inner next ∧
      graph.Shows inner (.body body) ∧ graph.exits inner = .pass id ∧ graph.Wired rest next

theorem leadsOn_of_exits {graph : Graph} {id next : NodeId} {rest : List Segment}
    {wired : NodeId → Prop}
    (hexits : graph.exits id = if rest.isEmpty then .none else .pass next)
    (hnext : rest ≠ [] → wired next) : graph.LeadsOn id rest wired := by
  cases rest with
  | nil => exact hexits
  | cons segment rest => exact ⟨next, hexits, hnext (List.cons_ne_nil _ _)⟩

/-- All nodes stay, and a node that leads on leads on the same way. -/
def Grows (graph graph' : Graph) : Prop :=
  graph.Keeps (graph.exits · ≠ .none) graph'

/-- A test and its consequent, before it is known where the test leads if it fails. -/
def Opens (graph : Graph) (merge : NodeId) (test : Expr) (consequent : Stmt) (id yes : NodeId) :
    Prop :=
  graph.Shows id (.decision test) ∧ graph.exits id = Exits.none.add yes .onTrue ∧
    graph.Shows yes (.body consequent) ∧ graph.exits yes = .pass merge

section

variable {fixed : NodeId → Prop} {graph graph' : Graph} {merge id yes no : NodeId} {test : Expr}
  {consequent : Stmt}

theorem Opens.keeps (h : graph.Opens merge test consequent id yes)
    (hkeeps : Keeps fixed graph graph') (hid : fixed id) (hyes : fixed yes) :
    graph'.Opens merge test consequent id yes := by
  obtain ⟨hshows, hexits, hbody, hjoin⟩ := h
  exact ⟨hkeeps.shows hshows, (hkeeps.exits hid).trans hexits, hkeeps.shows hbody,
    (hkeeps.exits hyes).trans hjoin⟩

theorem Opens.forks (h : graph.Opens merge test consequent id yes)
    (hkeeps : Keeps fixed graph graph') (hyes : fixed yes)
    (hid : graph'.exits id = (graph.exits id).add no .onFalse) :
    graph'.Forks merge test consequent id no := by
  obtain ⟨hshows, hexits, hbody, hjoin⟩ := h
  refine ⟨yes, hkeeps.shows hshows, ?_, hkeeps.shows hbody, (hkeeps.exits hyes).trans hjoin⟩
  rw [hid, hexits, Exits.none_add_onTrue_add_onFalse]

theorem Grows.exits (h : graph.Grows graph') {exits : Exits} (hid : graph.exits id = exits)
    (hexits : exits ≠ .none) : graph'.exits id = exits := by
  rw [← hid] at hexits ⊢
  exact Keeps.exits h hexits

theorem Grows.trans {graph'' : Graph} (h : graph.Grows graph') (h' : graph'.Grows graph'') :
    graph.Grows graph'' where
  shows hshows := h'.shows (h.shows hshows)
  exits hid := h'.exits (h.exits rfl hid) hid

theorem Forks.grows (h : graph.Forks merge test consequent id no) (hgrows : graph.Grows graph') :
    graph'.Forks merge test consequent id no := by
  obtain ⟨yes, hshows, hexits, hbody, hjoin⟩ := h
  exact ⟨yes, hgrows.shows hshows, hgrows.exits hexits (Exits.fork_ne_none yes no),
    hgrows.shows hbody, hgrows.exits hjoin (Exits.pass_ne_none merge)⟩

theorem Chained.grows {s : Stmt} (h : graph.Chained merge s id) (hgrows : graph.Grows graph') :
    graph'.Chained merge s id := by
  induction s using Stmt.chain_induction generalizing id with
  | ifThen line test consequent => exact Forks.grows h hgrows
  | ifElse line test consequent alternate ih =>
    obtain ⟨next, hforks, hrest⟩ := h
    exact ⟨next, hforks.grows hgrows, ih hrest⟩
  | otherwise s hs =>
    rw [chained_otherwise hs] at h ⊢
    exact ⟨hgrows.shows h.1, hgrows.exits h.2 (Exits.pass_ne_none merge)⟩

theorem Alternates.grows {alternate : Option Stmt} (h : graph.Alternates merge alternate id)
    (hgrows : graph.Grows graph') : graph'.Alternates merge alternate id := by
  cases alternate with
  | none => exact h
  | some alternate => exact Chained.grows h hgrows

end

end Graph

namespace Builder

section

variable {first : Nat} {b : Builder}

theorem statement_not_mem (h : Numbered first b) {n : Nat} (hn : b.next ≤ n) :
    .statement n ∉ b.graph.ids := by
  intro hmem
  have hrange : n ∈ b.graph.ids.filterMap NodeId.statement? := List.mem_filterMap.2 ⟨_, hmem, rfl⟩
  rw [h.statements, List.mem_range'_1] at hrange
  have hfirst := h.first_le
  omega

theorem statement_ne (h : Numbered first b) {n : Nat} (hn : b.next ≤ n) {id : NodeId}
    (hid : id ∈ b.graph.ids) : .statement n ≠ id := by
  intro heq
  rw [← heq] at hid
  exact statement_not_mem h hn hid

theorem exits_of_not_mem (h : Numbered first b) {id : NodeId} (hid : id ∉ b.graph.ids) :
    b.graph.exits id = .none := by
  refine Graph.exits_eq_none fun edge hedge hsource => hid ?_
  rw [← hsource]
  exact h.source_mem edge hedge

theorem exits_statement (h : Numbered first b) {n : Nat} (hn : b.next ≤ n) :
    b.graph.exits (.statement n) = .none :=
  exits_of_not_mem h (statement_not_mem h hn)

theorem addNext_shows (h : Numbered first b) (label : String) (shape : NodeShape)
    (highlighted : Bool) (line : Option Nat) :
    (b.addNext label shape highlighted line).2.graph.Shows (.statement b.next)
      ⟨shape, label, line⟩ := by
  refine ⟨⟨.statement b.next, Label.numbered _ label, shape, highlighted, line⟩, ?_, rfl, rfl, rfl⟩
  rw [graph_addNext, Graph.node?_addNode,
    Graph.node?_eq_none (statement_not_mem h (Nat.le_refl b.next)), Option.none_or, if_pos rfl]

theorem addLink_opens (h : Numbered first b) (test : Expr) (consequent : Stmt) (merge : NodeId) :
    (b.addLink test consequent merge).2.graph.Opens merge test consequent (.statement b.next)
      (.statement (b.next + 1)) := by
  have hdecision := addNext_shows h (Label.clean test.render) .decision (b.onPath test.line)
    (some test.line)
  have hnumbered : Numbered first (b.addDecision test).2 := addNext_numbered h _ _ _ _
  have hbody := addNext_shows hnumbered (Label.clean consequent.render) .block
    ((b.addDecision test).2.onPath consequent.firstLine) (some consequent.firstLine)
  refine ⟨?_, ?_, ?_, ?_⟩
  · exact Graph.shows_addEdge.2 (Graph.shows_addEdge.2 (hdecision.addNode _))
  · simp [addLink, addBody, addDecision, Graph.exits_addEdge, exits_statement h (Nat.le_refl _)]
  · exact Graph.shows_addEdge.2 (Graph.shows_addEdge.2 hbody)
  · simp [addLink, addBody, addDecision, Graph.exits_addEdge, exits_statement h (Nat.le_succ _)]

/-- The next link of a chain, which the test at `decision` leads to if it fails.
Whatever is built on it only has to say where its own test leads. -/
private theorem addLink_forks (h : Numbered first b) {decision : NodeId}
    (hdecision : decision ∈ b.graph.ids) {test : Expr} {consequent : Stmt} {merge no : NodeId}
    {b' : Builder} (hb' : b' = (b.addLink test consequent merge).2.addEdge decision
      (.statement b.next) .onFalse) {graph : Graph}
    (hkeeps : b'.graph.Keeps (fun id => id ∈ b'.graph.ids ∧ id ≠ .statement b.next) graph)
    (hno : graph.exits (.statement b.next)
      = (b'.graph.exits (.statement b.next)).add no .onFalse) :
    graph.exits decision = (b.graph.exits decision).add (.statement b.next) .onFalse ∧
      graph.Forks merge test consequent (.statement b.next) no := by
  subst hb'
  have hne : ∀ n, b.next ≤ n → .statement n ≠ decision := fun n hn => statement_ne h hn hdecision
  have hlink := addLink_keeps (Graph.Keeps.refl (· ∈ b.graph.ids) b.graph)
    (fun n hn => statement_not_mem h hn) test consequent merge
  have hedge := (Graph.Keeps.refl (· ≠ decision) (b.addLink test consequent merge).2.graph).addEdge
    (fun hself => hself rfl) (.statement b.next) .onFalse
  have hopens := (addLink_opens h test consequent merge).keeps hedge (hne _ (Nat.le_refl _))
    (hne _ (Nat.le_succ _))
  refine ⟨?_, hopens.forks hkeeps (by simp) hno⟩
  rw [hkeeps.exits ⟨by simp [hdecision], (hne _ (Nat.le_refl _)).symm⟩, graph_addEdge,
    Graph.exits_addEdge, if_pos rfl, hlink.exits hdecision]

/-- What a chain adds after its first link hangs on the test before it. -/
theorem addAlternate_chained (h : Numbered first b) (decision merge : NodeId)
    (hdecision : decision ∈ b.graph.ids) (hmerge : merge ∈ b.graph.ids) (alternate : Stmt) :
    (b.addAlternate decision merge alternate).graph.exits decision
        = (b.graph.exits decision).add (.statement b.next) .onFalse ∧
      (b.addAlternate decision merge alternate).graph.Chained merge alternate
        (.statement b.next) := by
  induction alternate using Stmt.chain_induction generalizing b decision with
  | ifThen line test consequent =>
    rw [addAlternate_ifThen]
    refine addLink_forks h hdecision rfl ((Graph.Keeps.refl _ _).addEdge ?_ merge .onFalse) ?_
    · exact fun hself => hself.2 rfl
    · exact (Graph.exits_addEdge _ _ _ _ _).trans (if_pos rfl)
  | ifElse line test consequent alternate ih =>
    rw [addAlternate_ifElse]
    have hnumbered := addEdge_numbered (addLink_numbered h test consequent merge hmerge) decision
      (.statement b.next) (by simp [hdecision]) (by simp) .onFalse
    obtain ⟨hno, hchained⟩ := ih hnumbered (.statement b.next) (by simp) (by simp [hmerge])
    obtain ⟨hexits, hforks⟩ := addLink_forks h hdecision rfl
      (addAlternate_keeps (Graph.Keeps.refl _ _)
        (fun n hn hmem => statement_not_mem hnumbered hn hmem.1)
        (fun hself => hself.2 rfl) merge alternate) hno
    exact ⟨hexits, _, hforks, hchained⟩
  | otherwise s hs =>
    rw [addAlternate_otherwise _ _ _ hs, Graph.chained_otherwise hs]
    have hne := statement_ne h (Nat.le_refl _) hdecision
    have hshows : (b.addBody s).2.graph.Shows (.statement b.next) (.body s) :=
      addNext_shows h _ _ _ _
    refine ⟨?_, Graph.shows_addEdge.2 (Graph.shows_addEdge.2 hshows), ?_⟩
    · simp [addBody, Graph.exits_addEdge, hne]
    · simp [addBody, Graph.exits_addEdge, hne.symm, exits_statement h (Nat.le_refl _)]

theorem exits_link (b : Builder) (last : Option NodeId) (target id : NodeId) :
    (b.link last target).graph.exits id
      = if last = some id then (b.graph.exits id).add target .always else b.graph.exits id := by
  cases last with
  | none => rfl
  | some source =>
    rw [link, graph_addEdge, Graph.exits_addEdge]
    simp only [Option.some.injEq]

@[simp] theorem shows_link {last : Option NodeId} {target id : NodeId} {event : Event} :
    (b.link last target).graph.Shows id event ↔ b.graph.Shows id event := by
  cases last <;> simp [link]

variable {last : Option NodeId}

theorem statement_ne_last (h : Ready first b last) {n : Nat} (hn : b.next ≤ n) :
    last ≠ some (.statement n) :=
  fun hlast => statement_ne h.toNumbered hn (h.last_mem _ hlast) rfl

theorem addRun_wired (h : Ready first b last) (stmts : List Stmt) :
    (b.addRun stmts last).2.graph.Shows (.statement b.next) (.run stmts) ∧
      (b.addRun stmts last).2.graph.exits (.statement b.next) = .none := by
  have hshows := addNext_shows h.toNumbered
  refine ⟨shows_link.2 (hshows _ _ _ _), ?_⟩
  simp [addRun, exits_link, statement_ne_last h (Nat.le_refl _),
    exits_statement h.toNumbered (Nat.le_refl _)]

theorem addLoop_wired (h : Ready first b last) (line : Nat) (test : Expr) (body : Stmt) :
    let graph := (b.addLoop line test body last).graph
    graph.Shows (.statement b.next) (.round line) ∧
      graph.exits (.statement b.next) = .pass (.statement (b.next + 1)) ∧
      graph.Shows (.statement (b.next + 1)) (.decision test) ∧
      graph.exits (.statement (b.next + 1))
        = .fork (.statement (b.next + 2)) (.statement (b.next + 3)) ∧
      graph.Shows (.statement (b.next + 2)) (.body body) ∧
      graph.exits (.statement (b.next + 2)) = .pass (.statement b.next) := by
  have hentry := addNext_shows h.toNumbered "NULL" .junction b.path.isSome (some line)
  have hentries := addNext_numbered h.toNumbered "NULL" .junction b.path.isSome (some line)
  have hdecision := addNext_shows hentries (Label.clean test.render) .decision
    (b.onPath test.line) (some test.line)
  have hdecisions := addNext_numbered hentries (Label.clean test.render) .decision
    (b.onPath test.line) (some test.line)
  have hinner := addNext_shows hdecisions (Label.clean body.render) .block false
    (some body.firstLine)
  have hidle : ∀ n, b.next ≤ n → b.graph.exits (.statement n) = .none :=
    fun n hn => exits_statement h.toNumbered hn
  have hlast : ∀ n, b.next ≤ n → last ≠ some (.statement n) :=
    fun n hn => statement_ne_last h hn
  refine ⟨?_, ?_, ?_, ?_, ?_, ?_⟩
  · simp only [addLoop, graph_addEdge, Graph.shows_addEdge, shows_link]
    exact (hentry.addNode _).addNode _
  · simp [addLoop, addDecision, exits_link, Graph.exits_addEdge, Nat.add_assoc, hidle, hlast]
  · simp only [addLoop, graph_addEdge, Graph.shows_addEdge, shows_link]
    exact hdecision.addNode _
  · simp [addLoop, addDecision, exits_link, Graph.exits_addEdge, Nat.add_assoc, hidle, hlast]
  · simp only [addLoop, graph_addEdge, Graph.shows_addEdge, shows_link]
    exact hinner
  · simp [addLoop, addDecision, exits_link, Graph.exits_addEdge, Nat.add_assoc, hidle, hlast]

theorem mergeId_not_mem (h : Ready first b last) : b.mergeId ∉ b.graph.ids := by
  intro hmem
  have hlt := h.settled _ hmem
  omega

/-- The merge of a conditional does not lead on while the conditional is built. -/
theorem addHead_merge (h : Ready first b last) (test : Expr) (consequent : Stmt) :
    (b.addHead test consequent last).graph.Shows b.mergeId .merge ∧
      (b.addHead test consequent last).graph.exits b.mergeId = .none := by
  have hfresh := mergeId_not_mem h
  have hkeeps : (b.addNode b.mergeId "" .junction b.path.isSome none).graph.Keeps
      (· = b.mergeId) (b.addHead test consequent last).graph := by
    refine link_keeps (addLink_keeps (Graph.Keeps.refl _ _) ?_ test consequent b.mergeId) ?_ _
    · rintro n - ⟨⟩
    · rintro id hid rfl
      exact hfresh (h.last_mem _ hid)
  refine ⟨hkeeps.shows ?_, ?_⟩
  · refine ⟨⟨b.mergeId, "", .junction, b.path.isSome, none⟩, ?_, rfl, rfl, rfl⟩
    rw [graph_addNode, Graph.node?_addNode, Graph.node?_eq_none hfresh, Option.none_or, if_pos rfl]
  · rw [hkeeps.exits rfl]
    exact exits_of_not_mem h.toNumbered hfresh

theorem addHead_opens (h : Ready first b last) (test : Expr) (consequent : Stmt) :
    (b.addHead test consequent last).graph.Opens b.mergeId test consequent (.statement b.next)
      (.statement (b.next + 1)) := by
  have hnumbered := addMerge_numbered h.toNumbered h.settled "" .junction b.path.isSome none
  have hopens := addLink_opens hnumbered test consequent b.mergeId
  refine hopens.keeps (link_keeps (Graph.Keeps.refl (last ≠ some ·) _) ?_ _) ?_ ?_
  · exact fun id hid hne => hne hid
  · exact statement_ne_last h (Nat.le_refl _)
  · exact statement_ne_last h (Nat.le_succ _)

theorem addBranching_wired (h : Ready first b last) (test : Expr) (consequent : Stmt)
    (alternate : Option Stmt) :
    let graph := (b.addBranching test consequent alternate last).2.graph
    (∃ next, graph.Forks b.mergeId test consequent (.statement b.next) next ∧
      graph.Alternates b.mergeId alternate next) ∧
      graph.Shows b.mergeId .merge ∧ graph.exits b.mergeId = .none := by
  obtain ⟨hmerge, hidle⟩ := addHead_merge h test consequent
  have hopens := addHead_opens h test consequent
  have hnumbered := addHead_numbered h test consequent
  -- only the test still gets an edge
  let fixed (id : NodeId) : Prop :=
    id ∈ (b.addHead test consequent last).graph.ids ∧ id ≠ .statement b.next
  have hyes : fixed (.statement (b.next + 1)) := by simp [fixed]
  have hmem : fixed b.mergeId := by simp [fixed]
  cases alternate with
  | none =>
    have hkeeps := (Graph.Keeps.refl fixed (b.addHead test consequent last).graph).addEdge
      (fun hself => hself.2 rfl) b.mergeId .onFalse
    have hno := (Graph.exits_addEdge (b.addHead test consequent last).graph (.statement b.next)
      b.mergeId .onFalse _).trans (if_pos rfl)
    exact ⟨⟨_, hopens.forks hkeeps hyes hno, rfl⟩, hkeeps.shows hmerge,
      (hkeeps.exits hmem).trans hidle⟩
  | some alternate =>
    have hkeeps := addAlternate_keeps (Graph.Keeps.refl fixed _)
      (fun n hn hself => statement_not_mem hnumbered hn hself.1) (fun hself => hself.2 rfl)
      b.mergeId alternate
    obtain ⟨hno, hchained⟩ := addAlternate_chained hnumbered (.statement b.next) b.mergeId
      (by simp) (by simp) alternate
    exact ⟨⟨_, hopens.forks hkeeps hyes hno, hchained⟩, hkeeps.shows hmerge,
      (hkeeps.exits hmem).trans hidle⟩

/-- The node before a segment leads to the first node of the segment. -/
theorem addSegment_links (h : Ready first b last) (hidle : ∀ id ∈ last, b.graph.exits id = .none)
    (segment : Segment) : ∀ id ∈ last,
      (b.addSegment last segment).2.graph.exits id = .pass (.statement b.next) := by
  rintro id rfl
  have hmem := h.last_mem id rfl
  have hnone := hidle id rfl
  have hne : ∀ n, b.next ≤ n → .statement n ≠ id := fun n hn => statement_ne h.toNumbered hn hmem
  cases segment with
  | run stmts => simp [addSegment, addRun, exits_link, hnone]
  | branching test consequent alternate =>
    have hlink := addLink_keeps (b := b.addNode b.mergeId "" .junction b.path.isSome none)
      (Graph.Keeps.refl (· = id) _) hne test consequent b.mergeId
    have hhead : (b.addHead test consequent (some id)).graph.exits id
        = .pass (.statement b.next) := by
      rw [addHead, exits_link, if_pos rfl, hlink.exits rfl]
      simp [hnone]
    have hrefl := Graph.Keeps.refl (· = id) (b.addHead test consequent (some id)).graph
    have hdecision : .statement b.next ≠ id := hne b.next (Nat.le_refl _)
    rw [← hhead]
    cases alternate with
    | none => exact (hrefl.addEdge hdecision b.mergeId .onFalse).exits rfl
    | some alternate =>
      refine (addAlternate_keeps hrefl (fun n hn => hne n ?_) hdecision b.mergeId
        alternate).exits rfl
      rw [next_addHead] at hn
      omega
  | loop line test body =>
    simp [addSegment, addLoop, addDecision, exits_link, Graph.exits_addEdge, Nat.add_assoc, hnone,
      hne]

/-! ## Walks -/

theorem addSegment_grows (h : Ready first b last) (hidle : ∀ id ∈ last, b.graph.exits id = .none)
    (segment : Segment) : b.graph.Grows (b.addSegment last segment).2.graph := by
  refine addSegment_keeps (Graph.Keeps.refl _ _) (fun n hn hfixed => ?_)
    (fun id hid hfixed => ?_) segment
  · exact hfixed (exits_statement h.toNumbered hn)
  · exact hfixed (hidle id hid)

/-- The node that a segment leads on from does not lead on yet. -/
theorem addSegment_idle (h : Ready first b last) (segment : Segment) :
    ∀ id ∈ (b.addSegment last segment).1,
      (b.addSegment last segment).2.graph.exits id = .none := by
  intro id hid
  cases segment with
  | run stmts =>
    cases hid
    exact (addRun_wired h stmts).2
  | branching test consequent alternate =>
    have hmerge : (b.addBranching test consequent alternate last).1 = id := Option.some.inj hid
    rw [fst_addBranching] at hmerge
    subst hmerge
    exact (addBranching_wired h test consequent alternate).2.2
  | loop line test body => cases hid

/-- Closing a builder adds the exit if a loop has reserved a number for it. -/
theorem close_wired (h : Numbered first b) :
    b.graph.Grows b.finish ∧ (∀ id, b.finish.exits id = b.graph.exits id) ∧
      (b.pending.isSome → b.finish.Wired [] (.statement b.next)) := by
  cases hpending : b.pending with
  | none =>
    have hfinish : b.finish = b.graph := by simp [finish, close, hpending]
    rw [hfinish]
    refine ⟨Graph.Keeps.refl _ _, fun _ => rfl, fun hsome => ?_⟩
    cases hsome
  | some n =>
    have hfinish : b.finish = (b.addNext "exit" .junction b.path.isSome none).2.graph := by
      simp [finish, close, hpending]
    rw [hfinish]
    refine ⟨addNext_keeps (Graph.Keeps.refl _ _) _ _ _ _, fun _ => rfl, fun _ => ⟨?_, ?_⟩⟩
    · exact addNext_shows h "exit" .junction b.path.isSome none
    · exact exits_statement h (Nat.le_refl _)

/-- A segment is wired once all that follows it is. -/
theorem addSegment_wired (h : Ready first b last) (segment : Segment) {rest : List Segment}
    {graph : Graph} (hgrows : (b.addSegment last segment).2.graph.Grows graph)
    (hlast : ∀ id ∈ (b.addSegment last segment).1, graph.exits id
      = if rest.isEmpty then .none else .pass (.statement (b.addSegment last segment).2.next))
    (hrest : rest ≠ [] ∨ (b.addSegment last segment).2.pending.isSome →
      graph.Wired rest (.statement (b.addSegment last segment).2.next)) :
    graph.Wired (segment :: rest) (.statement b.next) := by
  have hleads : ∀ id ∈ (b.addSegment last segment).1,
      graph.LeadsOn id rest (graph.Wired rest) :=
    fun id hid => Graph.leadsOn_of_exits (hlast id hid) (fun hne => hrest (.inl hne))
  cases segment with
  | run stmts => exact ⟨hgrows.shows (addRun_wired h stmts).1, hleads _ rfl⟩
  | branching test consequent alternate =>
    obtain ⟨⟨next, hforks, halternate⟩, hmerge, -⟩ :=
      addBranching_wired h test consequent alternate
    refine ⟨b.mergeId, next, hforks.grows hgrows, halternate.grows hgrows, hgrows.shows hmerge,
      hleads _ ?_⟩
    exact congrArg some (fst_addBranching b test consequent last alternate)
  | loop line test body =>
    obtain ⟨hentry, hforward, hdecision, hfork, hinner, hback⟩ := addLoop_wired h line test body
    refine ⟨_, _, _, hgrows.shows hentry, hgrows.exits hforward (Exits.pass_ne_none _),
      hgrows.shows hdecision, hgrows.exits hfork (Exits.fork_ne_none _ _), hgrows.shows hinner,
      hgrows.exits hback (Exits.pass_ne_none _), ?_⟩
    have hnext := next_addLoop b last test body line
    rw [← hnext]
    exact hrest (.inr rfl)

/-- A walk without a fault wires its segments, from the next statement number on,
and the node before them to them. -/
theorem walkSegments_wired (h : Ready first b last) (hidle : ∀ id ∈ last, b.graph.exits id = .none)
    {segments : List Segment} {b' : Builder} (hwalk : b.walkSegments last segments = (b', none)) :
    b.graph.Grows b'.finish ∧
      (∀ id ∈ last, b'.finish.exits id
        = if segments.isEmpty then .none else .pass (.statement b.next)) ∧
      (segments ≠ [] ∨ b.pending.isSome → b'.finish.Wired segments (.statement b.next)) := by
  induction segments generalizing b last with
  | nil =>
    cases hwalk
    obtain ⟨hgrows, hexits, hwired⟩ := close_wired h.toNumbered
    refine ⟨hgrows, fun id hid => ?_, fun hpending => hwired (hpending.resolve_left (· rfl))⟩
    rw [hexits, hidle id hid]
    rfl
  | cons segment rest ih =>
    rw [walkSegments] at hwalk
    cases hfault : segment.fault? with
    | some fault =>
      rw [hfault] at hwalk
      cases hwalk
    | none =>
      rw [hfault] at hwalk
      obtain ⟨hgrows, hlast, hrest⟩ := ih (addSegment_ready h segment) (addSegment_idle h segment)
        hwalk
      refine ⟨(addSegment_grows h hidle segment).trans hgrows, fun id hid => ?_, fun _ => ?_⟩
      · exact hgrows.exits (addSegment_links h hidle segment id hid) (Exits.pass_ne_none _)
      · exact addSegment_wired h segment hgrows hlast hrest

end

end Builder

end TraceGraph
