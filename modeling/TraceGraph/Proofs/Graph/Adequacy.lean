import TraceGraph.Proofs.Graph.Wiring

/-!
# Graphs and structured execution

Following the edges of a control-flow graph from its first node on visits one node
for each event of the structured execution, in the same order, and stops where the
execution ends.  At a decision the next answer chooses the edge, and elsewhere
there is at most one edge to follow.

* `Graph.Follows`: a way through a graph that cannot go on any further.
* `Graph.follows_unique`: the answers determine it.
* `Graph.Wired.performs`: from a wired node on, the way through the graph is the
  execution of the body.
* `Graph.follows_execute`: hence the graph of a body does what the body does.
-/

namespace TraceGraph

namespace Graph

/-! ## Ways through a graph -/

/-- The nodes that are visited from a node on, and how that ends.  A node that is
no decision has one edge, which is always followed, or none.  A decision has one
edge for each answer. -/
inductive Follows (graph : Graph) : NodeId → List Bool → List Node → Ending → Prop
  | stop {id : NodeId} {node : Node} {answers : List Bool} (hnode : graph.node? id = some node)
      (hshape : node.shape ≠ .decision) (hexits : graph.exits id = .none) :
      Follows graph id answers [node] (.over answers)
  | pass {id target : NodeId} {node : Node} {answers : List Bool} {nodes : List Node}
      {ending : Ending} (hnode : graph.node? id = some node) (hshape : node.shape ≠ .decision)
      (hexits : graph.exits id = .pass target) (hrest : Follows graph target answers nodes ending) :
      Follows graph id answers (node :: nodes) ending
  | wait {id yes no : NodeId} {node : Node} (hnode : graph.node? id = some node)
      (hshape : node.shape = .decision) (hexits : graph.exits id = .fork yes no) :
      Follows graph id [] [node] .waiting
  | choose {id yes no : NodeId} {node : Node} {answer : Bool} {answers : List Bool}
      {nodes : List Node} {ending : Ending} (hnode : graph.node? id = some node)
      (hshape : node.shape = .decision) (hexits : graph.exits id = .fork yes no)
      (hrest : Follows graph (if answer then yes else no) answers nodes ending) :
      Follows graph id (answer :: answers) (node :: nodes) ending

theorem follows_unique {graph : Graph} {id : NodeId} {answers : List Bool}
    {nodes nodes' : List Node} {ending ending' : Ending}
    (h : graph.Follows id answers nodes ending) (h' : graph.Follows id answers nodes' ending') :
    nodes' = nodes ∧ ending' = ending := by
  induction h generalizing nodes' ending' with
  | stop hnode _ hexits =>
    cases h' with
    | stop hnode' =>
      cases hnode.symm.trans hnode'
      exact ⟨rfl, rfl⟩
    | pass _ _ hexits' => cases hexits.symm.trans hexits'
    | wait _ _ hexits' => cases hexits.symm.trans hexits'
    | choose _ _ hexits' => cases hexits.symm.trans hexits'
  | pass hnode _ hexits _ ih =>
    cases h' with
    | stop _ _ hexits' => cases hexits.symm.trans hexits'
    | pass hnode' _ hexits' hrest' =>
      cases hnode.symm.trans hnode'
      cases hexits.symm.trans hexits'
      obtain ⟨rfl, rfl⟩ := ih hrest'
      exact ⟨rfl, rfl⟩
    | wait _ _ hexits' => cases hexits.symm.trans hexits'
    | choose _ _ hexits' => cases hexits.symm.trans hexits'
  | wait hnode _ hexits =>
    cases h' with
    | stop _ _ hexits' => cases hexits.symm.trans hexits'
    | pass _ _ hexits' => cases hexits.symm.trans hexits'
    | wait hnode' =>
      cases hnode.symm.trans hnode'
      exact ⟨rfl, rfl⟩
  | choose hnode _ hexits _ ih =>
    cases h' with
    | stop _ _ hexits' => cases hexits.symm.trans hexits'
    | pass _ _ hexits' => cases hexits.symm.trans hexits'
    | choose hnode' _ hexits' hrest' =>
      cases hnode.symm.trans hnode'
      cases hexits.symm.trans hexits'
      obtain ⟨rfl, rfl⟩ := ih hrest'
      exact ⟨rfl, rfl⟩

/-! ## Ways that show an execution -/

/-- Following the graph from a node on shows an execution. -/
def Performs (graph : Graph) (id : NodeId) (answers : List Bool) (execution : Execution) : Prop :=
  ∃ nodes, graph.Follows id answers nodes execution.ending ∧
    List.Forall₂ Node.Shows nodes execution.events

section

variable {graph : Graph} {id merge no : NodeId} {answers : List Bool} {execution : Execution}
  {event : Event} {test : Expr} {consequent : Stmt}

theorem Shows.performs (h : graph.Shows id event) (hshape : event.shape ≠ .decision)
    (hexits : graph.exits id = .none) : graph.Performs id answers ⟨[event], .over answers⟩ := by
  obtain ⟨node, hnode, hshows⟩ := h
  refine ⟨[node], .stop hnode ?_ hexits, .cons hshows .nil⟩
  rwa [hshows.1]

theorem Performs.pass {target : NodeId} (h : graph.Performs target answers execution)
    (hshows : graph.Shows id event) (hshape : event.shape ≠ .decision)
    (hexits : graph.exits id = .pass target) :
    graph.Performs id answers (execution.after [event]) := by
  obtain ⟨nodes, hfollows, hnodes⟩ := h
  obtain ⟨node, hnode, hshows⟩ := hshows
  refine ⟨node :: nodes, .pass hnode ?_ hexits hfollows, .cons hshows hnodes⟩
  rwa [hshows.1]

theorem Shows.waits {yes : NodeId} (h : graph.Shows id (.decision test))
    (hexits : graph.exits id = .fork yes no) :
    graph.Performs id [] ⟨[.decision test], .waiting⟩ := by
  obtain ⟨node, hnode, hshows⟩ := h
  exact ⟨[node], .wait hnode hshows.1 hexits, .cons hshows .nil⟩

theorem Performs.choose {yes : NodeId} (answer : Bool)
    (h : graph.Performs (if answer then yes else no) answers execution)
    (hshows : graph.Shows id (.decision test)) (hexits : graph.exits id = .fork yes no) :
    graph.Performs id (answer :: answers) (execution.after [.decision test]) := by
  obtain ⟨nodes, hfollows, hnodes⟩ := h
  obtain ⟨node, hnode, hshows⟩ := hshows
  exact ⟨node :: nodes, .choose hnode hshows.1 hexits hfollows, .cons hshows hnodes⟩

/-! ## Conditionals -/

theorem Forks.waits (h : graph.Forks merge test consequent id no) :
    graph.Performs id [] ⟨[.decision test], .waiting⟩ := by
  obtain ⟨yes, hshows, hexits, -, -⟩ := h
  exact hshows.waits hexits

theorem Forks.onTrue (h : graph.Forks merge test consequent id no)
    (hmerge : graph.Performs merge answers execution) :
    graph.Performs id (true :: answers)
      (execution.after [.decision test, .body consequent]) := by
  obtain ⟨yes, hshows, hexits, hbody, hjoin⟩ := h
  have hyes := hmerge.pass hbody nofun hjoin
  exact Performs.choose true hyes hshows hexits

theorem Forks.onFalse (h : graph.Forks merge test consequent id no)
    (hno : graph.Performs no answers execution) :
    graph.Performs id (false :: answers) (execution.after [.decision test]) := by
  obtain ⟨yes, hshows, hexits, -, -⟩ := h
  exact Performs.choose false hno hshows hexits

/-- The way through a chain of conditionals with too few answers. -/
theorem Chained.waits {s : Stmt} (h : graph.Chained merge s id) {events : List Event}
    (hchoose : s.choose answers = (events, none)) :
    graph.Performs id answers ⟨events, .waiting⟩ := by
  induction s using Stmt.chain_induction generalizing id answers events with
  | ifThen line test consequent =>
    match answers, hchoose with
    | [], rfl => exact Forks.waits h
  | ifElse line test consequent alternate ih =>
    obtain ⟨next, hforks, hrest⟩ := h
    match answers, hchoose with
    | [], rfl => exact hforks.waits
    | false :: answers, hchoose =>
      have hleft : (alternate.choose answers).2 = none := congrArg Prod.snd hchoose
      have hevents : .decision test :: (alternate.choose answers).1 = events :=
        congrArg Prod.fst hchoose
      rw [← hevents]
      exact hforks.onFalse (ih hrest (Prod.ext rfl hleft))
  | otherwise s hs =>
    rw [Stmt.choose_otherwise hs] at hchoose
    cases hchoose

/-- The way through a chain of conditionals, which goes on at the merge. -/
theorem Chained.performs {s : Stmt} (h : graph.Chained merge s id) {events : List Event}
    {left : List Bool} (hchoose : s.choose answers = (events, some left))
    (hmerge : graph.Performs merge left execution) :
    graph.Performs id answers (execution.after events) := by
  induction s using Stmt.chain_induction generalizing id answers events with
  | ifThen line test consequent =>
    match answers, hchoose with
    | true :: answers, rfl => exact Forks.onTrue h hmerge
    | false :: answers, rfl => exact Forks.onFalse h hmerge
  | ifElse line test consequent alternate ih =>
    obtain ⟨next, hforks, hrest⟩ := h
    match answers, hchoose with
    | true :: answers, rfl => exact hforks.onTrue hmerge
    | false :: answers, hchoose =>
      have hleft : (alternate.choose answers).2 = some left := congrArg Prod.snd hchoose
      have hevents : .decision test :: (alternate.choose answers).1 = events :=
        congrArg Prod.fst hchoose
      rw [← hevents]
      exact hforks.onFalse (ih hrest (Prod.ext rfl hleft))
  | otherwise s hs =>
    rw [Stmt.choose_otherwise hs] at hchoose
    rw [chained_otherwise hs] at h
    cases hchoose
    exact hmerge.pass h.1 nofun h.2

/-! ## Bodies -/

theorem execute_nil (answers : List Bool) : execute [] answers = ⟨[], .over answers⟩ := by
  rw [execute]

/-- A node that leads on to the rest of a body, if there is one. -/
theorem LeadsOn.performs {rest : List Stmt}
    (h : graph.LeadsOn id (Segment.ofBody rest) (graph.Wired (Segment.ofBody rest)))
    (hshows : graph.Shows id event) (hshape : event.shape ≠ .decision)
    (hrest : ∀ next, rest ≠ [] → graph.Wired (Segment.ofBody rest) next →
      graph.Performs next answers (execute rest answers)) :
    graph.Performs id answers ((execute rest answers).after [event]) := by
  cases rest with
  | nil =>
    rw [execute_nil]
    exact hshows.performs hshape h
  | cons s rest =>
    have hne : ¬ (Segment.ofBody (s :: rest)).isEmpty := by
      rw [List.isEmpty_iff, Segment.ofBody_eq_nil]
      exact List.cons_ne_nil s rest
    rw [LeadsOn, if_neg hne] at h
    obtain ⟨next, hexits, hwired⟩ := h
    exact (hrest next (List.cons_ne_nil s rest) hwired).pass hshows hshape hexits

theorem Wired.chained {s : Stmt} (hs : s.isConditional) {rest : List Stmt}
    (h : graph.Wired (Segment.ofBody (s :: rest)) id) :
    ∃ merge, graph.Chained merge s id ∧ graph.Shows merge .merge ∧
      graph.LeadsOn merge (Segment.ofBody rest) (graph.Wired (Segment.ofBody rest)) := by
  cases s with
  | ifThen line test consequent =>
    obtain ⟨merge, next, hforks, rfl, hmerge⟩ := h
    exact ⟨next, hforks, hmerge⟩
  | ifElse line test consequent alternate =>
    obtain ⟨merge, next, hforks, hchained, hmerge⟩ := h
    exact ⟨merge, ⟨next, hforks, hchained⟩, hmerge⟩
  | _ => cases hs

/-- From a wired node on, the way through the graph is the execution of the body. -/
theorem Wired.performs {body : List Stmt} (hbody : body ≠ [])
    (h : graph.Wired (Segment.ofBody body) id) :
    graph.Performs id answers (execute body answers) := by
  fun_induction execute body answers generalizing id with
  | case1 => exact absurd rfl hbody
  | case2 => exact h.1.performs nofun h.2
  | case3 =>
    obtain ⟨decision, inner, next, hround, hpass, hdecision, hfork, -⟩ := h
    exact (hdecision.waits hfork).pass hround nofun hpass
  | case4 line test inner rest answers ih =>
    -- the loop goes round once more from its first node
    have hagain := ih hbody h
    obtain ⟨decision, inner, next, hround, hpass, hdecision, hfork, hinner, hback, -⟩ := h
    have hbody := hagain.pass hinner nofun hback
    exact (Performs.choose true hbody hdecision hfork).pass hround nofun hpass
  | case5 line test inner rest answers hrest =>
    obtain ⟨decision, inner, next, hround, hpass, hdecision, hfork, -, -, hwired⟩ := h
    cases List.isEmpty_iff.1 hrest
    have hexit : graph.Performs next answers ⟨[.exit], .over answers⟩ :=
      hwired.1.performs nofun hwired.2
    exact (Performs.choose false hexit hdecision hfork).pass hround nofun hpass
  | case6 line test inner rest answers hrest ih =>
    obtain ⟨decision, inner, next, hround, hpass, hdecision, hfork, -, -, hwired⟩ := h
    have hnext := ih (fun hnil => hrest (List.isEmpty_iff.2 hnil)) hwired
    exact (Performs.choose false hnext hdecision hfork).pass hround nofun hpass
  | case7 answers s rest _ _ hs events hchoose =>
    obtain ⟨merge, hchained, -, -⟩ := h.chained hs
    exact hchained.waits hchoose
  | case8 answers s rest _ _ hs events left hchoose ih =>
    obtain ⟨merge, hchained, hmerge, hleads⟩ := h.chained hs
    rw [Execution.after_append]
    exact hchained.performs hchoose (hleads.performs hmerge nofun fun _ hne hwired => ih hne hwired)
  | case9 answers s rest hexit hloop hs plain others last =>
    rename_i hlast
    have hplain : s.isPlain := Stmt.isPlain_of_not hexit hloop hs
    rw [Segment.ofBody_plain hplain, hlast] at h
    exact h.1.performs nofun h.2
  | case10 answers s rest hexit hloop hs plain others hlast =>
    rename_i ih
    have hplain : s.isPlain := Stmt.isPlain_of_not hexit hloop hs
    rw [Segment.ofBody_plain hplain, hlast] at h
    exact LeadsOn.performs h.2 h.1 nofun fun _ hne hwired => ih hne hwired

end

/-! ## Graphs of bodies -/

theorem wired_of_ofBody {body : List Stmt} {firstId : Nat} {path : Option Classification}
    {graph : Graph} (h : ofBody body firstId path = .ok graph) (hbody : body ≠ []) :
    graph.Wired (Segment.ofBody body) (.statement firstId) := by
  rw [ofBody] at h
  split at h
  · rename_i b hwalk
    cases h
    have hidle : ∀ id ∈ (none : Option NodeId),
        (Builder.start firstId path).graph.exits id = .none := nofun
    have hne : Segment.ofBody body ≠ [] := fun hnil => hbody (Segment.ofBody_eq_nil.1 hnil)
    exact (Builder.walkSegments_wired (Builder.start_ready firstId path) hidle hwalk).2.2 (.inl hne)
  · cases h

/-- The graph of a body does what the body does.  For every list of answers there
is exactly one way through the graph from its first node on, its nodes show the
events of the execution of the body, and it ends as the execution does. -/
theorem follows_execute {body : List Stmt} {firstId : Nat} {path : Option Classification}
    {graph : Graph} (h : ofBody body firstId path = .ok graph) (hbody : body ≠ [])
    (answers : List Bool) :
    ∃ nodes, List.Forall₂ Node.Shows nodes (execute body answers).events ∧
      ∀ nodes' ending, graph.Follows (.statement firstId) answers nodes' ending ↔
        nodes' = nodes ∧ ending = (execute body answers).ending := by
  have hperforms : graph.Performs (.statement firstId) answers (execute body answers) :=
    (wired_of_ofBody h hbody).performs hbody
  obtain ⟨nodes, hfollows, hshows⟩ := hperforms
  refine ⟨nodes, hshows, fun nodes' ending => ⟨fun hfollows' => ?_, ?_⟩⟩
  · exact follows_unique hfollows hfollows'
  · rintro ⟨rfl, rfl⟩
    exact hfollows

/-- Two loops around a chain of conditionals. -/
private def loopsAndChain : List Stmt :=
  [.loop 1 (.identifier 1 "a") (.expression 1 (.assign 1 .assign "a" (.identifier 1 "b"))),
   .ifElse 2 (.identifier 2 "b") (.block 2 [.exit 3 none])
     (.ifThen 4 (.identifier 4 "c") (.expression 4 (.update 4 .increment true "c"))),
   .loop 5 (.identifier 5 "d") (.block 5 [])]

theorem follows_execute_loopsAndChain :
    loopsAndChain ≠ [] ∧ ∃ graph, ofBody loopsAndChain 0 none = .ok graph ∧
      ∃ nodes, graph.Follows (.statement 0) [true, false, false, true, false, true] nodes
          (.over [true]) ∧
        List.Forall₂ Node.Shows nodes
          [.round 1, .decision (.identifier 1 "a"),
           .body (.expression 1 (.assign 1 .assign "a" (.identifier 1 "b"))),
           .round 1, .decision (.identifier 1 "a"),
           .decision (.identifier 2 "b"), .decision (.identifier 4 "c"),
           .body (.expression 4 (.update 4 .increment true "c")), .merge,
           .round 5, .decision (.identifier 5 "d"), .exit] := by
  have hne : loopsAndChain ≠ [] := List.cons_ne_nil _ _
  have hgraph : ofBody loopsAndChain 0 none
      = .ok ((Builder.start 0 none).walk loopsAndChain).1.finish := rfl
  obtain ⟨nodes, hshows, hfollows⟩ :=
    follows_execute hgraph hne [true, false, false, true, false, true]
  refine ⟨hne, _, hgraph, nodes, (hfollows _ _).2 ⟨rfl, ?_⟩, ?_⟩
  · simp [loopsAndChain, execute, Stmt.choose, Stmt.isConditional, Execution.after]
  · simpa [loopsAndChain, execute, Stmt.choose, Stmt.isConditional, Execution.after] using hshows

end Graph

end TraceGraph
