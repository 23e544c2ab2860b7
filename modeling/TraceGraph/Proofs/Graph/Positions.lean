import Mathlib.Data.List.Forall2
import TraceGraph.Graph.Dot
import TraceGraph.Proofs.Graph.Numbering

/-!
# Nodes by number and nodes by position

A document names nodes by their numbers and a DOT file by their positions.  Going from
numbers to positions can lose something: of two nodes with one identity only the last
one has a position, and an edge whose end is no node is dropped.  After any walks of a
builder neither of the two happens, so both texts show one graph.

* `Graph.digraph`: nodes and edges entered one by one, with a table of positions.
  `Graph.digraph_eq` says that it holds what `Graph.position?` and `Graph.links` give.
* `Graph.position?_eq_some_iff` and `Graph.links_join`: without repeated identities and
  loose ends nothing is lost.
* `Graph.shows_edges`: the lines of a DOT file for edges beside the items of a document.
* `Builder.dot_walks`: the two texts of a graph after any walks.
-/

namespace TraceGraph

/-! ## Entering a graph -/

/-- Nodes in the order in which they were entered, edges between their positions, and a
table of positions with the newest entry first. -/
structure Digraph where
  nodes : List Node
  links : List Link
  index : List (NodeId × Nat)

namespace Digraph

/-- Enters a node at the next position. -/
def addNode (d : Digraph) (node : Node) : Digraph :=
  { d with nodes := d.nodes ++ [node], index := (node.id, d.nodes.length) :: d.index }

/-- Enters an edge, if both of its ends have positions. -/
def addEdge (d : Digraph) (edge : Edge) : Digraph :=
  match d.index.lookup edge.source, d.index.lookup edge.target with
  | some source, some target => { d with links := d.links ++ [⟨source, target, edge.kind⟩] }
  | _, _ => d

end Digraph

namespace Graph

/-- The graph with its nodes and then its edges entered one by one. -/
def digraph (graph : Graph) : Digraph :=
  graph.edges.foldl .addEdge (graph.nodes.foldl .addNode ⟨[], [], []⟩)

/-- The edge between the positions of its ends. -/
def link? (graph : Graph) (edge : Edge) : Option Link := do
  return ⟨← graph.position? edge.source, ← graph.position? edge.target, edge.kind⟩

theorem links_eq (graph : Graph) : graph.links = graph.edges.filterMap graph.link? := rfl

private theorem foldl_addNode (d : Digraph) (nodes : List Node) :
    nodes.foldl .addNode d
      = ⟨d.nodes ++ nodes, d.links,
          ((nodes.zipIdx d.nodes.length).map fun x => (x.1.id, x.2)).reverse ++ d.index⟩ := by
  induction nodes generalizing d with
  | nil => simp
  | cons node rest ih =>
    rw [List.foldl_cons, ih]
    simp [Digraph.addNode]

private theorem lookup_map {α β γ : Type} [BEq β] [LawfulBEq β] (f : α → β) (g : α → γ) (key : β)
    (items : List α) :
    (items.map fun x => (f x, g x)).lookup key = (items.find? fun x => f x == key).map g := by
  induction items with
  | nil => rfl
  | cons x rest ih =>
    rw [List.map_cons, List.lookup_cons, List.find?_cons, ih, BEq.comm]
    cases f x == key <;> rfl

/-- Later entries of the table hide earlier ones, so it holds the position of the last
node with an identity. -/
private theorem lookup_foldl_addNode (graph : Graph) (id : NodeId) :
    (graph.nodes.foldl .addNode ⟨[], [], []⟩ : Digraph).index.lookup id = graph.position? id := by
  rw [foldl_addNode, position?, List.findRev?_eq_find?_reverse, List.append_nil, ← List.map_reverse,
    lookup_map (fun x : Node × Nat => x.1.id) Prod.snd]
  rfl

private theorem foldl_addEdge (d : Digraph) (graph : Graph)
    (hindex : ∀ id, d.index.lookup id = graph.position? id) (edges : List Edge) :
    edges.foldl .addEdge d
      = ⟨d.nodes, d.links ++ edges.filterMap graph.link?, d.index⟩ := by
  induction edges generalizing d with
  | nil => simp
  | cons edge rest ih =>
    have hstep : d.addEdge edge = ⟨d.nodes, d.links ++ (graph.link? edge).toList, d.index⟩ := by
      rw [Digraph.addEdge, hindex, hindex, link?]
      cases graph.position? edge.source with
      | none => simp
      | some source => cases graph.position? edge.target <;> simp
    rw [List.foldl_cons, hstep]
    refine (ih ⟨d.nodes, d.links ++ (graph.link? edge).toList, d.index⟩ hindex).trans ?_
    cases hlink : graph.link? edge <;> simp [hlink]

/-- Entering a graph keeps the list of nodes, and gives the positions and the edges
between positions that are read off the lists. -/
theorem digraph_eq (graph : Graph) :
    graph.digraph.nodes = graph.nodes ∧ graph.digraph.links = graph.links ∧
      ∀ id, graph.digraph.index.lookup id = graph.position? id := by
  rw [digraph, foldl_addEdge _ graph (lookup_foldl_addNode graph)]
  refine ⟨?_, ?_, lookup_foldl_addNode graph⟩
  · rw [foldl_addNode]
    rfl
  · rw [foldl_addNode]
    rfl

/-! ## Positions -/

section

variable {graph : Graph} {id : NodeId} {i : Nat}

/-- At the position of an identity there is a node with that identity. -/
theorem getElem?_of_position? (h : graph.position? id = some i) : graph.ids[i]? = some id := by
  rw [position?, List.findRev?_eq_find?_reverse] at h
  obtain ⟨⟨node, j⟩, hfind, rfl⟩ := Option.map_eq_some_iff.1 h
  have hid : node.id = id := by simpa using List.find?_some hfind
  have hmem : (node, j) ∈ graph.nodes.zipIdx := List.mem_reverse.1 (List.mem_of_find?_eq_some hfind)
  rw [List.mem_zipIdx_iff_getElem?] at hmem
  rw [ids, List.getElem?_map, hmem, Option.map_some, hid]

theorem exists_position? (h : id ∈ graph.ids) : ∃ i, graph.position? id = some i := by
  obtain ⟨node, hnode, rfl⟩ := List.mem_map.1 h
  obtain ⟨i, hi⟩ := List.getElem?_of_mem hnode
  cases hposition : graph.position? node.id with
  | some j => exact ⟨j, rfl⟩
  | none =>
    rw [position?, List.findRev?_eq_find?_reverse, Option.map_eq_none_iff, List.find?_eq_none]
      at hposition
    have hmem : (node, i) ∈ graph.nodes.zipIdx := List.mem_zipIdx_iff_getElem?.2 hi
    exact absurd (decide_eq_true rfl) (hposition (node, i) (List.mem_reverse.2 hmem))

/-- Where no identity is repeated, the position of an identity is where it stands. -/
theorem position?_eq_some_iff (hnodup : graph.ids.Nodup) :
    graph.position? id = some i ↔ graph.ids[i]? = some id := by
  refine ⟨getElem?_of_position?, fun hi => ?_⟩
  obtain ⟨j, hj⟩ := exists_position? (List.mem_of_getElem? hi)
  obtain ⟨hlt, -⟩ := List.getElem?_eq_some_iff.1 hi
  have hij : i = j := (List.getElem?_inj hlt hnodup).1 (hi.trans (getElem?_of_position? hj).symm)
  rw [hij, hj]

/-- The table of positions holds what `position?` gives, and nothing else. -/
theorem mem_positions : (id, i) ∈ graph.positions ↔ graph.position? id = some i := by
  rw [positions, List.mem_filterMap]
  refine ⟨?_, fun h => ⟨id, ?_, by rw [h]; rfl⟩⟩
  · rintro ⟨other, -, h⟩
    obtain ⟨j, hj, heq⟩ := Option.map_eq_some_iff.1 h
    cases heq
    exact hj
  · rw [List.mem_mergeSort, List.mem_eraseDups]
    exact List.mem_of_getElem? (getElem?_of_position? h)

end

/-- Whether an edge between positions is an edge of the graph. -/
structure Joins (graph : Graph) (link : Link) (edge : Edge) : Prop where
  kind : link.kind = edge.kind
  source : graph.ids[link.source]? = some edge.source
  target : graph.ids[link.target]? = some edge.target

/-- Where no edge has a loose end, every edge has one between positions, in the same
order. -/
theorem links_join {graph : Graph}
    (hends : ∀ edge ∈ graph.edges, edge.source ∈ graph.ids ∧ edge.target ∈ graph.ids) :
    List.Forall₂ graph.Joins graph.links graph.edges := by
  rw [links_eq]
  generalize graph.edges = edges at hends
  induction edges with
  | nil => exact .nil
  | cons edge rest ih =>
    rw [List.forall_mem_cons] at hends
    obtain ⟨⟨hsource, htarget⟩, hrest⟩ := hends
    obtain ⟨i, hi⟩ := exists_position? hsource
    obtain ⟨j, hj⟩ := exists_position? htarget
    have hlink : graph.link? edge = some ⟨i, j, edge.kind⟩ := by
      rw [link?, hi, hj]
      rfl
    rw [List.filterMap_cons_some hlink]
    exact .cons ⟨rfl, getElem?_of_position? hi, getElem?_of_position? hj⟩ (ih hrest)

end Graph

/-! ## Lines and items -/

/-- The value of a field of an object. -/
def Json.field? (name : String) : Json → Option Json
  | .object fields => fields.lookup name
  | _ => none

@[simp] theorem Edge.field?_from (edge : Edge) :
    edge.toJson.field? "from" = some (.int edge.source.signed) := rfl

@[simp] theorem Edge.field?_to (edge : Edge) :
    edge.toJson.field? "to" = some (.int edge.target.signed) := rfl

/-- A line of a DOT file and an item of a document show one node, which stands at the
given position. -/
def ShowsNode (line : String) (item : Json) (position : Nat) : Prop :=
  ∃ node : Node, line = Dot.nodeLine node position ∧ item = node.toJson

/-- A line of a DOT file and an item of a document show one edge.  The line names its
ends by their positions among the nodes of the document, and the item by their
numbers. -/
def ShowsEdge (nodes : List Json) (line : String) (item : Json) : Prop :=
  ∃ (link : Link) (edge : Edge), line = Dot.linkLine link ∧ item = edge.toJson ∧
    link.kind = edge.kind ∧
    nodes[link.source]?.bind (Json.field? "id") = item.field? "from" ∧
    nodes[link.target]?.bind (Json.field? "id") = item.field? "to"

namespace Graph

variable {graph : Graph}

/-- What a document says about the number of the node at a position. -/
theorem field?_id_of_ids {i : Nat} {id : NodeId} (h : graph.ids[i]? = some id) :
    (graph.nodes.map Node.toJson)[i]?.bind (Json.field? "id") = some (.int id.signed) := by
  rw [ids, List.getElem?_map] at h
  obtain ⟨node, hnode, rfl⟩ := Option.map_eq_some_iff.1 h
  rw [List.getElem?_map, hnode]
  rfl

/-- Where every edge has one between positions, the lines for edges show what the items
for edges show. -/
theorem shows_edges (hjoins : List.Forall₂ graph.Joins graph.links graph.edges) :
    List.Forall₂ (ShowsEdge (graph.nodes.map Node.toJson)) (graph.links.map Dot.linkLine)
      (graph.edges.map Edge.toJson) := by
  rw [List.forall₂_map_left_iff, List.forall₂_map_right_iff]
  refine hjoins.imp fun link edge h => ⟨link, edge, rfl, rfl, h.kind, ?_, ?_⟩
  · rw [field?_id_of_ids h.source, Edge.field?_from]
  · rw [field?_id_of_ids h.target, Edge.field?_to]

/-- Numbers that nodes do not share can be told apart in a document. -/
theorem nodup_items (hnodup : (graph.ids.map NodeId.signed).Nodup) :
    ((graph.nodes.map Node.toJson).map (Json.field? "id")).Nodup := by
  have hitems : (graph.nodes.map Node.toJson).map (Json.field? "id")
      = (graph.ids.map NodeId.signed).map fun n => some (.int n) := by
    rw [ids, List.map_map, List.map_map, List.map_map]
    rfl
  rw [hitems]
  exact hnodup.map fun m n h => Json.int.inj (Option.some.inj h)

/-- The lines for nodes and the items for nodes stand at the same positions. -/
theorem shows_nodes (graph : Graph) {i : Nat} {line : String} {item : Json}
    (hline : (graph.nodes.zipIdx.map fun x => Dot.nodeLine x.1 x.2)[i]? = some line)
    (hitem : (graph.nodes.map Node.toJson)[i]? = some item) : ShowsNode line item i := by
  rw [List.getElem?_map] at hitem
  obtain ⟨node, hnode, rfl⟩ := Option.map_eq_some_iff.1 hitem
  rw [List.getElem?_map, List.getElem?_zipIdx, hnode] at hline
  refine ⟨node, ?_, rfl⟩
  simpa using hline.symm

end Graph

/-! ## Graphs after any walks -/

namespace Builder

/-- After any walks, whether they succeed or not, entering the graph keeps every node at its
position, gives every identity the position of its node, and keeps every edge with its
kind and its ends.  So the lines of the DOT file and the items of the document show the
same nodes and the same edges in the same order, and the numbers by which the document
names nodes are all different. -/
theorem dot_walks (first : Nat) (path : Option Classification) (bodies : List (List Stmt)) :
    let graph := (bodies.foldl (fun b body => (b.walk body).1) (start first path)).finish
    graph.digraph.nodes = graph.nodes ∧
      (∀ id i, graph.digraph.index.lookup id = some i ↔ graph.ids[i]? = some id) ∧
      (∀ id i, (id, i) ∈ graph.positions ↔ graph.ids[i]? = some id) ∧
      graph.digraph.links.length = graph.edges.length ∧
      List.Forall₂ graph.Joins graph.digraph.links graph.edges ∧
      ∃ nodeLines edgeLines nodeItems edgeItems,
        graph.dot = "digraph cfg \x7b\n" ++ String.join nodeLines ++ String.join edgeLines
          ++ "\x7d\n" ∧
        graph.document
          = (Json.object [("edges", .array edgeItems), ("nodes", .array nodeItems)]).pretty ∧
        nodeLines.length = nodeItems.length ∧
        (∀ i line item, nodeLines[i]? = some line → nodeItems[i]? = some item →
          ShowsNode line item i) ∧
        (nodeItems.map (Json.field? "id")).Nodup ∧
        List.Forall₂ (ShowsEdge nodeItems) edgeLines edgeItems := by
  obtain ⟨hnumbered, hpending⟩ :=
    close_numbered (walks_ready (start_ready first path) bodies).toNumbered
  generalize bodies.foldl (fun b body => (b.walk body).1) (start first path) = b
    at hnumbered hpending
  intro graph
  have hnodup : graph.ids.Nodup := nodup_ids hnumbered
  have hjoins : List.Forall₂ graph.Joins graph.links graph.edges :=
    Graph.links_join (edges_mem hnumbered hpending)
  obtain ⟨hnodes, hlinks, hindex⟩ := graph.digraph_eq
  rw [hlinks]
  refine ⟨hnodes, fun id i => ?_, fun id i => ?_, hjoins.length_eq, hjoins,
    graph.nodes.zipIdx.map fun x => Dot.nodeLine x.1 x.2, graph.links.map Dot.linkLine,
    graph.nodes.map Node.toJson, graph.edges.map Edge.toJson, ?_, ?_, ?_, ?_, ?_, ?_⟩
  · rw [hindex, Graph.position?_eq_some_iff hnodup]
  · rw [Graph.mem_positions, Graph.position?_eq_some_iff hnodup]
  · rfl
  · rfl
  · rw [List.length_map, List.length_map, List.length_zipIdx]
  · intro i line item
    exact graph.shows_nodes
  · exact Graph.nodup_items (nodup_signed hnumbered)
  · exact Graph.shows_edges hjoins

end Builder

end TraceGraph
