import TraceGraph.Graph.Document
import TraceGraph.Proofs.Graph.Discipline
import TraceGraph.Proofs.Json.Distinct

/-!
# The document of a graph determines the graph

A document shows all edges in one list and both kinds of numbers as one kind.  The lists
come back from the labels of the edges, and the kind of a number from its sign, unless a
junction has number zero, which would look like statement zero.

* `Graph.Plain`: each list of edges holds edges of its kind, and no junction has number
  zero.
* `Graph.toJson_inj` and `Graph.document_inj`: such graphs come back from their documents.
* `Builder.plain_finish`: all graphs that builders make are such graphs.
-/

namespace TraceGraph

/-! ## Nodes and edges -/

namespace NodeId

/-- Numbers with their signs tell identities apart, unless a junction has number zero. -/
theorem signed_inj {x y : NodeId} (hx : x ≠ .junction 0) (hy : y ≠ .junction 0)
    (h : x.signed = y.signed) : x = y := by
  cases x with
  | statement m =>
    cases y with
    | statement n =>
      simp only [signed] at h
      congr 1
      omega
    | junction n =>
      have hn : n ≠ 0 := fun hzero => hy (hzero ▸ rfl)
      simp only [signed] at h
      omega
  | junction m =>
    have hm : m ≠ 0 := fun hzero => hx (hzero ▸ rfl)
    cases y with
    | statement n =>
      simp only [signed] at h
      omega
    | junction n =>
      simp only [signed] at h
      congr 1
      omega

end NodeId

theorem NodeShape.outline_inj {shape shape' : NodeShape} (h : shape.outline = shape'.outline) :
    shape = shape' := by
  revert h
  cases shape <;> cases shape' <;> decide

theorem EdgeKind.label_inj {kind kind' : EdgeKind} (h : kind.label = kind'.label) :
    kind = kind' := by
  revert h
  cases kind <;> cases kind' <;> decide

theorem Node.background_inj {node node' : Node} (h : node.background = node'.background) :
    node.highlighted = node'.highlighted := by
  revert h
  rw [background, background]
  cases node.highlighted <;> cases node'.highlighted <;> decide

/-- Everything that a node holds is in its item. -/
theorem Node.toJson_inj {node node' : Node} (hid : node.id ≠ .junction 0)
    (hid' : node'.id ≠ .junction 0) (h : node.toJson = node'.toJson) : node = node' := by
  simp only [toJson, Json.object.injEq, List.cons.injEq, Prod.mk.injEq, true_and, Json.str.injEq,
    Json.int.injEq, and_true] at h
  obtain ⟨hbackground, hsigned, hlabel, hline, houtline⟩ := h
  have hlines : node.line = node'.line := by
    cases hn : node.line <;> cases hn' : node'.line <;> simp_all
  have hids := NodeId.signed_inj hid hid' hsigned
  have hshapes := NodeShape.outline_inj houtline
  have hlit := background_inj hbackground
  cases node
  cases node'
  simp_all

/-- Everything that an edge holds is in its item. -/
theorem Edge.toJson_inj {edge edge' : Edge} (hsource : edge.source ≠ .junction 0)
    (htarget : edge.target ≠ .junction 0) (hsource' : edge'.source ≠ .junction 0)
    (htarget' : edge'.target ≠ .junction 0) (h : edge.toJson = edge'.toJson) : edge = edge' := by
  simp only [toJson, Json.object.injEq, List.cons.injEq, Prod.mk.injEq, true_and, Json.str.injEq,
    Json.int.injEq, and_true] at h
  obtain ⟨hfrom, hlabel, hto⟩ := h
  have hsources := NodeId.signed_inj hsource hsource' hfrom
  have htargets := NodeId.signed_inj htarget htarget' hto
  have hkinds := EdgeKind.label_inj hlabel
  cases edge
  cases edge'
  simp_all

/-! ## Documents -/

theorem Node.toJson_exact (node : Node) : node.toJson.Exact := by
  have hcolor : (Json.object [("background", .str node.background), ("border", .str "black")]).Exact :=
    .object (by simp [Json.Exact.str])
  have hline : ((node.line.map fun line : Nat => Json.int line).getD .null).Exact := by
    cases node.line with
    | none => exact .null
    | some line => exact .int line
  exact .object (by simp [hcolor, hline, Json.Exact.str, Json.Exact.int])

theorem Edge.toJson_exact (edge : Edge) : edge.toJson.Exact :=
  .object (by simp [Json.Exact.str, Json.Exact.int])

namespace Graph

theorem toJson_exact (graph : Graph) : graph.toJson.Exact := by
  have hedges : (Json.array (graph.edges.map Edge.toJson)).Exact :=
    .array (List.forall_mem_map.2 fun edge _ => edge.toJson_exact)
  have hnodes : (Json.array (graph.nodes.map Node.toJson)).Exact :=
    .array (List.forall_mem_map.2 fun node _ => node.toJson_exact)
  exact .object (by simp [hedges, hnodes])

/-- Each list of edges holds only edges of its kind, and no junction has number zero. -/
structure Plain (graph : Graph) : Prop where
  byKind : graph.ByKind
  nodes : ∀ node ∈ graph.nodes, node.id ≠ .junction 0
  edges : ∀ edge ∈ graph.edges, edge.source ≠ .junction 0 ∧ edge.target ≠ .junction 0

private theorem map_inj_on {α β : Type} {f : α → β} {xs ys : List α}
    (hf : ∀ x ∈ xs, ∀ y ∈ ys, f x = f y → x = y) (h : xs.map f = ys.map f) : xs = ys := by
  induction xs generalizing ys with
  | nil => exact (List.map_eq_nil_iff.1 h.symm).symm
  | cons x xs ih =>
    cases ys with
    | nil => cases h
    | cons y ys =>
      obtain ⟨hfirst, hrest⟩ := List.cons.inj h
      rw [hf x List.mem_cons_self y List.mem_cons_self hfirst,
        ih (fun a ha b hb => hf a (List.mem_cons_of_mem _ ha) b (List.mem_cons_of_mem _ hb)) hrest]

/-- The edges of one kind among edges of one kind: all of them or none. -/
private theorem filter_kind {edges : List Edge} {kind : EdgeKind}
    (h : ∀ edge ∈ edges, edge.kind = kind) (wanted : EdgeKind) :
    edges.filter (·.kind = wanted) = if kind = wanted then edges else [] := by
  split
  · rename_i hkind
    exact List.filter_eq_self.2 fun edge hedge => by simp [h edge hedge, hkind]
  · rename_i hkind
    exact List.filter_eq_nil_iff.2 fun edge hedge => by simp [h edge hedge, hkind]

/-- The list of a kind comes back from all edges. -/
theorem ByKind.filter_edges {graph : Graph} (h : graph.ByKind) :
    graph.edges.filter (·.kind = .always) = graph.always ∧
      graph.edges.filter (·.kind = .onTrue) = graph.onTrue ∧
      graph.edges.filter (·.kind = .onFalse) = graph.onFalse := by
  simp only [edges, List.filter_append, filter_kind h.always, filter_kind h.onTrue,
    filter_kind h.onFalse]
  simp

/-- A graph comes back from its nodes and all its edges. -/
theorem ByKind.eq_of_edges {graph graph' : Graph} (h : graph.ByKind) (h' : graph'.ByKind)
    (hnodes : graph.nodes = graph'.nodes) (hedges : graph.edges = graph'.edges) :
    graph = graph' := by
  obtain ⟨halways, htrue, hfalse⟩ := h.filter_edges
  obtain ⟨halways', htrue', hfalse'⟩ := h'.filter_edges
  rw [hedges] at halways htrue hfalse
  cases graph
  cases graph'
  simp_all

/-- A graph comes back from its document before it is written. -/
theorem toJson_inj {graph graph' : Graph} (h : graph.Plain) (h' : graph'.Plain)
    (heq : graph.toJson = graph'.toJson) : graph = graph' := by
  simp only [toJson, Json.object.injEq, List.cons.injEq, Prod.mk.injEq, true_and,
    Json.array.injEq, and_true] at heq
  obtain ⟨hedges, hnodes⟩ := heq
  refine h.byKind.eq_of_edges h'.byKind (map_inj_on (fun x hx y hy => ?_) hnodes)
    (map_inj_on (fun x hx y hy => ?_) hedges)
  · exact Node.toJson_inj (h.nodes x hx) (h'.nodes y hy)
  · obtain ⟨hsource, htarget⟩ := h.edges x hx
    obtain ⟨hsource', htarget'⟩ := h'.edges y hy
    exact Edge.toJson_inj hsource htarget hsource' htarget'

theorem document_inj {graph graph' : Graph} (h : graph.Plain) (h' : graph'.Plain)
    (heq : graph.document = graph'.document) : graph = graph' :=
  toJson_inj h h' (graph.toJson_exact.pretty_inj graph'.toJson_exact heq)

end Graph

/-! ## Graphs of builders -/

/-- Every graph that a builder makes is plain. -/
theorem Builder.plain_finish (first : Nat) (path : Option Classification)
    (bodies : List (List Stmt)) :
    (bodies.foldl (fun b body => (b.walk body).1) (start first path)).finish.Plain := by
  have hbuilt := walks_built (b := start first path) .empty bodies
  obtain ⟨hnumbered, hpending⟩ :=
    close_numbered (walks_ready (start_ready first path) bodies).toNumbered
  generalize bodies.foldl (fun b body => (b.walk body).1) (start first path) = b at *
  have hid : ∀ id ∈ b.finish.ids, id ≠ .junction 0 := by
    rintro id hmem rfl
    exact absurd (hnumbered.junction_pos 0 hmem) (Nat.lt_irrefl 0)
  refine ⟨(close_built hbuilt).byKind, fun node hnode => ?_, fun edge hedge => ?_⟩
  · exact hid node.id (List.mem_map_of_mem hnode)
  · obtain ⟨hsource, htarget⟩ := edges_mem hnumbered hpending edge hedge
    exact ⟨hid edge.source hsource, hid edge.target htarget⟩

namespace Graph

/-- Graphs with edges in the lists of their kinds and without a junction zero have the same
document only if they are the same, with all nodes and all three lists of edges in their
order, whatever the labels are.  All graphs that builders make are of this form. -/
theorem document_lossless :
    (∀ graph graph' : Graph, graph.Plain → graph'.Plain →
      (graph.document = graph'.document ↔ graph = graph')) ∧
    ∀ (first : Nat) (path : Option Classification) (bodies : List (List Stmt)),
      (bodies.foldl (fun b body => (b.walk body).1) (Builder.start first path)).finish.Plain :=
  ⟨fun _ _ h h' => ⟨document_inj h h', congrArg document⟩, Builder.plain_finish⟩

/-- A node with a label and one edge from the node to itself, which is followed if a test
holds. -/
private def looping (label : String) : Graph :=
  ⟨[⟨.statement 0, label, .decision, true, some 1⟩], [], [⟨.statement 0, .statement 0, .onTrue⟩], []⟩

private theorem looping_plain (label : String) : (looping label).Plain :=
  ⟨⟨by simp [looping], by simp [looping], by simp [looping]⟩, by simp [looping],
    by simp [looping, edges]⟩

/-- A line feed in a label and a backslash with an `n` are told apart, although the first
is written with a backslash and an `n`. -/
theorem document_lossless_escapes :
    (looping "é\n").Plain ∧ (looping "é\\n").Plain ∧
      (looping "é\n").document ≠ (looping "é\\n").document := by
  refine ⟨looping_plain _, looping_plain _, fun heq => ?_⟩
  have hsame := (document_lossless.1 _ _ (looping_plain _) (looping_plain _)).1 heq
  revert hsame
  decide

end Graph

end TraceGraph
