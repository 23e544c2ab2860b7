import TraceGraph.Proofs.Graph.Parts

/-!
# Two builders in lockstep

The order of the nodes and the edges between them depend on the outline of the body and
on nothing else, neither on the path to highlight nor on the texts of labels nor on the
first number.  So two builders that walk bodies with one outline stay in step: what one
of them has at a place, the other one has at the same place.

* `Builder.Parallel` is the relation between two builders that have come equally far.
* `Builder.addSegment_parallel` and `Builder.walkSegments_parallel`: segments with one
  outline keep it.
* `Graph.ofBody_parallel`: two bodies with one outline are refused for the same reason, or
  have graphs that match.
* `Graph.mapNodes_ofBody`: from one first number on, the graphs agree in all that the parts
  of the bodies agree in.
-/

namespace TraceGraph

/-- Two identities that builders hand out after equally many numbers, if they start at
`first` and at `first'`. -/
inductive NodeId.Counterpart (first first' : Nat) : NodeId → NodeId → Prop
  | statement (count : Nat) :
      Counterpart first first' (.statement (first + count)) (.statement (first' + count))
  | junction (count : Nat) : Counterpart first first' (.junction (max (first + count) 1))
      (.junction (max (first' + count) 1))

theorem NodeId.Counterpart.eq {first : Nat} {id id' : NodeId} (h : Counterpart first first id id') :
    id = id' := by
  cases h <;> rfl

/-- Identities that stand at the same place of two graphs. -/
def Graph.SamePlace (graph graph' : Graph) (id id' : NodeId) : Prop :=
  ∃ i : Nat, graph.ids[i]? = some id ∧ graph'.ids[i]? = some id'

/-- Edges of one kind whose ends correspond to each other. -/
structure Edge.Matches (same : NodeId → NodeId → Prop) (edge edge' : Edge) : Prop where
  source : same edge.source edge'.source
  target : same edge.target edge'.target
  kind : edge.kind = edge'.kind

theorem Edge.Matches.imp {same same' : NodeId → NodeId → Prop} {edge edge' : Edge}
    (h : edge.Matches same edge') (hsame : ∀ id id', same id id' → same' id id') :
    edge.Matches same' edge' :=
  ⟨hsame _ _ h.source, hsame _ _ h.target, h.kind⟩

namespace Builder

/-- Identities that edges of two builders may lead to at one time: those at the same place,
and the next number of both. -/
def Meets (b b' : Builder) (id id' : NodeId) : Prop :=
  b.graph.SamePlace b'.graph id id' ∨ id = .statement b.next ∧ id' = .statement b'.next

/-- Two builders that have come equally far from the numbers `first` and `first'` on.  Their
nodes may show different things. -/
structure Parallel (first first' : Nat) (b b' : Builder) : Prop where
  ids : List.Forall₂ (NodeId.Counterpart first first') b.graph.ids b'.graph.ids
  always : List.Forall₂ (Edge.Matches (b.Meets b')) b.graph.always b'.graph.always
  onTrue : List.Forall₂ (Edge.Matches (b.Meets b')) b.graph.onTrue b'.graph.onTrue
  onFalse : List.Forall₂ (Edge.Matches (b.Meets b')) b.graph.onFalse b'.graph.onFalse
  next : ∃ count, b.next = first + count ∧ b'.next = first' + count
  pending : b.pending.isSome = b'.pending.isSome

theorem start_parallel (first first' : Nat) (path path' : Option Classification) :
    Parallel first first' (start first path) (start first' path') :=
  ⟨.nil, .nil, .nil, .nil, ⟨0, rfl, rfl⟩, rfl⟩

theorem meets_next (b b' : Builder) : b.Meets b' (.statement b.next) (.statement b'.next) :=
  .inr ⟨rfl, rfl⟩

/-- Two builders have gone on in step, from `b` and `b'` to `c` and `c'`.  Identities that
corresponded to each other still do. -/
structure InStep (first first' : Nat) (b b' c c' : Builder) : Prop where
  parallel : c.Parallel first first' c'
  meets : ∀ {id id' : NodeId}, b.Meets b' id id' → c.Meets c' id id'

namespace InStep

variable {first first' : Nat} {b b' c c' d d' : Builder}

theorem refl (h : b.Parallel first first' b') : InStep first first' b b' b b' :=
  ⟨h, id⟩

theorem trans (h : InStep first first' b b' c c') (h' : InStep first first' c c' d d') :
    InStep first first' b b' d d' :=
  ⟨h'.parallel, h'.meets ∘ h.meets⟩

/-! ## Nodes and edges -/

/-- Nodes under corresponding identities.  The next number of both builders may be spent on
them. -/
private theorem addNode (h : InStep first first' b b' c c') {node node' : Node}
    (hgraph : d.graph = c.graph.addNode node) (hgraph' : d'.graph = c'.graph.addNode node')
    (hid : node.id.Counterpart first first' node'.id)
    (hnext : ∃ count, d.next = first + count ∧ d'.next = first' + count)
    (hspent : d.next = c.next ∧ d'.next = c'.next ∨
      node.id = .statement c.next ∧ node'.id = .statement c'.next)
    (hpending : d.pending.isSome = d'.pending.isSome) : InStep first first' b b' d d' := by
  have hids : d.graph.ids = c.graph.ids ++ [node.id] := by rw [hgraph, Graph.ids_addNode]
  have hids' : d'.graph.ids = c'.graph.ids ++ [node'.id] := by rw [hgraph', Graph.ids_addNode]
  have hmeets : ∀ {id id' : NodeId}, c.Meets c' id id' → d.Meets d' id id' := by
    rintro id id' (⟨i, hi, hi'⟩ | ⟨rfl, rfl⟩)
    · refine .inl ⟨i, ?_, ?_⟩
      · rw [hids, List.getElem?_append_left (List.getElem?_eq_some_iff.1 hi).1, hi]
      · rw [hids', List.getElem?_append_left (List.getElem?_eq_some_iff.1 hi').1, hi']
    · rcases hspent with ⟨hsame, hsame'⟩ | ⟨hnode, hnode'⟩
      · exact .inr ⟨by rw [hsame], by rw [hsame']⟩
      · refine .inl ⟨c.graph.ids.length, ?_, ?_⟩
        · rw [hids, List.getElem?_concat_length, hnode]
        · rw [hids', h.parallel.ids.length_eq, List.getElem?_concat_length, hnode']
  refine ⟨⟨?_, ?_, ?_, ?_, hnext, hpending⟩, hmeets ∘ h.meets⟩
  · rw [hids, hids']
    exact List.rel_append h.parallel.ids (.cons hid .nil)
  · rw [hgraph, hgraph']
    exact h.parallel.always.imp fun _ _ hedge => hedge.imp fun _ _ => hmeets
  · rw [hgraph, hgraph']
    exact h.parallel.onTrue.imp fun _ _ hedge => hedge.imp fun _ _ => hmeets
  · rw [hgraph, hgraph']
    exact h.parallel.onFalse.imp fun _ _ hedge => hedge.imp fun _ _ => hmeets

theorem addPart (h : InStep first first' b b' c c') (part part' : Part) :
    InStep first first' b b' (c.addPart part) (c'.addPart part') := by
  obtain ⟨count, hnext, hnext'⟩ := h.parallel.next
  refine h.addNode rfl rfl ?_ ⟨count + 1, ?_, ?_⟩ (.inr ⟨rfl, rfl⟩) rfl
  · rw [hnext, hnext']
    exact .statement count
  · exact congrArg (· + 1) hnext
  · exact congrArg (· + 1) hnext'

theorem addMerge (h : InStep first first' b b' c c') :
    InStep first first' b b' (c.addNode c.mergeId "" .junction c.path.isSome none)
      (c'.addNode c'.mergeId "" .junction c'.path.isSome none) := by
  obtain ⟨count, hnext, hnext'⟩ := h.parallel.next
  refine h.addNode rfl rfl ?_ h.parallel.next (.inl ⟨rfl, rfl⟩) h.parallel.pending
  show NodeId.Counterpart first first' c.mergeId c'.mergeId
  rw [mergeId, mergeId, hnext, hnext']
  exact .junction count

theorem addEdge (h : InStep first first' b b' c c') {source source' target target' : NodeId}
    (hsource : c.Meets c' source source') (htarget : c.Meets c' target target')
    (kind : EdgeKind) :
    InStep first first' b b' (c.addEdge source target kind) (c'.addEdge source' target' kind) := by
  have hmeets : ∀ id id', c.Meets c' id id' →
      (c.addEdge source target kind).Meets (c'.addEdge source' target' kind) id id' := by
    intro id id' hid
    simpa [Meets, Graph.SamePlace] using hid
  have hedge : Edge.Matches (c.Meets c') ⟨source, target, kind⟩ ⟨source', target', kind⟩ :=
    ⟨hsource, htarget, rfl⟩
  obtain ⟨hids, halways, htrue, hfalse, hnext, hpending⟩ := h.parallel
  have hkeep : ∀ {edges edges' : List Edge}, List.Forall₂ (Edge.Matches (c.Meets c')) edges edges' →
      List.Forall₂ (Edge.Matches ((c.addEdge source target kind).Meets
        (c'.addEdge source' target' kind))) edges edges' :=
    fun hedges => hedges.imp fun _ _ hedge => hedge.imp hmeets
  refine ⟨?_, hmeets _ _ ∘ h.meets⟩
  cases kind with
  | always =>
    exact ⟨hids, hkeep (List.rel_append halways (.cons hedge .nil)), hkeep htrue, hkeep hfalse,
      hnext, hpending⟩
  | onTrue =>
    exact ⟨hids, hkeep halways, hkeep (List.rel_append htrue (.cons hedge .nil)), hkeep hfalse,
      hnext, hpending⟩
  | onFalse =>
    exact ⟨hids, hkeep halways, hkeep htrue, hkeep (List.rel_append hfalse (.cons hedge .nil)),
      hnext, hpending⟩

theorem rel (h : InStep first first' b b' c c') {last last' : Option NodeId}
    (hlast : Option.Rel (b.Meets b') last last') : Option.Rel (c.Meets c') last last' := by
  cases hlast with
  | none => exact .none
  | some hid => exact .some (h.meets hid)

theorem link (h : InStep first first' b b' c c') {last last' : Option NodeId}
    {target target' : NodeId} (hlast : Option.Rel (c.Meets c') last last')
    (htarget : c.Meets c' target target') :
    InStep first first' b b' (c.link last target) (c'.link last' target') := by
  cases hlast with
  | none => exact h
  | some hsource => exact h.addEdge hsource htarget .always

theorem reserve (h : InStep first first' b b' c c') :
    InStep first first' b b' { c with pending := some c.next }
      { c' with pending := some c'.next } := by
  obtain ⟨⟨hids, halways, htrue, hfalse, hnext, -⟩, hmeets⟩ := h
  exact ⟨⟨hids, halways, htrue, hfalse, hnext, rfl⟩, hmeets⟩

/-! ## Segments -/

/-- The test and the consequent of a link, with their edges. -/
theorem addLink (h : b.Parallel first first' b') (test test' : Expr)
    (consequent consequent' : Stmt) {merge merge' : NodeId} (hmerge : b.Meets b' merge merge') :
    InStep first first' b b' (b.addLink test consequent merge).2
      (b'.addLink test' consequent' merge').2 := by
  have hdecision := (refl h).addPart (.decision test) (.decision test')
  have hbody := (refl hdecision.parallel).addPart (.branch consequent) (.branch consequent')
  have hjoin := hbody.addEdge (hbody.meets (meets_next _ _))
    (hbody.meets (hdecision.meets hmerge)) .always
  exact hdecision.trans (hjoin.addEdge (hjoin.meets (hdecision.meets (meets_next _ _)))
    (hjoin.meets (meets_next _ _)) .onTrue)

theorem addAlternate (h : b.Parallel first first' b') {decision decision' merge merge' : NodeId}
    (hdecision : b.Meets b' decision decision') (hmerge : b.Meets b' merge merge')
    {alternate alternate' : Stmt} (houtline : alternate.outline = alternate'.outline) :
    InStep first first' b b' (b.addAlternate decision merge alternate)
      (b'.addAlternate decision' merge' alternate') := by
  induction alternate using Stmt.chain_induction
    generalizing b b' decision decision' alternate' with
  | ifThen line test consequent =>
    cases alternate' with
    | ifThen line' test' consequent' =>
      have hlink := addLink h test test' consequent consequent' hmerge
      have hno := hlink.addEdge (hlink.meets hdecision) (hlink.meets (meets_next _ _)) .onFalse
      exact hno.addEdge (hno.meets (meets_next _ _)) (hno.meets hmerge) .onFalse
    | _ => cases houtline
  | ifElse line test consequent alternate ih =>
    cases alternate' with
    | ifElse line' test' consequent' alternate' =>
      have hrest : alternate.outline = alternate'.outline := (Stmt.ifElse.inj houtline).2.2.2
      have hlink := addLink h test test' consequent consequent' hmerge
      have hno := hlink.addEdge (hlink.meets hdecision) (hlink.meets (meets_next _ _)) .onFalse
      exact hno.trans (ih hno.parallel (hno.meets (meets_next _ _)) (hno.meets hmerge) hrest)
    | _ => cases houtline
  | otherwise s hs =>
    have hs' : alternate'.isConditional = false := by
      rw [← Stmt.isConditional_outline, ← houtline, Stmt.isConditional_outline, hs]
    rw [addAlternate_otherwise _ _ _ hs, addAlternate_otherwise _ _ _ hs']
    have hbody := (refl h).addPart (.branch s) (.branch alternate')
    have hno := hbody.addEdge (hbody.meets hdecision) (hbody.meets (meets_next _ _)) .onFalse
    exact hno.addEdge (hno.meets (meets_next _ _)) (hno.meets hmerge) .always

/-- The junction of a conditional and its first link.  The junction stands at the same place
of both graphs. -/
theorem addHead (h : b.Parallel first first' b') (test test' : Expr)
    (consequent consequent' : Stmt) {last last' : Option NodeId}
    (hlast : Option.Rel (b.Meets b') last last') :
    InStep first first' b b' (b.addHead test consequent last)
        (b'.addHead test' consequent' last') ∧
      (b.addHead test consequent last).Meets (b'.addHead test' consequent' last') b.mergeId
        b'.mergeId := by
  have hmerge := (refl h).addMerge
  have hplace : (b.addNode b.mergeId "" .junction b.path.isSome none).Meets
      (b'.addNode b'.mergeId "" .junction b'.path.isSome none) b.mergeId b'.mergeId := by
    refine .inl ⟨b.graph.ids.length, ?_, ?_⟩
    · rw [graph_addNode, Graph.ids_addNode, List.getElem?_concat_length]
    · rw [graph_addNode, Graph.ids_addNode, h.ids.length_eq, List.getElem?_concat_length]
  have hlink := addLink hmerge.parallel test test' consequent consequent' hplace
  have hhead := hlink.link (hlink.rel (hmerge.rel hlast)) (hlink.meets (meets_next _ _))
  exact ⟨hmerge.trans hhead, hhead.meets hplace⟩

theorem addLoop (h : b.Parallel first first' b') (line line' : Nat) (test test' : Expr)
    (body body' : Stmt) {last last' : Option NodeId}
    (hlast : Option.Rel (b.Meets b') last last') :
    InStep first first' b b' (b.addLoop line test body last)
      (b'.addLoop line' test' body' last') := by
  have hround := (refl h).addPart (.round line) (.round line')
  have hdecision := (refl hround.parallel).addPart (.decision test) (.decision test')
  have hinner := (refl hdecision.parallel).addPart (.inner body) (.inner body')
  have hnodes := hround.trans (hdecision.trans hinner)
  have hentry := hnodes.meets (meets_next _ _)
  have htest := hinner.meets (hdecision.meets (meets_next _ _))
  have hbody := hinner.meets (meets_next _ _)
  have hlink := (refl hnodes.parallel).link (hnodes.rel hlast) hentry
  have hforward := hlink.addEdge (hlink.meets hentry) (hlink.meets htest) .always
  have hback := hforward.addEdge (hforward.meets hbody) (hforward.meets hentry) .always
  have htrue := hback.addEdge (hback.meets htest) (hback.meets hbody) .onTrue
  have hfalse := htrue.addEdge (htrue.meets htest) (meets_next _ _) .onFalse
  exact hnodes.trans hfalse.reserve

end InStep

private theorem walkSegments_cons (b : Builder) (last : Option NodeId) {segment : Segment}
    (rest : List Segment) (h : segment.fault? = none) :
    b.walkSegments last (segment :: rest)
      = (b.addSegment last segment).2.walkSegments (b.addSegment last segment).1 rest := by
  rw [walkSegments, h]

section

variable {first first' : Nat} {b b' : Builder} (h : b.Parallel first first' b')
include h

/-- Segments with one outline keep builders parallel, and lead on from nodes at the same
place. -/
theorem addSegment_parallel {last last' : Option NodeId}
    (hlast : Option.Rel (b.Meets b') last last') {segment segment' : Segment}
    (houtline : segment.outline = segment'.outline) :
    let c := b.addSegment last segment
    let c' := b'.addSegment last' segment'
    c.2.Parallel first first' c'.2 ∧ Option.Rel (c.2.Meets c'.2) c.1 c'.1 := by
  cases segment with
  | run stmts =>
    cases segment' with
    | run stmts' =>
      have hrun := (InStep.refl h).addPart (.run stmts) (.run stmts')
      have hlink := hrun.link (hrun.rel hlast) (hrun.meets (meets_next _ _))
      exact ⟨hlink.parallel, .some (hlink.meets (meets_next _ _))⟩
    | _ => cases houtline
  | branching test consequent alternate =>
    cases segment' with
    | branching test' consequent' alternate' =>
      obtain ⟨-, -, halternate⟩ := Segment.branching.inj houtline
      obtain ⟨hhead, hmerge⟩ := InStep.addHead h test test' consequent consequent' hlast
      have hdecision := hhead.meets (meets_next _ _)
      cases alternate with
      | none =>
        cases alternate' with
        | none =>
          have hno := (InStep.refl hhead.parallel).addEdge hdecision hmerge .onFalse
          exact ⟨hno.parallel, .some (hno.meets hmerge)⟩
        | some alternate' => cases halternate
      | some alternate =>
        cases alternate' with
        | none => cases halternate
        | some alternate' =>
          have hrest := InStep.addAlternate hhead.parallel hdecision hmerge
            (Option.some.inj halternate)
          exact ⟨hrest.parallel, .some (hrest.meets hmerge)⟩
    | _ => cases houtline
  | loop line test body =>
    cases segment' with
    | loop line' test' body' =>
      exact ⟨(InStep.addLoop h line line' test test' body body' hlast).parallel, .none⟩
    | _ => cases houtline

/-- Two walks along segments with one outline stay parallel and end with the same
fault, if they end with one. -/
theorem walkSegments_parallel {last last' : Option NodeId}
    (hlast : Option.Rel (b.Meets b') last last') {segments segments' : List Segment}
    (houtline : segments.map Segment.outline = segments'.map Segment.outline) :
    (b.walkSegments last segments).1.Parallel first first' (b'.walkSegments last' segments').1 ∧
      (b.walkSegments last segments).2 = (b'.walkSegments last' segments').2 := by
  induction segments generalizing b b' last last' segments' with
  | nil =>
    cases segments' with
    | nil => exact ⟨h, rfl⟩
    | cons => cases houtline
  | cons segment rest ih =>
    cases segments' with
    | nil => cases houtline
    | cons segment' rest' =>
      obtain ⟨hfirst, hrest⟩ := List.cons.inj houtline
      have hfault : segment.fault? = segment'.fault? := by
        rw [← Segment.fault?_outline, hfirst, Segment.fault?_outline]
      cases hstop : segment'.fault? with
      | some fault =>
        rw [walkSegments, walkSegments, hfault, hstop]
        exact ⟨h, rfl⟩
      | none =>
        obtain ⟨hadded, hleads⟩ := addSegment_parallel h hlast hfirst
        rw [walkSegments_cons b last rest (hfault.trans hstop),
          walkSegments_cons b' last' rest' hstop]
        exact ih hadded hleads hrest

theorem close_parallel : b.close.Parallel first first' b'.close := by
  have hpending := h.pending
  cases hb : b.pending with
  | none =>
    have hb' : b'.pending = none := by simpa [hb] using hpending
    have hclose : b.close = b := by simp [close, hb]
    have hclose' : b'.close = b' := by simp [close, hb']
    rw [hclose, hclose']
    exact h
  | some n =>
    obtain ⟨n', hb'⟩ := Option.isSome_iff_exists.1 (hpending.symm.trans (by rw [hb]; rfl))
    have hclose : b.close = b.addPart .exit := by simp only [close, hb]; rfl
    have hclose' : b'.close = b'.addPart .exit := by simp only [close, hb']; rfl
    rw [hclose, hclose']
    exact ((InStep.refl h).addPart .exit .exit).parallel

end

/-- From one first number on, parallel builders have the same identities and the same edges. -/
theorem Parallel.eq {first : Nat} {b b' : Builder} (h : b.Parallel first first b') :
    b.graph.ids = b'.graph.ids ∧ b.graph.always = b'.graph.always ∧
      b.graph.onTrue = b'.graph.onTrue ∧ b.graph.onFalse = b'.graph.onFalse := by
  have hids : b.graph.ids = b'.graph.ids :=
    List.forall₂_eq_eq_eq ▸ h.ids.imp fun _ _ hid => hid.eq
  obtain ⟨count, hnext, hnext'⟩ := h.next
  have hmeets : ∀ id id', b.Meets b' id id' → id = id' := by
    rintro id id' (⟨i, hi, hi'⟩ | ⟨rfl, rfl⟩)
    · rw [hids, hi'] at hi
      exact (Option.some.inj hi).symm
    · rw [hnext, hnext']
  have hedges : ∀ {edges edges' : List Edge},
      List.Forall₂ (Edge.Matches (b.Meets b')) edges edges' → edges = edges' := by
    intro edges edges' hmatch
    refine List.forall₂_eq_eq_eq ▸ hmatch.imp fun edge edge' hedge => ?_
    obtain ⟨hsource, htarget, hkind⟩ := hedge.imp hmeets
    cases edge
    cases edge'
    cases hsource
    cases htarget
    cases hkind
    rfl
  exact ⟨hids, hedges h.always, hedges h.onTrue, hedges h.onFalse⟩

end Builder

/-! ## Graphs -/

namespace Graph

/-- The graph with its nodes changed and its edges kept. -/
def mapNodes (f : Node → Node) (graph : Graph) : Graph :=
  { graph with nodes := graph.nodes.map f }

/-- The graph without highlighting. -/
def eraseColors : Graph → Graph :=
  mapNodes fun node => { node with highlighted := false }

/-- The graph without labels. -/
def eraseLabels : Graph → Graph :=
  mapNodes fun node => { node with label := "" }

/-- Nodes that are drawn for parts which agree in what is kept of them agree in it,
if they have the same identities. -/
private theorem map_nodes_eq {forget : Node → Node} {path path' : Option Classification}
    {nodes nodes' : List Node} {parts parts' : List Part}
    (hparts : List.Forall₂ (fun part part' =>
      ∀ id, forget (part.node path id) = forget (part'.node path' id)) parts parts')
    (hids : nodes.map Node.id = nodes'.map Node.id)
    (hdraws : List.Forall₂ (Node.Draws path) nodes parts)
    (hdraws' : List.Forall₂ (Node.Draws path') nodes' parts') :
    nodes.map forget = nodes'.map forget := by
  induction hparts generalizing nodes nodes' with
  | nil =>
    cases hdraws
    cases hdraws'
    rfl
  | cons hpart _ ih =>
    cases hdraws with
    | cons hnode hrest =>
      cases hdraws' with
      | cons hnode' hrest' =>
        obtain ⟨hid, hids⟩ := List.cons.inj hids
        rw [List.map_cons, List.map_cons, hnode, hnode', hid, hpart, ih hids hrest hrest']

private theorem ofBody_eq (body : List Stmt) (firstId : Nat) (path : Option Classification) :
    ofBody body firstId path
      = match ((Builder.start firstId path).walk body).2 with
        | none => .ok ((Builder.start firstId path).walk body).1.finish
        | some fault => .error fault := by
  rw [ofBody]
  rcases (Builder.start firstId path).walk body with ⟨b, _ | fault⟩ <;> rfl

/-- Two bodies with one outline are refused for the same reason, or builders go through both
of them in parallel. -/
theorem ofBody_parallel {body body' : List Stmt}
    (houtline : Stmt.outlines body = Stmt.outlines body') (first first' : Nat)
    (path path' : Option Classification) :
    (∃ fault, ofBody body first path = .error fault ∧ ofBody body' first' path' = .error fault) ∨
      ∃ b b' : Builder, ofBody body first path = .ok b.finish ∧
        ofBody body' first' path' = .ok b'.finish ∧
        (b.Ready first none ∧ b'.Ready first' none) ∧ b.close.Parallel first first' b'.close := by
  have hsegments : (Segment.ofBody body).map Segment.outline
      = (Segment.ofBody body').map Segment.outline := by
    rw [← Segment.ofBody_outlines, houtline, Segment.ofBody_outlines]
  obtain ⟨hparallel, hfault⟩ := Builder.walkSegments_parallel
    (Builder.start_parallel first first' path path') .none hsegments
  have hbody := ofBody_eq body first path
  have hbody' := ofBody_eq body' first' path'
  unfold Builder.walk at hbody hbody'
  rw [hfault] at hbody
  split at hbody'
  · rename_i hnone
    rw [hnone] at hbody
    exact .inr ⟨_, _, hbody, hbody',
      ⟨Builder.walk_ready (Builder.start_ready first path) body,
        Builder.walk_ready (Builder.start_ready first' path') body'⟩,
      Builder.close_parallel hparallel⟩
  · rename_i fault hsome
    rw [hsome] at hbody
    exact .inl ⟨fault, hbody, hbody'⟩

/-- The graphs of two bodies with one outline.  If the nodes of their parts agree in
what `forget` keeps of them, then so do the graphs, and if one body is refused, the
other is refused for the same reason. -/
theorem mapNodes_ofBody {body body' : List Stmt} (firstId : Nat)
    {path path' : Option Classification} {forget : Node → Node}
    (houtline : Stmt.outlines body = Stmt.outlines body')
    (hparts : List.Forall₂ (fun part part' =>
      ∀ id, forget (part.node path id) = forget (part'.node path' id))
      (Segment.partsOf (Segment.ofBody body)) (Segment.partsOf (Segment.ofBody body'))) :
    (ofBody body firstId path).map (mapNodes forget)
      = (ofBody body' firstId path').map (mapNodes forget) := by
  obtain ⟨fault, hbody, hbody'⟩ | ⟨b, b', hbody, hbody', -, hparallel⟩ :=
    ofBody_parallel houtline firstId firstId path path'
  · rw [hbody, hbody']
  · obtain ⟨hids, halways, htrue, hfalse⟩ := hparallel.eq
    have hnodes := map_nodes_eq hparts hids (draws_of_ofBody hbody) (draws_of_ofBody hbody')
    rw [hbody, hbody']
    simp only [Except.map, mapNodes, Builder.finish, halways, htrue, hfalse]
    exact congrArg (fun nodes => Except.ok (Graph.mk nodes _ _ _)) hnodes

/-- Which path is highlighted decides about colors only. -/
theorem eraseColors_ofBody (body : List Stmt) (firstId : Nat) (path path' : Option Classification) :
    (ofBody body firstId path).map eraseColors = (ofBody body firstId path').map eraseColors :=
  mapNodes_ofBody firstId rfl (List.forall₂_same.2 fun _ _ _ => rfl)

/-- Bodies with one outline have graphs that differ in labels only. -/
theorem eraseLabels_ofBody {body body' : List Stmt}
    (houtline : Stmt.outlines body = Stmt.outlines body') (firstId : Nat)
    (path : Option Classification) :
    (ofBody body firstId path).map eraseLabels = (ofBody body' firstId path).map eraseLabels := by
  refine mapNodes_ofBody firstId houtline ?_
  have hparts : (Segment.partsOf (Segment.ofBody body)).map Part.outline
      = (Segment.partsOf (Segment.ofBody body')).map Part.outline := by
    rw [← Segment.partsOf_outline, ← Segment.partsOf_outline, ← Segment.ofBody_outlines,
      ← Segment.ofBody_outlines, houtline]
  rw [← List.forall₂_eq_eq_eq, List.forall₂_map_left_iff, List.forall₂_map_right_iff] at hparts
  refine hparts.imp fun part part' heq id => ?_
  rw [← Part.node_outline path part id, heq, Part.node_outline]

end Graph

end TraceGraph
