import TraceGraph.Proofs.Analysis.Options
import TraceGraph.Proofs.Classification.Accounting
import TraceGraph.Proofs.Stmt.Scope

/-!
# Highlighting marks the path taken

A graph is drawn from lines: a node is highlighted if the run has executed its line.
Where the body is laid out with one statement per line this says what the run did, and
not only where.

* `Part.OnPath`: whether a run passes a part of the body.
* `Stmt.Walks.entered_or_passed`: a branch of a chain is entered or passed over.
* `Part.lit_iff_onPath`: a part is highlighted if and only if the run passes it.
* `highlights_path`: so are the nodes of an analysis.
-/

namespace TraceGraph

/-- Whether a run passes the part.  A test is to be evaluated, a branch to be selected, and
of statements that run one after the other the first one is to be executed.  Paths meet
on every path, and the body of a loop is on none. -/
def Part.OnPath (visits : List Visit) : Part → Prop
  | .run stmts => ∃ s, stmts.head? = some s ∧ .step s ∈ visits
  | .decision test => ∃ s, s.test? = some test ∧ Reached visits s
  | .branch body => ∃ link, .enter link body ∈ visits
  | .merge | .round _ | .exit => True
  | .inner _ => False

/-! ## Blocks -/

namespace Stmt

/-- Whether a block has something in it, and no block directly in it. -/
def ownsBlocks : Stmt → Bool
  | .block _ body => !body.isEmpty && body.all (!·.isBlock)
  | .function _ _ _ _ body => body.all (!·.isBlock)
  | .expression .. | .declare .. | .ifThen .. | .ifElse .. | .loop .. | .exit .. => true

/-- Whether blocks are only bodies of conditionals and loops, and none is empty. -/
def blocksAreBodies (body : List Stmt) : Bool :=
  body.all (!·.isBlock) && everyOf ownsBlocks body

theorem every_of_mem {ok : Stmt → Bool} {body : List Stmt} {s : Stmt}
    (h : everyOf ok body) (hs : s ∈ body) : every ok s := by
  induction body with
  | nil => cases hs
  | cons first rest ih =>
    obtain ⟨hfirst, hrest⟩ := Bool.and_eq_true_iff.1 h
    rcases List.mem_cons.1 hs with rfl | hs
    · exact hfirst
    · exact ih hrest hs

theorem every_self {ok : Stmt → Bool} {s : Stmt} (h : every ok s) : ok s := by
  cases s <;> simp_all [every]

theorem firstLine_eq_line {s : Stmt} (h : s.isBlock = false) : s.firstLine = s.line := by
  cases s with
  | block => cases h
  | _ => rfl

/-- The node of a body stands where its first statement does. -/
theorem exists_first {b : Stmt} (h : b.ownsBlocks) : ∃ first ∈ b.branch.head?,
    first.isBlock = false ∧ b.firstLine = first.line ∧ first ∈ b.statements := by
  cases hb : b.isBlock with
  | false =>
    refine ⟨b, ?_, hb, firstLine_eq_line hb, self_mem_statements hb⟩
    rw [branch_eq_self hb]
    rfl
  | true =>
    cases b with
    | block line body =>
      cases body with
      | nil => cases h
      | cons first rest =>
        rw [ownsBlocks] at h
        obtain ⟨-, hall⟩ := Bool.and_eq_true_iff.1 h
        have hfirst : first.isBlock = false := by
          simpa using List.all_eq_true.1 hall first List.mem_cons_self
        exact ⟨first, rfl, hfirst, firstLine_eq_line hfirst,
          List.mem_append_left _ (self_mem_statements hfirst)⟩
    | _ => cases hb

/-! ## Chains -/

section

variable {line : Nat} {condition : Expr} {s b consequent alternate : Stmt}

theorem branch_mem_ifThen :
    .branch b ∈ (ifThen line condition consequent).chainParts ↔ b = consequent := by
  simp [chainParts]

theorem branch_mem_ifElse :
    .branch b ∈ (ifElse line condition consequent alternate).chainParts ↔
      b = consequent ∨ .branch b ∈ alternate.chainParts := by
  simp [chainParts]

theorem branch_mem_otherwise (hs : s.isConditional = false) :
    .branch b ∈ s.chainParts ↔ b = s := by
  simp [chainParts_otherwise hs]

theorem every_of_mem_chainParts {ok : Stmt → Bool} (h : every ok s)
    (hb : .branch b ∈ s.chainParts) : every ok b := by
  induction s using chain_induction with
  | ifThen line test consequent =>
    rw [branch_mem_ifThen.1 hb]
    exact (Bool.and_eq_true_iff.1 h).2
  | ifElse line test consequent alternate ih =>
    obtain ⟨hconsequent, halternate⟩ := Bool.and_eq_true_iff.1 h
    rcases branch_mem_ifElse.1 hb with rfl | hb
    · exact (Bool.and_eq_true_iff.1 hconsequent).2
    · exact ih halternate hb
  | otherwise s hs =>
    rw [(branch_mem_otherwise hs).1 hb]
    exact h

theorem statements_subset_of_mem_chainParts (hb : .branch b ∈ s.chainParts) :
    b.statements ⊆ s.statements := by
  induction s using chain_induction with
  | ifThen line test consequent =>
    rw [branch_mem_ifThen.1 hb]
    exact List.subset_cons_self _ _
  | ifElse line test consequent alternate ih =>
    refine List.subset_cons_of_subset _ ?_
    rcases branch_mem_ifElse.1 hb with rfl | hb
    · exact List.subset_append_left _ _
    · exact List.Subset.trans (ih hb) (List.subset_append_right _ _)
  | otherwise s hs =>
    rw [(branch_mem_otherwise hs).1 hb]
    exact List.Subset.refl _

/-- The parts of a chain are the tests of its links and its branches. -/
theorem mem_chainParts_cases {part : Part} (h : part ∈ s.chainParts) :
    (∃ link ∈ s.statements, ∃ test, link.test? = some test ∧ part = .decision test) ∨
      ∃ b, part = .branch b := by
  induction s using chain_induction with
  | ifThen line condition consequent =>
    rcases List.mem_cons.1 h with rfl | h
    · exact .inl ⟨_, List.mem_cons_self, condition, rfl, rfl⟩
    · exact .inr ⟨consequent, List.mem_singleton.1 h⟩
  | ifElse line condition consequent alternate ih =>
    rcases List.mem_cons.1 h with rfl | h
    · exact .inl ⟨_, List.mem_cons_self, condition, rfl, rfl⟩
    · rcases List.mem_cons.1 h with rfl | h
      · exact .inr ⟨consequent, rfl⟩
      · rcases ih h with ⟨link, hlink, htest⟩ | hbranch
        · exact .inl ⟨link, List.mem_cons_of_mem _ (List.mem_append_right _ hlink), htest⟩
        · exact .inr hbranch
  | otherwise s hs =>
    rw [chainParts_otherwise hs] at h
    exact .inr ⟨s, List.mem_singleton.1 h⟩

theorem pass_mem_leaveChain (hb : .branch b ∈ s.chainParts) : .pass b ∈ s.leaveChain := by
  induction s using chain_induction with
  | ifThen line test consequent =>
    rw [branch_mem_ifThen.1 hb]
    exact List.mem_cons_of_mem _ List.mem_cons_self
  | ifElse line test consequent alternate ih =>
    refine List.mem_cons_of_mem _ ?_
    rcases branch_mem_ifElse.1 hb with rfl | hb
    · exact List.mem_cons_self
    · exact List.mem_cons_of_mem _ (ih hb)
  | otherwise s hs =>
    rw [(branch_mem_otherwise hs).1 hb, leaveChain_otherwise hs]
    exact List.mem_cons_self

end

namespace Walks

variable {s b : Stmt} {visits : List Visit}

/-- A statement of a body is walked over or passed over. -/
theorem of_mem_body {line : Nat} {body : List Stmt} (h : Walks (.block line body) visits)
    (hs : s ∈ body) : .pass s ∈ visits ∨ ∃ visits', visits' ⊆ visits ∧ Walks s visits' := by
  induction body generalizing visits with
  | nil => cases hs
  | cons first rest ih =>
    cases h with
    | step hstep => cases hstep
    | cons hfirst hothers =>
      rcases List.mem_cons.1 hs with rfl | hs
      · exact .inr ⟨_, List.subset_append_left _ _, hfirst⟩
      · rcases ih hothers hs with hpass | ⟨visits', hsub, hwalks⟩
        · exact .inl (List.mem_append_right _ hpass)
        · exact .inr ⟨visits', List.Subset.trans hsub (List.subset_append_right _ _), hwalks⟩
    | returned _ _ hfirst =>
      rcases List.mem_cons.1 hs with rfl | hs
      · exact .inr ⟨_, List.subset_append_left _ _, hfirst⟩
      · exact .inl (List.mem_append_right _ (List.mem_map_of_mem hs))

/-- A branch of a chain that is walked over is entered or passed over. -/
theorem entered_or_passed (h : Walks s visits) (hs : s.isConditional)
    (hb : .branch b ∈ s.chainParts) : (∃ link, .enter link b ∈ visits) ∨ .pass b ∈ visits := by
  induction h with
  | @step s hstep =>
    cases s with
    | ifThen => cases hstep
    | ifElse => cases hstep
    | _ => cases hs
  | nil => cases hs
  | cons => cases hs
  | returned => cases hs
  | thenHolds line test taken =>
    rw [branch_mem_ifThen.1 hb]
    exact .inl ⟨_, List.mem_cons_of_mem _ List.mem_cons_self⟩
  | thenFails line test consequent =>
    rw [branch_mem_ifThen.1 hb]
    exact .inr (List.mem_cons_of_mem _ List.mem_cons_self)
  | elseHolds line test alternate taken =>
    rcases branch_mem_ifElse.1 hb with rfl | hb
    · exact .inl ⟨_, List.mem_cons_of_mem _ List.mem_cons_self⟩
    · exact .inr (List.mem_cons_of_mem _ (List.mem_cons_of_mem _
        (List.mem_append_right _ (pass_mem_leaveChain hb))))
  | @elseFails line test consequent alternate visits taken ih =>
    rcases branch_mem_ifElse.1 hb with rfl | hb
    · exact .inr (List.mem_cons_of_mem _ List.mem_cons_self)
    · -- a further link has branches of its own, any other alternative is the branch
      cases halternate : alternate.isConditional with
      | true =>
        have hsub : ∀ v v' entered, visits ⊆ v :: v' :: (entered ++ visits) := fun v v' entered =>
          List.Subset.trans (List.subset_append_right entered _)
            (List.subset_cons_of_subset _ (List.subset_cons_self _ _))
        rcases ih halternate hb with ⟨link, henter⟩ | hpass
        · exact .inl ⟨link, hsub _ _ _ henter⟩
        · exact .inr (hsub _ _ _ hpass)
      | false =>
        rw [(branch_mem_otherwise halternate).1 hb]
        refine .inl ⟨.ifElse line test consequent alternate, ?_⟩
        simp [enterElse, halternate]

end Walks

end Stmt

/-! ## Parts of a body -/

/-- Where in the body the part comes from. -/
def Part.From (body : List Stmt) : Part → Prop
  | .run stmts => ∃ s ∈ body, stmts.head? = some s ∧ s.isConditional = false
  | .decision test => ∃ s ∈ Stmt.statementsOf body, s.test? = some test
  | .branch b => ∃ s ∈ body, s.isConditional ∧ .branch b ∈ s.chainParts
  | .merge | .round _ | .inner _ | .exit => True

theorem Part.From.cons {body : List Stmt} {part : Part} (h : part.From body) (s : Stmt) :
    part.From (s :: body) := by
  cases part with
  | run stmts =>
    obtain ⟨t, ht, hhead⟩ := h
    exact ⟨t, List.mem_cons_of_mem _ ht, hhead⟩
  | decision test =>
    obtain ⟨t, ht, htest⟩ := h
    exact ⟨t, List.mem_append_right _ ht, htest⟩
  | branch b =>
    obtain ⟨t, ht, hbranch⟩ := h
    exact ⟨t, List.mem_cons_of_mem _ ht, hbranch⟩
  | _ => trivial

theorem Part.from_of_mem_chainParts {body : List Stmt} {s : Stmt} (hs : s ∈ body)
    (hkind : s.isConditional) {part : Part} (h : part ∈ s.chainParts) : part.From body := by
  rcases Stmt.mem_chainParts_cases h with ⟨link, hlink, test, htest, rfl⟩ | ⟨b, rfl⟩
  · exact ⟨link, Stmt.statements_subset_statementsOf hs hlink, htest⟩
  · exact ⟨s, hs, hkind, h⟩

namespace Segment

private theorem from_of_mem_prepend {s : Stmt} {rest : List Stmt} {segments : List Segment}
    (hs : s.isConditional = false)
    (h : ∀ segment ∈ segments, ∀ part ∈ segment.parts, part.From rest) :
    ∀ segment ∈ prepend s segments, ∀ part ∈ segment.parts, part.From (s :: rest) := by
  have hrun : ∀ stmts, ∀ part ∈ (Segment.run (s :: stmts)).parts, part.From (s :: rest) :=
    fun stmts => List.forall_mem_singleton.2 ⟨s, List.mem_cons_self, rfl, hs⟩
  have hothers : ∀ segment ∈ segments, ∀ part ∈ segment.parts, part.From (s :: rest) :=
    fun segment hsegment part hpart => (h segment hsegment part hpart).cons s
  unfold prepend
  split
  · exact List.forall_mem_cons.2 ⟨hrun _, (List.forall_mem_cons.1 hothers).2⟩
  · exact List.forall_mem_cons.2 ⟨hrun _, hothers⟩

theorem from_of_mem_ofBody (body : List Stmt) :
    ∀ segment ∈ ofBody body, ∀ part ∈ segment.parts, part.From body := by
  induction body with
  | nil => exact List.forall_mem_nil _
  | cons s rest ih =>
    have hothers : ∀ segment ∈ ofBody rest, ∀ part ∈ segment.parts, part.From (s :: rest) :=
      fun segment hsegment part hpart => (ih segment hsegment part hpart).cons s
    have hchain : s.isConditional → ∀ part ∈ Part.merge :: s.chainParts, part.From (s :: rest) :=
      fun hs => List.forall_mem_cons.2
        ⟨trivial, fun part hpart => Part.from_of_mem_chainParts List.mem_cons_self hs hpart⟩
    cases s with
    | ifThen => exact List.forall_mem_cons.2 ⟨hchain rfl, hothers⟩
    | ifElse => exact List.forall_mem_cons.2 ⟨hchain rfl, hothers⟩
    | loop line test body =>
      refine List.forall_mem_cons.2 ⟨?_, hothers⟩
      have htest : (Part.decision test).From (.loop line test body :: rest) :=
        ⟨.loop line test body, List.mem_cons_self, rfl⟩
      exact List.forall_mem_cons.2 ⟨trivial, List.forall_mem_cons.2
        ⟨htest, List.forall_mem_singleton.2 trivial⟩⟩
    | exit line result =>
      exact List.forall_mem_singleton.2 (List.forall_mem_singleton.2
        ⟨.exit line result, List.mem_cons_self, rfl, rfl⟩)
    | _ => exact from_of_mem_prepend rfl ih

end Segment

theorem Part.from_of_mem {body : List Stmt} {part : Part}
    (h : part ∈ Segment.partsOf (Segment.ofBody body)) : part.From body := by
  rcases List.mem_append.1 h with h | h
  · obtain ⟨segment, hsegment, hpart⟩ := List.mem_flatMap.1 h
    exact Segment.from_of_mem_ofBody body segment hsegment part hpart
  · split at h
    · cases List.mem_singleton.1 h
      trivial
    · cases h

/-! ## The path -/

section

variable {line : Nat} {body : List Stmt} {visits : List Visit}

namespace Stmt.Walks

/-- What is no conditional is reached by executing it. -/
theorem reached_iff_step (h : Walks (.block line body) visits) {s : Stmt}
    (hs : s.isConditional = false) : Reached visits s ↔ .step s ∈ visits := by
  constructor
  · rintro (hstep | ⟨holds, htest⟩)
    · exact hstep
    · rw [(h.fits _ htest).2.1] at hs
      cases hs
  · exact .inl

/-- A statement is reached if and only if its test is evaluated, whoever has this test. -/
theorem reached_iff_evaluated (h : Walks (.block line body) visits) (hlayout : LaidOut body)
    {s : Stmt} (hs : s ∈ statementsOf body) {test : Expr} (htest : s.test? = some test) :
    Reached visits s ↔ ∃ t, t.test? = some test ∧ Reached visits t := by
  constructor
  · intro hreached
    exact ⟨s, htest, hreached⟩
  · rintro ⟨t, ht, hreached⟩
    have hmem := h.mem_of_reached hreached
    have hline : s.line = t.line := by
      rw [← hlayout.tests s hs test htest, ← hlayout.tests t hmem test ht]
    rw [hlayout.eq_of_line_eq hs hmem hline]
    exact hreached

/-- The first statement of a branch is reached if and only if the branch is entered. -/
theorem reached_iff_entered (h : Walks (.block line body) visits) (hlayout : LaidOut body)
    {s b first : Stmt} (hs : s ∈ body) (hkind : s.isConditional)
    (hb : .branch b ∈ s.chainParts) (hfirst : first ∈ b.branch.head?)
    (hblock : first.isBlock = false) (hmem : first ∈ b.statements) :
    Reached visits first ↔ ∃ link, .enter link b ∈ visits := by
  constructor
  · intro hreached
    -- nothing around `first` is passed over, or its line would be
    have hnot : ∀ {t}, first ∈ t.statements → .pass t ∉ visits := fun ht hpass =>
      h.line_not_mem_of_pass hlayout hreached hpass (line_mem_lines ht)
    rcases h.of_mem_body hs with hpass | ⟨visits', hsub, hwalks⟩
    · exact absurd hpass (hnot (statements_subset_of_mem_chainParts hb hmem))
    · rcases hwalks.entered_or_passed hkind hb with ⟨link, henter⟩ | hpass
      · exact ⟨link, hsub henter⟩
      · exact absurd (hsub hpass) (hnot hmem)
  · rintro ⟨link, henter⟩
    exact (h.fits _ henter).2.2 first hfirst hblock

end Stmt.Walks

/-- A part of the body is highlighted if and only if the run passes it. -/
theorem Part.lit_iff_onPath (h : Stmt.Walks (.block line body) visits)
    (hlayout : Stmt.LaidOut body) (hblocks : Stmt.blocksAreBodies body) {r : Classification}
    (hexecuted : ∀ n, n ∈ r.executed ↔ ∃ v ∈ visits, .executed n ∈ v.marks) {part : Part}
    (hpart : part.From body) : part.lit (some r) = true ↔ part.OnPath visits := by
  have hreached : ∀ {s}, s ∈ Stmt.statementsOf body →
      (onPath (some r) s.line = true ↔ Reached visits s) := by
    intro s hs
    rw [onPath, LineSet.contains_eq_true, hexecuted]
    exact h.executed_iff_reached hlayout hs
  obtain ⟨hplain, hevery⟩ := Bool.and_eq_true_iff.1 hblocks
  cases part with
  | run stmts =>
    obtain ⟨s, hs, hhead, hkind⟩ := hpart
    have hblock : s.isBlock = false := by simpa using List.all_eq_true.1 hplain s hs
    have hmem := Stmt.statements_subset_statementsOf hs (Stmt.self_mem_statements hblock)
    have hlit : (Part.run stmts).lit (some r) = onPath (some r) s.line := by
      rw [lit, hhead]
      rfl
    rw [hlit, hreached hmem, h.reached_iff_step hkind]
    constructor
    · intro hstep
      exact ⟨s, hhead, hstep⟩
    · rintro ⟨t, ht, hstep⟩
      exact Option.some.inj (hhead.symm.trans ht) ▸ hstep
  | decision test =>
    obtain ⟨s, hs, htest⟩ := hpart
    show onPath (some r) test.line = true ↔ _
    rw [hlayout.tests s hs test htest, hreached hs]
    exact h.reached_iff_evaluated hlayout hs htest
  | branch b =>
    obtain ⟨s, hs, hkind, hb⟩ := hpart
    have howns := Stmt.every_self (Stmt.every_of_mem_chainParts (Stmt.every_of_mem hevery hs) hb)
    obtain ⟨first, hfirst, hblock, hline, hmem⟩ := Stmt.exists_first howns
    have hbody := Stmt.statements_subset_statementsOf hs
      (Stmt.statements_subset_of_mem_chainParts hb hmem)
    show onPath (some r) b.firstLine = true ↔ _
    rw [hline, hreached hbody]
    exact h.reached_iff_entered hlayout hs hkind hb hfirst hblock hmem
  | inner b => exact ⟨fun hlit => absurd hlit Bool.false_ne_true, False.elim⟩
  | _ => exact ⟨fun _ => trivial, fun _ => rfl⟩

end

/-! ## Analyses -/

/-- Whether a node is the one of a part, whatever its identity and its label. -/
structure Node.Depicts (path : Option Classification) (node : Node) (part : Part) : Prop where
  shape_eq : node.shape = part.event.shape
  line_eq : node.line = part.event.line
  highlighted_eq : node.highlighted = part.lit path

theorem Node.Draws.depicts {path : Option Classification} {node : Node} {part : Part}
    (h : node.Draws path part) : node.Depicts path part :=
  ⟨congrArg Node.shape h, congrArg Node.line h, congrArg Node.highlighted h⟩

/-- Labels play no part in what the nodes depict. -/
theorem Graph.depicts_of_eraseLabels {graph graph' : Graph}
    (h : graph.eraseLabels = graph'.eraseLabels) {path : Option Classification}
    {parts : List Part} (hdepicts : List.Forall₂ (Node.Depicts path) graph.nodes parts) :
    List.Forall₂ (Node.Depicts path) graph'.nodes parts := by
  have hnodes : graph.nodes.map (fun node => { node with label := "" })
      = graph'.nodes.map (fun node => { node with label := "" }) := congrArg Graph.nodes h
  have herased : List.Forall₂ (Node.Depicts path)
      (graph.nodes.map fun node => { node with label := "" }) parts :=
    List.forall₂_map_left_iff.2 (hdepicts.imp fun _ _ hnode => ⟨hnode.1, hnode.2, hnode.3⟩)
  rw [hnodes, List.forall₂_map_left_iff] at herased
  exact herased.imp fun _ _ hnode => ⟨hnode.1, hnode.2, hnode.3⟩

namespace Program

variable {p : Program} {decl : FunctionDecl} {settings : Settings}

/-- The graph with labels from the source as it was written. -/
theorem exists_unfolded_graph (hsubstitute : p.substitute.fault = none)
    {path : Option Classification} {graph : Graph} (h : p.graph settings path = .ok graph) :
    ∃ plain, p.graph { settings with foldLabels := false } path = .ok plain ∧
      plain.eraseLabels = graph.eraseLabels := by
  obtain ⟨firstId, foldLabels, highlight⟩ := settings
  cases foldLabels with
  | false => exact ⟨graph, h, rfl⟩
  | true =>
    have hsame := eraseLabels_graph hsubstitute ⟨firstId, true, highlight⟩ path
    rw [h] at hsame
    exact map_eq_ok_iff.1 hsame.symm

/-- The nodes of an analysis are those of the parts of the body as it was written, also if
the labels show the folded source. -/
theorem depicts_of_analyze (hdecl : p.function? = some decl)
    (hhighlight : settings.highlight = true) {args : Arguments} {graph : Graph}
    (h : p.analyze settings args = .ok graph) :
    ∃ r, p.classify args = .ok r ∧ List.Forall₂ (Node.Depicts (some r)) graph.nodes
      (Segment.partsOf (Segment.ofBody decl.body)) := by
  obtain ⟨path, hpath, hgraph⟩ := bind_eq_ok_iff.1 h
  rw [Program.path, if_pos hhighlight] at hpath
  obtain ⟨r, hclassify, rfl⟩ := map_eq_ok_iff.1 hpath
  obtain ⟨hsubstitute, -⟩ := analyze_of_classify hdecl hclassify
  obtain ⟨plain, hplain, hlabels⟩ := exists_unfolded_graph hsubstitute hgraph
  have hbody : Graph.ofBody decl.body settings.firstId (some r) = .ok plain := by
    rw [← hplain, Program.graph, theFunction, hdecl]
    rfl
  have hdepicts := (Graph.draws_of_ofBody hbody).imp fun _ _ hdraws => hdraws.depicts
  exact ⟨r, hclassify, Graph.depicts_of_eraseLabels hlabels hdepicts⟩

end Program

/-- Whether a node stands for a part, and is highlighted if and only if the run passes the
part. -/
structure Node.Tells (visits : List Visit) (node : Node) (part : Part) : Prop where
  shape_eq : node.shape = part.event.shape
  line_eq : node.line = part.event.line
  highlighted_iff : node.highlighted = true ↔ part.OnPath visits

/-- Highlighting marks the path taken.  If blocks are only bodies, none of them is empty,
and the body is laid out with one statement per line, then an analysis that goes through
has one node for each part of the body, in order, and the highlighted ones are those of
the parts that the run passes: tests that are evaluated, branches that are selected,
statements of which the first is executed, and all points where paths meet. -/
theorem highlights_path {source : String} {p : Program} (hparse : Program.parse source = .ok p)
    {decl : FunctionDecl} (hdecl : p.function? = some decl) (hlayout : Stmt.LaidOut decl.body)
    (hblocks : Stmt.blocksAreBodies decl.body) {settings : Settings}
    (hhighlight : settings.highlight = true) {args : Arguments} {noted : Noted Graph}
    (h : analyze settings source args = .ok noted) :
    ∃ visits, decl.visits args = .ok visits ∧
      List.Forall₂ (Node.Tells visits) noted.value.nodes
        (Segment.partsOf (Segment.ofBody decl.body)) := by
  obtain ⟨program, hprogram, h⟩ := bind_eq_ok_iff.1 h
  cases hparse.symm.trans hprogram
  obtain ⟨graph, hgraph, hnoted⟩ := bind_eq_ok_iff.1 h
  cases hnoted
  obtain ⟨r, hclassify, hdepicts⟩ := Program.depicts_of_analyze hdecl hhighlight hgraph
  obtain ⟨visits, hvisits, hexecuted, -⟩ := Program.exists_visits hdecl hclassify
  have hwalks := FunctionDecl.walks_of_visits hvisits
  refine ⟨visits, hvisits, ?_⟩
  obtain ⟨hlength, hzip⟩ := List.forall₂_iff_zip.1 hdepicts
  refine List.forall₂_iff_zip.2 ⟨hlength, fun hmem => ?_⟩
  obtain ⟨hshape, hline, hlit⟩ := hzip hmem
  have hfrom := Part.from_of_mem (List.of_mem_zip hmem).2
  refine ⟨hshape, hline, ?_⟩
  rw [hlit]
  exact Part.lit_iff_onPath hwalks hlayout hblocks hexecuted hfrom

/-- A function with two branches and a loop. -/
private def branchesAndLoops : FunctionDecl where
  name := "f"
  params := ["x"]
  bodyLine := 1
  body :=
    [.ifElse 2 (.identifier 2 "x") (.block 2 [.expression 3 (.identifier 3 "x")])
       (.block 4 [.expression 5 (.unary 5 .not (.identifier 5 "x"))]),
     .loop 7 (.identifier 7 "x") (.block 7 [.expression 8 (.identifier 8 "x")])]

private def branchesAndLoopsSource : String :=
  "function f(x)\x7b\nif(x)\x7b\nx;\n\x7delse\x7b\n!x\n\x7d\nwhile(x)\x7b\nx\n\x7d\x7d"

private theorem parse_branchesAndLoops : Program.parse branchesAndLoopsSource
    = .ok ⟨[.function 1 "f" ["x"] 1 branchesAndLoops.body]⟩ := by
  have htokens : (tokenize branchesAndLoopsSource).toOption = some
      [⟨.keyword .functionWord, 1⟩, ⟨.identifier "f", 1⟩, ⟨.symbol .leftParen, 1⟩,
       ⟨.identifier "x", 1⟩, ⟨.symbol .rightParen, 1⟩, ⟨.symbol .leftBrace, 1⟩,
       ⟨.keyword .ifWord, 2⟩, ⟨.symbol .leftParen, 2⟩, ⟨.identifier "x", 2⟩,
       ⟨.symbol .rightParen, 2⟩, ⟨.symbol .leftBrace, 2⟩, ⟨.identifier "x", 3⟩,
       ⟨.symbol .semicolon, 3⟩, ⟨.symbol .rightBrace, 4⟩, ⟨.keyword .elseWord, 4⟩,
       ⟨.symbol .leftBrace, 4⟩, ⟨.symbol .bang, 5⟩, ⟨.identifier "x", 5⟩,
       ⟨.symbol .rightBrace, 6⟩, ⟨.keyword .whileWord, 7⟩, ⟨.symbol .leftParen, 7⟩,
       ⟨.identifier "x", 7⟩, ⟨.symbol .rightParen, 7⟩, ⟨.symbol .leftBrace, 7⟩,
       ⟨.identifier "x", 8⟩, ⟨.symbol .rightBrace, 9⟩, ⟨.symbol .rightBrace, 9⟩] := by
    decide +kernel
  exact Program.parse_of_tokenize htokens (by cbv)

theorem highlights_path_branchesAndLoops :
    Stmt.LaidOut branchesAndLoops.body ∧ Stmt.blocksAreBodies branchesAndLoops.body ∧
      ∃ noted visits,
        analyze { highlight := true, foldLabels := true } branchesAndLoopsSource
          (.ofPairs [("x", .bool true)]) = .ok noted ∧
        branchesAndLoops.visits (.ofPairs [("x", .bool true)]) = .ok visits ∧
        List.Forall₂ (Node.Tells visits) noted.value.nodes
          (Segment.partsOf (Segment.ofBody branchesAndLoops.body)) := by
  have hlayout : Stmt.LaidOut branchesAndLoops.body := by decide
  have hblocks : Stmt.blocksAreBodies branchesAndLoops.body := by decide
  have hanalyze : ∃ noted, analyze { highlight := true, foldLabels := true }
      branchesAndLoopsSource (.ofPairs [("x", .bool true)]) = .ok noted := by
    rw [analyze, parse_branchesAndLoops]
    exact ⟨_, rfl⟩
  obtain ⟨noted, hnoted⟩ := hanalyze
  obtain ⟨visits, hvisits, htells⟩ :=
    highlights_path parse_branchesAndLoops rfl hlayout hblocks rfl hnoted
  exact ⟨hlayout, hblocks, noted, visits, hnoted, hvisits, htells⟩

end TraceGraph
