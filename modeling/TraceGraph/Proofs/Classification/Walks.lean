import TraceGraph.Proofs.Classification.Visits

/-!
# What walks look like

`Stmt.Walks` forgets the environment of a walk and keeps which visits follow each other.
A function body is walked like a block.  What holds of every walk, whatever its tests
say, is proved here by induction on the walk.

* `FunctionDecl.walks_of_visits`: the visits of a function are a walk.
* `Stmt.Walks.flatMap_collect`: a walk comes by each statement once, in source order.
* `Stmt.Walks.fits`: each visit has the ones beside it that belong to it.  A branch is
  entered at a test and at its first statement, and a chain that is left drops its links.
* `Stmt.Walks.leaf`: outside of loops each statement without parts is executed or passed
  over.
-/

namespace TraceGraph

/-- The statement is executed, or its test is evaluated. -/
def Reached (visits : List Visit) (s : Stmt) : Prop :=
  .step s ∈ visits ∨ ∃ holds, .test s holds ∈ visits

theorem Reached.mono {visits visits' : List Visit} {s : Stmt} (h : Reached visits s)
    (hsub : visits ⊆ visits') : Reached visits' s := by
  rcases h with h | ⟨holds, h⟩
  · exact .inl (hsub h)
  · exact .inr ⟨holds, hsub h⟩

namespace Stmt

/-- The visits of a walk over a statement. -/
inductive Walks : Stmt → List Visit → Prop where
  | step {s : Stmt} (h : s.isStep) : Walks s [.step s]
  | nil (line : Nat) : Walks (.block line []) []
  | cons {line : Nat} {s : Stmt} {rest : List Stmt} {visits visits' : List Visit}
      (first : Walks s visits) (others : Walks (.block line rest) visits') :
      Walks (.block line (s :: rest)) (visits ++ visits')
  | returned (line : Nat) {s : Stmt} (rest : List Stmt) {visits : List Visit}
      (first : Walks s visits) : Walks (.block line (s :: rest)) (visits ++ rest.map .pass)
  | thenHolds (line : Nat) (test : Expr) {consequent : Stmt} {visits : List Visit}
      (taken : Walks consequent visits) :
      Walks (.ifThen line test consequent)
        (.test (.ifThen line test consequent) true ::
          .enter (.ifThen line test consequent) consequent :: visits)
  | thenFails (line : Nat) (test : Expr) (consequent : Stmt) :
      Walks (.ifThen line test consequent)
        [.test (.ifThen line test consequent) false, .pass consequent]
  | elseHolds (line : Nat) (test : Expr) {consequent : Stmt} (alternate : Stmt)
      {visits : List Visit} (taken : Walks consequent visits) :
      Walks (.ifElse line test consequent alternate)
        (.test (.ifElse line test consequent alternate) true ::
          .enter (.ifElse line test consequent alternate) consequent ::
            (visits ++ alternate.leaveChain))
  | elseFails (line : Nat) (test : Expr) (consequent : Stmt) {alternate : Stmt}
      {visits : List Visit} (taken : Walks alternate visits) :
      Walks (.ifElse line test consequent alternate)
        (.test (.ifElse line test consequent alternate) false :: .pass consequent ::
          (enterElse (.ifElse line test consequent alternate) alternate ++ visits))

/-! ## Runs are walks -/

private theorem walks_of_walkPlain {s : Stmt} {env : Env} {w : Walk} (hs : s.isStep)
    (h : walkPlain s env = .ok w) : Walks s w.visits := by
  rw [walkPlain] at h
  split at h
  · cases h
  · cases h
    exact .step hs

mutual

theorem walks_of_walk : (s : Stmt) → {env : Env} → {w : Walk} → walk s env = .ok w →
    Walks s w.visits
  | .ifThen line test consequent, env, w, h => by
    rw [walk] at h
    obtain ⟨value, -, h⟩ := bind_eq_ok_iff.1 h
    obtain ⟨holds, -, h⟩ := bind_eq_ok_iff.1 h
    cases holds with
    | false =>
      cases h
      exact .thenFails line test consequent
    | true =>
      obtain ⟨taken, htaken, h⟩ := bind_eq_ok_iff.1 h
      cases h
      exact .thenHolds line test (walks_of_walk consequent htaken)
  | .ifElse line test consequent alternate, env, w, h => by
    rw [walk] at h
    obtain ⟨value, -, h⟩ := bind_eq_ok_iff.1 h
    obtain ⟨holds, -, h⟩ := bind_eq_ok_iff.1 h
    cases holds with
    | false =>
      obtain ⟨taken, htaken, h⟩ := bind_eq_ok_iff.1 h
      cases h
      exact .elseFails line test consequent (walks_of_walk alternate htaken)
    | true =>
      obtain ⟨taken, htaken, h⟩ := bind_eq_ok_iff.1 h
      cases h
      exact .elseHolds line test alternate (walks_of_walk consequent htaken)
  | .block line body, _, _, h => walks_of_walkAll line body h
  | .loop .., _, _, h => by
    cases h
    exact .step rfl
  | .exit .., _, _, h => by
    cases h
    exact .step rfl
  | .function .., _, _, h => by cases h
  | .expression .., _, _, h => walks_of_walkPlain rfl h
  | .declare .., _, _, h => walks_of_walkPlain rfl h

theorem walks_of_walkAll (line : Nat) : (body : List Stmt) → {env : Env} → {w : Walk} →
    walkAll body env = .ok w → Walks (.block line body) w.visits
  | [], env, w, h => by
    cases h
    exact .nil line
  | s :: rest, env, w, h => by
    rw [walkAll] at h
    obtain ⟨first, hfirst, h⟩ := bind_eq_ok_iff.1 h
    have hwalks := walks_of_walk s hfirst
    cases hreturned : first.returned with
    | true =>
      rw [hreturned] at h
      cases h
      exact .returned line rest hwalks
    | false =>
      rw [hreturned] at h
      obtain ⟨others, hothers, h⟩ := bind_eq_ok_iff.1 h
      cases h
      exact .cons hwalks (walks_of_walkAll line rest hothers)

end

end Stmt

/-- The visits of a function are a walk over its body. -/
theorem FunctionDecl.walks_of_visits {decl : FunctionDecl} {args : Arguments}
    {visits : List Visit} (h : decl.visits args = .ok visits) :
    Stmt.Walks (.block decl.bodyLine decl.body) visits := by
  obtain ⟨env, -, h⟩ := bind_eq_ok_iff.1 h
  obtain ⟨walk, hwalk, h⟩ := bind_eq_ok_iff.1 h
  cases h
  exact Stmt.walks_of_walkAll decl.bodyLine decl.body hwalk

/-! ## Collecting -/

/-- Something is collected from a statement by taking what its parts give one after the
other.  A conditional gives something of its own before its branches. -/
structure Stmt.Collects {α : Type} (head all : Stmt → List α) : Prop where
  nil : ∀ line, all (.block line []) = []
  cons : ∀ line s rest, all (.block line (s :: rest)) = all s ++ all (.block line rest)
  ifThen : ∀ line test consequent, all (.ifThen line test consequent)
    = head (.ifThen line test consequent) ++ all consequent
  ifElse : ∀ line test consequent alternate, all (.ifElse line test consequent alternate)
    = head (.ifElse line test consequent alternate) ++ (all consequent ++ all alternate)

/-- What is collected at one visit. -/
def Visit.collect {α : Type} (head all : Stmt → List α) : Visit → List α
  | .test link _ | .drop link => head link
  | .enter _ _ => []
  | .step s | .pass s => all s

/-- The lines of the statements that a visit is about.  Entering a branch is only about
what is in the branch. -/
def Visit.own : Visit → List Nat :=
  collect (fun link => [link.line]) Stmt.lines

namespace Stmt

theorem collects_lines : Collects (fun link => [link.line]) lines :=
  ⟨fun _ => rfl, fun _ _ _ => rfl, fun _ _ _ => rfl, fun _ _ _ _ => rfl⟩

theorem collects_leaves : Collects (fun _ => []) leaves :=
  ⟨fun _ => rfl, fun _ _ _ => rfl, fun _ _ _ => rfl, fun _ _ _ _ => rfl⟩

section

variable {α : Type} {head all : Stmt → List α}

theorem Collects.leaveChain (hall : Collects head all) (s : Stmt) :
    s.leaveChain.flatMap (Visit.collect head all) = all s := by
  induction s using chain_induction with
  | ifThen line test consequent =>
    show head _ ++ (all consequent ++ []) = _
    rw [hall.ifThen, List.append_nil]
  | ifElse line test consequent alternate ih =>
    show head _ ++ (all consequent ++ alternate.leaveChain.flatMap _) = _
    rw [hall.ifElse, ih]
  | otherwise s hs =>
    rw [leaveChain_otherwise hs]
    exact List.append_nil _

private theorem Collects.enterElse (link alternate : Stmt) :
    (enterElse link alternate).flatMap (Visit.collect head all) = [] := by
  rw [Stmt.enterElse]
  split <;> rfl

private theorem Collects.pass (hall : Collects head all) (line : Nat) (body : List Stmt) :
    (body.map Visit.pass).flatMap (Visit.collect head all) = all (.block line body) := by
  induction body with
  | nil => exact (hall.nil line).symm
  | cons s rest ih =>
    show all s ++ (rest.map Visit.pass).flatMap _ = _
    rw [hall.cons, ih]

/-- A walk collects everything, in source order and each thing once. -/
theorem Walks.flatMap_collect {s : Stmt} {visits : List Visit} (h : Walks s visits)
    (hall : Collects head all) : visits.flatMap (Visit.collect head all) = all s := by
  induction h with
  | step => exact List.append_nil _
  | nil line => exact (hall.nil line).symm
  | cons _ _ ihfirst ihothers => rw [List.flatMap_append, ihfirst, ihothers, hall.cons]
  | returned line rest _ ih =>
    rw [List.flatMap_append, ih, Collects.pass hall line, hall.cons]
  | @thenHolds line test consequent visits _ ih =>
    show head _ ++ visits.flatMap _ = _
    rw [hall.ifThen, ih]
  | thenFails line test consequent =>
    show head _ ++ (all consequent ++ []) = _
    rw [hall.ifThen, List.append_nil]
  | elseHolds line test alternate _ ih =>
    show head _ ++ (_ ++ alternate.leaveChain).flatMap _ = _
    rw [List.flatMap_append, ih, hall.leaveChain, hall.ifElse]
  | elseFails line test consequent _ ih =>
    show head _ ++ (all consequent ++ (enterElse _ _ ++ _).flatMap _) = _
    rw [List.flatMap_append, Collects.enterElse, ih, hall.ifElse]
    rfl

end

/-! ## Visits that belong together -/

end Stmt

/-- What else is visited because of a visit, and which statements it can be about.  A test
that holds drops the links after it, and a branch is entered at a test and walked from
its first statement on. -/
def Visit.Fits (within : List Stmt) (visits : List Visit) : Visit → Prop
  | .test link holds => link ∈ within ∧ link.isConditional ∧
      (holds = true → ∀ next ∈ link.links.tail, .drop next ∈ visits)
  | .enter link branch => branch ∈ link.branches ∧ (∃ holds, .test link holds ∈ visits) ∧
      ∀ first ∈ branch.branch.head?, first.isBlock = false → Reached visits first
  | .step s => s ∈ within ∧ s.isStep
  | .pass _ => True
  | .drop link => link ∈ within

theorem Visit.Fits.mono {within within' : List Stmt} {visits visits' : List Visit} {v : Visit}
    (h : v.Fits within visits) (hwithin : within ⊆ within') (hvisits : visits ⊆ visits') :
    v.Fits within' visits' := by
  cases v with
  | test link holds =>
    obtain ⟨hlink, hkind, hdrop⟩ := h
    exact ⟨hwithin hlink, hkind, fun hholds next hnext => hvisits (hdrop hholds next hnext)⟩
  | enter link branch =>
    obtain ⟨hbranch, ⟨holds, htest⟩, hfirst⟩ := h
    exact ⟨hbranch, ⟨holds, hvisits htest⟩, fun first hmem hblock =>
      (hfirst first hmem hblock).mono hvisits⟩
  | step s => exact ⟨hwithin h.1, h.2⟩
  | pass => trivial
  | drop => exact hwithin h

namespace Stmt

theorem fits_leaveChain (s : Stmt) (visits : List Visit) :
    ∀ v ∈ s.leaveChain, v.Fits s.statements visits := by
  induction s using chain_induction with
  | ifThen line test consequent =>
    simp [leaveChain, Visit.Fits, statements]
  | ifElse line test consequent alternate ih =>
    have hsub : alternate.statements ⊆ (ifElse line test consequent alternate).statements :=
      List.subset_cons_of_subset _ (List.subset_append_right _ _)
    refine List.forall_mem_cons.2 ⟨List.mem_cons_self, List.forall_mem_cons.2 ⟨trivial, ?_⟩⟩
    exact fun v hv => (ih v hv).mono hsub (List.Subset.refl _)
  | otherwise s hs =>
    rw [leaveChain_otherwise hs]
    exact List.forall_mem_singleton.2 trivial

theorem drop_mem_leaveChain {s next : Stmt} (h : next ∈ s.links) : .drop next ∈ s.leaveChain := by
  induction s using chain_induction with
  | ifThen line test consequent =>
    cases List.mem_singleton.1 h
    exact List.mem_cons_self
  | ifElse line test consequent alternate ih =>
    rcases List.mem_cons.1 h with rfl | h
    · exact List.mem_cons_self
    · exact List.mem_cons_of_mem _ (List.mem_cons_of_mem _ (ih h))
  | otherwise s hs =>
    cases s with
    | ifThen => cases hs
    | ifElse => cases hs
    | _ => cases h

theorem isBlock_of_isStep {s : Stmt} (h : s.isStep) : s.isBlock = false := by
  cases s with
  | block => cases h
  | _ => rfl

theorem branch_eq_self {s : Stmt} (h : s.isBlock = false) : s.branch = [s] := by
  cases s with
  | block => cases h
  | _ => rfl

theorem eq_of_mem_leaves {s t : Stmt} (hs : s.isStep) (ht : t ∈ s.leaves) : t = s := by
  cases s with
  | loop => cases ht
  | expression | declare | exit => exact List.mem_singleton.1 ht
  | _ => cases hs

theorem eq_enter_of_mem_enterElse {link alternate : Stmt} {v : Visit}
    (h : v ∈ enterElse link alternate) : v = .enter link alternate := by
  rw [enterElse] at h
  split at h
  · cases h
  · exact List.mem_singleton.1 h

private theorem subset_cons_cons (v v' : Visit) (visits : List Visit) :
    visits ⊆ v :: v' :: visits :=
  List.subset_cons_of_subset _ (List.subset_cons_self _ _)

namespace Walks

variable {s : Stmt} {visits : List Visit}

theorem reached (h : Walks s visits) (hs : s.isBlock = false) : Reached visits s := by
  cases h with
  | step => exact .inl List.mem_cons_self
  | nil => cases hs
  | cons => cases hs
  | returned => cases hs
  | _ => exact .inr ⟨_, List.mem_cons_self⟩

/-- A walk over a body starts with its first statement. -/
theorem reached_first (h : Walks s visits) {first : Stmt} (hfirst : first ∈ s.branch.head?)
    (hblock : first.isBlock = false) : Reached visits first := by
  cases hs : s.isBlock with
  | false =>
    rw [branch_eq_self hs] at hfirst
    cases hfirst
    exact h.reached hblock
  | true =>
    cases h with
    | step hstep =>
      rw [isBlock_of_isStep hstep] at hs
      cases hs
    | nil => cases hfirst
    | cons hwalk _ =>
      cases hfirst
      exact (hwalk.reached hblock).mono (List.subset_append_left _ _)
    | returned _ _ hwalk =>
      cases hfirst
      exact (hwalk.reached hblock).mono (List.subset_append_left _ _)
    | _ => cases hs

/-- Each visit of a walk has the ones beside it that belong to it. -/
theorem fits (h : Walks s visits) : ∀ v ∈ visits, v.Fits s.statements visits := by
  induction h with
  | step hstep =>
    exact List.forall_mem_singleton.2 ⟨self_mem_statements (isBlock_of_isStep hstep), hstep⟩
  | nil => exact List.forall_mem_nil _
  | cons _ _ ihfirst ihothers =>
    refine List.forall_mem_append.2 ⟨fun v hv => ?_, fun v hv => ?_⟩
    · exact (ihfirst v hv).mono (List.subset_append_left _ _) (List.subset_append_left _ _)
    · exact (ihothers v hv).mono (List.subset_append_right _ _) (List.subset_append_right _ _)
  | returned line rest _ ih =>
    refine List.forall_mem_append.2 ⟨fun v hv => ?_, fun v hv => ?_⟩
    · exact (ih v hv).mono (List.subset_append_left _ _) (List.subset_append_left _ _)
    · -- nothing is asked of what is passed over
      obtain ⟨t, -, rfl⟩ := List.mem_map.1 hv
      trivial
  | thenHolds line test taken ih =>
    refine List.forall_mem_cons.2 ⟨⟨List.mem_cons_self, rfl, fun _ _ hnext => nomatch hnext⟩,
      List.forall_mem_cons.2 ⟨⟨List.mem_cons_self, ⟨true, List.mem_cons_self⟩, ?_⟩, ?_⟩⟩
    · exact fun first hfirst hblock =>
        (taken.reached_first hfirst hblock).mono (subset_cons_cons _ _ _)
    · exact fun v hv => (ih v hv).mono (List.subset_cons_self _ _) (subset_cons_cons _ _ _)
  | thenFails line test consequent =>
    exact List.forall_mem_cons.2 ⟨⟨List.mem_cons_self, rfl, fun h => nomatch h⟩,
      List.forall_mem_singleton.2 trivial⟩
  | @elseHolds line test consequent alternate visits taken ih =>
    have hvisits : ∀ v v', visits ⊆ v :: v' :: (visits ++ alternate.leaveChain) := fun v v' =>
      List.Subset.trans (List.subset_append_left _ _) (subset_cons_cons v v' _)
    refine List.forall_mem_cons.2 ⟨⟨List.mem_cons_self, rfl, fun _ next hnext => ?_⟩,
      List.forall_mem_cons.2 ⟨⟨List.mem_cons_self, ⟨true, List.mem_cons_self⟩, ?_⟩,
        List.forall_mem_append.2 ⟨?_, ?_⟩⟩⟩
    · exact subset_cons_cons _ _ _ (List.mem_append_right _ (drop_mem_leaveChain hnext))
    · exact fun first hfirst hblock => (taken.reached_first hfirst hblock).mono (hvisits _ _)
    · exact fun v hv => (ih v hv).mono
        (List.subset_cons_of_subset _ (List.subset_append_left _ _)) (hvisits _ _)
    · exact fun v hv => (fits_leaveChain alternate _ v hv).mono
        (List.subset_cons_of_subset _ (List.subset_append_right _ _)) (List.Subset.refl _)
  | @elseFails line test consequent alternate visits taken ih =>
    have hvisits : ∀ v v' entered, visits ⊆ v :: v' :: (entered ++ visits) := fun v v' entered =>
      List.Subset.trans (List.subset_append_right entered _) (subset_cons_cons v v' _)
    refine List.forall_mem_cons.2 ⟨⟨List.mem_cons_self, rfl, fun h => nomatch h⟩,
      List.forall_mem_cons.2 ⟨trivial, List.forall_mem_append.2 ⟨fun v hv => ?_, fun v hv => ?_⟩⟩⟩
    · obtain rfl := eq_enter_of_mem_enterElse hv
      exact ⟨List.mem_cons_of_mem _ List.mem_cons_self, ⟨false, List.mem_cons_self⟩,
        fun first hfirst hblock => (taken.reached_first hfirst hblock).mono (hvisits _ _ _)⟩
    · exact (ih v hv).mono
        (List.subset_cons_of_subset _ (List.subset_append_right _ _)) (hvisits _ _ _)

/-! ## Nothing is left out -/

/-- Outside of loops each statement without parts is executed or passed over. -/
theorem leaf (h : Walks s visits) {t : Stmt} (ht : t ∈ s.leaves) :
    .step t ∈ visits ∨ ∃ passed, .pass passed ∈ visits ∧ t ∈ passed.leaves := by
  rw [← h.flatMap_collect collects_leaves] at ht
  obtain ⟨v, hv, ht⟩ := List.mem_flatMap.1 ht
  cases v with
  | step step =>
    obtain ⟨-, hstep⟩ := h.fits _ hv
    rw [eq_of_mem_leaves hstep ht]
    exact .inl hv
  | pass passed => exact .inr ⟨passed, hv, ht⟩
  | _ => cases ht

end Walks

end Stmt

end TraceGraph
