import Mathlib.Data.List.Pairwise
import TraceGraph.Proofs.Classification.Walks

/-!
# Every statement is accounted for

Outside of loops no statement goes without a mark, and where a body is laid out with one
statement per line, the marks tell exactly what the run did.

* `Stmt.Walks.eq_of_mem_own`: a line then belongs to one visit.
* `Stmt.Walks.executed_iff_reached`: the line of a statement is executed if and only if
  the run reaches the statement.
* `Program.classify_accounts`: which lines are executed, skipped, both or neither.
-/

namespace TraceGraph

/-! ## Marks -/

namespace Visit

theorem executed_mem_marks_test {link : Stmt} {holds : Bool} {n : Nat} :
    .executed n ∈ (test link holds).marks ↔ n = link.entryLine := by
  cases holds <;> cases link <;> simp [marks, Stmt.entryLine, Stmt.test?]

/-- A skipped line is that of a conditional without alternative whose test fails, or lies in
a statement that is passed over. -/
theorem skipped_mem_marks {v : Visit} {n : Nat} :
    .skipped n ∈ v.marks ↔
      (∃ condition consequent, v = .test (.ifThen n condition consequent) false) ∨
      ∃ s, v = .pass s ∧ n ∈ s.lines := by
  cases v with
  | test link holds => cases holds <;> cases link <;> simp [marks, eq_comm]
  | pass s => simp [marks, Stmt.skip]
  | _ => simp [marks]

theorem mem_own_of_skipped {v : Visit} {n : Nat} (h : .skipped n ∈ v.marks) : n ∈ v.own := by
  rcases skipped_mem_marks.1 h with ⟨condition, consequent, rfl⟩ | ⟨s, rfl, hn⟩
  · exact List.mem_cons_self
  · exact hn

/-- The visit executes a statement or evaluates a test. -/
def runs : Visit → Bool
  | .test .. | .step .. => true
  | .enter .. | .pass .. | .drop .. => false

end Visit

/-! ## One statement per line -/

namespace Stmt.Walks

variable {line : Nat} {body : List Stmt} {visits : List Visit}

theorem mem_of_reached (h : Walks (.block line body) visits) {s : Stmt} (hs : Reached visits s) :
    s ∈ statementsOf body := by
  rcases hs with hs | ⟨holds, hs⟩
  · exact (h.fits _ hs).1
  · exact (h.fits _ hs).1

/-- A statement that is reached has its line from a visit that runs. -/
theorem own_of_reached (h : Walks (.block line body) visits) {s : Stmt} (hs : Reached visits s) :
    ∃ v ∈ visits, v.runs ∧ s.line ∈ v.own := by
  rcases hs with hs | ⟨holds, hs⟩
  · have hblock := isBlock_of_isStep (h.fits _ hs).2
    exact ⟨_, hs, rfl, line_mem_lines (self_mem_statements hblock)⟩
  · exact ⟨_, hs, rfl, List.mem_cons_self⟩

/-- A line belongs to one visit. -/
theorem eq_of_mem_own (h : Walks (.block line body) visits) (hlayout : LaidOut body)
    {v u : Visit} (hv : v ∈ visits) (hu : u ∈ visits) {n : Nat} (hnv : n ∈ v.own)
    (hnu : n ∈ u.own) : v = u := by
  by_contra hne
  have hnodup : (visits.flatMap Visit.own).Nodup := by
    rw [Visit.own, h.flatMap_collect collects_lines]
    exact hlayout.distinct
  have hsymm : Std.Symm (Function.onFun List.Disjoint Visit.own) :=
    ⟨fun _ _ hdisjoint => List.disjoint_symm hdisjoint⟩
  exact (List.nodup_flatMap.1 hnodup).2.forall hv hu hne hnv hnu

/-- The line of a statement is executed if and only if the run reaches the statement. -/
theorem executed_iff_reached (h : Walks (.block line body) visits) (hlayout : LaidOut body)
    {s : Stmt} (hs : s ∈ statementsOf body) :
    (∃ v ∈ visits, .executed s.line ∈ v.marks) ↔ Reached visits s := by
  constructor
  · rintro ⟨v, hv, hmark⟩
    have hfits := h.fits v hv
    cases v with
    | test link holds =>
      have hline := Visit.executed_mem_marks_test.1 hmark
      rw [hlayout.entryLine_eq hfits.1] at hline
      obtain rfl := hlayout.eq_of_line_eq hs hfits.1 hline
      exact .inr ⟨holds, hv⟩
    | step t =>
      have hline : s.line = t.entryLine := LineMark.executed.inj (List.mem_singleton.1 hmark)
      rw [hlayout.entryLine_eq hfits.1] at hline
      obtain rfl := hlayout.eq_of_line_eq hs hfits.1 hline
      exact .inl hv
    | enter link branch =>
      obtain ⟨hbranch, ⟨holds, htest⟩, hfirst⟩ := hfits
      have hline : s.line = branch.line := LineMark.executed.inj (List.mem_singleton.1 hmark)
      cases hblock : branch.isBlock with
      | true =>
        -- where the block opens no statement starts but the conditional
        have hlink : link ∈ statementsOf body := (h.fits _ htest).1
        have hbrace := hlayout.braces link hlink branch hbranch hblock
          (hline ▸ line_mem_linesOf hs)
        obtain rfl := hlayout.eq_of_line_eq hs hlink (hline.trans hbrace)
        exact .inr ⟨holds, htest⟩
      | false =>
        have hreached : Reached visits branch := by
          refine hfirst branch ?_ hblock
          rw [branch_eq_self hblock]
          rfl
        obtain rfl := hlayout.eq_of_line_eq hs (h.mem_of_reached hreached) hline
        exact hreached
    | pass t => simp [Visit.marks, skip] at hmark
    | drop link => cases hmark
  · intro hreached
    have hline := hlayout.entryLine_eq (h.mem_of_reached hreached)
    rcases hreached with hstep | ⟨holds, htest⟩
    · exact ⟨_, hstep, List.mem_singleton.2 (congrArg LineMark.executed hline.symm)⟩
    · exact ⟨_, htest, Visit.executed_mem_marks_test.2 hline.symm⟩

/-- What is reached is not passed over. -/
theorem line_not_mem_of_pass (h : Walks (.block line body) visits) (hlayout : LaidOut body)
    {s t : Stmt} (hs : Reached visits s) (ht : .pass t ∈ visits) : s.line ∉ t.lines := by
  intro hline
  obtain ⟨v, hv, hruns, hown⟩ := h.own_of_reached hs
  rw [h.eq_of_mem_own hlayout hv ht hown hline] at hruns
  cases hruns

/-- A line is executed and skipped if and only if it is that of a conditional without
alternative whose test fails. -/
theorem executed_and_skipped (h : Walks (.block line body) visits) (hlayout : LaidOut body)
    (n : Nat) :
    ((∃ v ∈ visits, .executed n ∈ v.marks) ∧ ∃ v ∈ visits, .skipped n ∈ v.marks) ↔
      ∃ condition consequent, .test (.ifThen n condition consequent) false ∈ visits := by
  constructor
  · rintro ⟨hexecuted, u, hu, hskipped⟩
    rcases Visit.skipped_mem_marks.1 hskipped with ⟨condition, consequent, rfl⟩ | ⟨t, rfl, hn⟩
    · exact ⟨condition, consequent, hu⟩
    · have hmem : n ∈ (Stmt.block line body).lines := by
        rw [← h.flatMap_collect collects_lines]
        exact List.mem_flatMap.2 ⟨_, hu, hn⟩
      obtain ⟨s, hs, rfl⟩ := mem_linesOf.1 hmem
      have hreached := (h.executed_iff_reached hlayout hs).1 hexecuted
      exact absurd hn (h.line_not_mem_of_pass hlayout hreached hu)
  · rintro ⟨condition, consequent, htest⟩
    have hs : Reached visits (.ifThen n condition consequent) := .inr ⟨false, htest⟩
    exact ⟨(h.executed_iff_reached hlayout (h.mem_of_reached hs)).2 hs, _, htest,
      List.mem_cons_of_mem _ List.mem_cons_self⟩

/-- A link that is dropped is neither executed nor skipped. -/
theorem dropped (h : Walks (.block line body) visits) (hlayout : LaidOut body) {link : Stmt}
    (hdrop : .drop link ∈ visits) :
    (¬ ∃ v ∈ visits, .executed link.line ∈ v.marks) ∧
      ¬ ∃ v ∈ visits, .skipped link.line ∈ v.marks := by
  have hown : link.line ∈ (Visit.drop link).own := List.mem_cons_self
  constructor
  · intro hexecuted
    have hlink : link ∈ statementsOf body := h.fits _ hdrop
    obtain ⟨v, hv, hruns, hline⟩ :=
      h.own_of_reached ((h.executed_iff_reached hlayout hlink).1 hexecuted)
    rw [h.eq_of_mem_own hlayout hv hdrop hline hown] at hruns
    cases hruns
  · rintro ⟨v, hv, hskipped⟩
    rw [h.eq_of_mem_own hlayout hv hdrop (Visit.mem_own_of_skipped hskipped) hown] at hskipped
    cases hskipped

/-- Outside of loops the line of a statement without parts is executed or skipped. -/
theorem leaf_marked {s t : Stmt} (h : Walks s visits) (ht : t ∈ s.leaves) :
    (∃ v ∈ visits, .executed t.line ∈ v.marks) ∨ ∃ v ∈ visits, .skipped t.line ∈ v.marks := by
  rcases h.leaf ht with hstep | ⟨passed, hpass, hleaf⟩
  · refine .inl ⟨_, hstep, List.mem_singleton.2 (congrArg LineMark.executed ?_)⟩
    rw [entryLine_of_not_test? (of_mem_leaves s ht).2]
  · have hline := line_mem_lines (of_mem_leaves passed hleaf).1
    exact .inr ⟨_, hpass, Visit.skipped_mem_marks.2 (.inr ⟨passed, rfl, hline⟩)⟩

/-- With one statement per line it is not both. -/
theorem leaf_not_both (h : Walks (.block line body) visits) (hlayout : LaidOut body) {t : Stmt}
    (ht : t ∈ leavesOf body) :
    ¬ ((∃ v ∈ visits, .executed t.line ∈ v.marks) ∧ ∃ v ∈ visits, .skipped t.line ∈ v.marks) := by
  intro hboth
  obtain ⟨condition, consequent, htest⟩ := (h.executed_and_skipped hlayout t.line).1 hboth
  obtain ⟨hmem, hnotest⟩ := of_mem_leavesOf body ht
  rw [hlayout.eq_of_line_eq hmem (h.fits _ htest).1 rfl] at hnotest
  cases hnotest

end Stmt.Walks

/-! ## Programs -/

/-- Every statement is accounted for.  When a function is classified, the line of every
expression, declaration and return outside of loops is executed or skipped.  If the body
is laid out with one statement per line, such a line is in exactly one of the two sets.
The lines in both are those of the conditionals without alternative whose test the run
finds to fail, and once the test of a link holds, the lines of the links that come after
it in its chain are in neither. -/
theorem Program.classify_accounts {p : Program} {decl : FunctionDecl}
    (hdecl : p.function? = some decl) {args : Arguments} {r : Classification}
    (hclassify : p.classify args = .ok r) :
    (∀ s ∈ Stmt.leavesOf decl.body, s.line ∈ r.executed ∨ s.line ∈ r.skipped) ∧
    (Stmt.LaidOut decl.body → ∃ visits, decl.visits args = .ok visits ∧
      (∀ s ∈ Stmt.leavesOf decl.body, s.line ∈ r.executed ↔ s.line ∉ r.skipped) ∧
      (∀ n, n ∈ r.executed ∧ n ∈ r.skipped ↔
        ∃ condition consequent, .test (.ifThen n condition consequent) false ∈ visits) ∧
      ∀ link, .test link true ∈ visits → ∀ next ∈ link.links.tail,
        next.line ∉ r.executed ∧ next.line ∉ r.skipped) := by
  obtain ⟨visits, hvisits, hexecuted, hskipped⟩ := exists_visits hdecl hclassify
  have hwalks := FunctionDecl.walks_of_visits hvisits
  have hmarked : ∀ s ∈ Stmt.leavesOf decl.body, s.line ∈ r.executed ∨ s.line ∈ r.skipped := by
    intro s hs
    rw [hexecuted, hskipped]
    exact hwalks.leaf_marked hs
  refine ⟨hmarked, fun hlayout => ⟨visits, hvisits, fun s hs => ?_, fun n => ?_,
    fun link htest next hnext => ?_⟩⟩
  · have hnot := hwalks.leaf_not_both hlayout hs
    rw [← hexecuted, ← hskipped] at hnot
    exact ⟨fun h h' => hnot ⟨h, h'⟩, (hmarked s hs).resolve_right⟩
  · rw [hexecuted, hskipped]
    exact hwalks.executed_and_skipped hlayout n
  · rw [hexecuted, hskipped]
    obtain ⟨-, -, hdrop⟩ := hwalks.fits _ htest
    exact hwalks.dropped hlayout (hdrop rfl next hnext)

/-- A function with a conditional that fails, a chain whose first branch returns, and a
loop after it. -/
private def leavesChain : FunctionDecl where
  name := "f"
  params := ["x"]
  bodyLine := 1
  body :=
    [.ifThen 2 (.unary 2 .not (.identifier 2 "x")) (.block 2 [.exit 3 none]),
     .ifElse 5 (.identifier 5 "x") (.block 5 [.exit 6 (some (.identifier 6 "x"))])
       (.ifElse 7 (.literal 7 (.bool true)) (.block 7 [.expression 8 (.identifier 8 "x")])
         (.block 9 [.expression 10 (.identifier 10 "x")])),
     .loop 12 (.identifier 12 "x") (.block 12 [.expression 13 (.identifier 13 "x")])]

theorem Program.classify_accounts_leavesChain :
    Stmt.LaidOut leavesChain.body ∧ ∃ r,
      Program.classify ⟨[.function 1 "f" ["x"] 1 leavesChain.body]⟩
        (.ofPairs [("x", .bool true)]) = .ok r ∧
      (3 ∈ r.executed ↔ 3 ∉ r.skipped) ∧ (2 ∈ r.executed ∧ 2 ∈ r.skipped) ∧
      7 ∉ r.executed ∧ 7 ∉ r.skipped := by
  have hlayout : Stmt.LaidOut leavesChain.body := by decide
  have hclassify : ∃ r, Program.classify ⟨[.function 1 "f" ["x"] 1 leavesChain.body]⟩
      (.ofPairs [("x", .bool true)]) = .ok r := ⟨_, rfl⟩
  have hdecl : Program.function? ⟨[.function 1 "f" ["x"] 1 leavesChain.body]⟩ = some leavesChain :=
    rfl
  obtain ⟨r, hr⟩ := hclassify
  obtain ⟨visits, hvisits, hleaf, hboth, hneither⟩ :=
    (Program.classify_accounts hdecl hr).2 hlayout
  cases hvisits
  refine ⟨hlayout, r, hr, hleaf (.exit 3 none) List.mem_cons_self,
    (hboth 2).2 ⟨_, _, List.mem_cons_self⟩, ?_⟩
  exact hneither _ (List.mem_cons_of_mem _ (List.mem_cons_of_mem _ List.mem_cons_self)) _
    List.mem_cons_self

end TraceGraph
