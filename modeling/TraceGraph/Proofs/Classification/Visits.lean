import TraceGraph.Proofs.Classification.OnePass
import TraceGraph.Proofs.Graph.Segmenting
import TraceGraph.Proofs.Stmt.Layout

/-!
# What a run does to each statement

The marks of a run are lines, and a line does not tell who left it.  `Stmt.walk` is the
same run once more, and keeps what happens to the statements: which tests are
evaluated and with which outcome, which branch is selected, what is executed and what
is passed over.

* `FunctionDecl.visits`: the visits of a function on its arguments.
* `Program.exists_visits`: a function that is classified has visits, and its lines are the
  marks of its visits.
-/

namespace TraceGraph

/-- What a run does at one place. -/
inductive Visit where
  /-- It evaluates the test of a conditional. -/
  | test (link : Stmt) (holds : Bool)
  /-- It selects a branch of a conditional.  A conditional after `else` is the next link
  of the chain and no branch. -/
  | enter (link branch : Stmt)
  /-- It executes a statement by itself.  Of a loop only the test is evaluated. -/
  | step (s : Stmt)
  /-- It passes over a statement with everything in it. -/
  | pass (s : Stmt)
  /-- It leaves a chain before this link, whose test is not evaluated. -/
  | drop (link : Stmt)

/-- The marks that a visit leaves.  A conditional without alternative whose test fails is
executed and skipped at once. -/
def Visit.marks : Visit → List LineMark
  | .test (.ifThen line condition _) false => [.executed condition.line, .skipped line]
  | .test link _ => [.executed link.entryLine]
  | .enter _ branch => [.executed branch.line]
  | .step s => [.executed s.entryLine]
  | .pass s => s.skip
  | .drop _ => []

/-! ## Walking -/

/-- How far a walk has come. -/
structure Walk where
  visits : List Visit
  env : Env
  returned : Bool

namespace Stmt

/-- Whether a run executes the statement by itself. -/
def isStep : Stmt → Bool
  | .expression .. | .declare .. | .loop .. | .exit .. => true
  | .function .. | .block .. | .ifThen .. | .ifElse .. => false

/-- The visits to what is left of a chain after a branch has been taken. -/
def leaveChain : Stmt → List Visit
  | .ifThen line test consequent => [.drop (.ifThen line test consequent), .pass consequent]
  | .ifElse line test consequent alternate =>
    .drop (.ifElse line test consequent alternate) :: .pass consequent :: alternate.leaveChain
  | otherwise => [.pass otherwise]

theorem leaveChain_otherwise {s : Stmt} (h : s.isConditional = false) :
    s.leaveChain = [.pass s] := by
  cases s with
  | ifThen => cases h
  | ifElse => cases h
  | _ => rfl

/-- Entering what comes after `else`. -/
def enterElse (link alternate : Stmt) : List Visit :=
  if alternate.isConditional then [] else [.enter link alternate]

/-- Walks over a statement that is neither a jump nor a body of other statements. -/
def walkPlain (s : Stmt) (env : Env) : Except Fault Walk :=
  match (s.fold env).fault with
  | some fault => .error fault
  | none => .ok ⟨[.step s], (s.fold env).env, false⟩

mutual

/-- Walks over a statement.  A branch of a conditional runs in a copy of the environment,
and a loop is not entered. -/
def walk : Stmt → Env → Except Fault Walk
  | .ifThen line test consequent, env => do
    let link := .ifThen line test consequent
    if ← testHolds (← test.fold env) then
      let taken ← walk consequent env
      return ⟨.test link true :: .enter link consequent :: taken.visits, env, taken.returned⟩
    else
      return ⟨[.test link false, .pass consequent], env, false⟩
  | .ifElse line test consequent alternate, env => do
    let link := .ifElse line test consequent alternate
    if ← testHolds (← test.fold env) then
      let taken ← walk consequent env
      return ⟨.test link true :: .enter link consequent :: (taken.visits ++ alternate.leaveChain),
        env, taken.returned⟩
    else
      let taken ← walk alternate env
      return ⟨.test link false :: .pass consequent :: (enterElse link alternate ++ taken.visits),
        env, taken.returned⟩
  | .block _ body, env => walkAll body env
  | .loop line test body, env => .ok ⟨[.step (.loop line test body)], env, false⟩
  | .exit line result, env => .ok ⟨[.step (.exit line result)], env, true⟩
  | .function line _ _ _ _, _ => .error (.unsupported line (.nestedFunction none))
  | .expression line expr, env => walkPlain (.expression line expr) env
  | .declare line kind declarators, env => walkPlain (.declare line kind declarators) env

/-- Walks over statements one after the other.  After a return it passes over the
others. -/
def walkAll : List Stmt → Env → Except Fault Walk
  | [], env => .ok ⟨[], env, false⟩
  | s :: rest, env => do
    let first ← walk s env
    if first.returned then
      return ⟨first.visits ++ rest.map .pass, first.env, true⟩
    else
      let others ← walkAll rest first.env
      return ⟨first.visits ++ others.visits, others.env, others.returned⟩

end

end Stmt

/-- The visits of the function when its body is run with the parameters bound to the
arguments. -/
def FunctionDecl.visits (decl : FunctionDecl) (args : Arguments) : Except Fault (List Visit) := do
  let env ← decl.bindArguments args
  return (← Stmt.walkAll decl.body env).visits

/-! ## Walks leave the marks of runs -/

/-- A walk and a run have come equally far, and the marks of the one are those of the
other in some order. -/
structure Walk.Records (walk : Walk) (run : Run) : Prop where
  marks : run.marks.Perm (walk.visits.flatMap Visit.marks)
  env_eq : run.env = walk.env
  returned_eq : run.returned = walk.returned

namespace Stmt

theorem flatMap_marks_leaveChain (s : Stmt) : s.leaveChain.flatMap Visit.marks = s.skipChain := by
  induction s using chain_induction with
  | ifThen => exact List.append_nil _
  | ifElse line test consequent alternate ih =>
    show consequent.skip ++ alternate.leaveChain.flatMap Visit.marks = _
    rw [ih]
    rfl
  | otherwise s hs =>
    rw [leaveChain_otherwise hs]
    cases s with
    | ifThen => cases hs
    | ifElse => cases hs
    | _ => exact List.append_nil _

theorem flatMap_marks_enterElse (link alternate : Stmt) :
    (enterElse link alternate).flatMap Visit.marks
      = if alternate.isConditional then [] else [.executed alternate.line] := by
  rw [enterElse]
  split <;> rfl

private theorem records_plain {s : Stmt} {env : Env} {r : Run} (hline : s.entryLine = s.line)
    (h : runPlain s env = .ok r) : ∃ w, walkPlain s env = .ok w ∧ w.Records r := by
  rw [runPlain] at h
  rw [walkPlain]
  cases hfault : (s.fold env).fault with
  | some fault =>
    rw [hfault] at h
    cases h
  | none =>
    rw [hfault] at h
    cases h
    refine ⟨_, rfl, ?_, rfl, rfl⟩
    show [LineMark.executed s.line].Perm [.executed s.entryLine]
    rw [hline]

mutual

theorem walk_of_run : (s : Stmt) → {env : Env} → {r : Run} → run s env = .ok r →
    ∃ w, walk s env = .ok w ∧ w.Records r
  | .ifThen line test consequent, env, r, h => by
    rw [run] at h
    obtain ⟨value, htest, h⟩ := bind_eq_ok_iff.1 h
    obtain ⟨holds, hholds, h⟩ := bind_eq_ok_iff.1 h
    simp only [walk, bind, Except.bind, htest, hholds]
    cases holds with
    | false =>
      cases h
      refine ⟨_, rfl, ?_, rfl, rfl⟩
      -- the run skips the line of the conditional after its body, the walk before it
      show (_ :: (consequent.skip ++ [_])).Perm (_ :: _ :: (consequent.skip ++ []))
      rw [List.append_nil]
      exact List.perm_append_comm.cons _
    | true =>
      obtain ⟨taken, htaken, h⟩ := bind_eq_ok_iff.1 h
      cases h
      obtain ⟨w, hw, hmarks, -, hreturned⟩ := walk_of_run consequent htaken
      simp only [if_true, hw]
      exact ⟨_, rfl, (hmarks.cons _).cons _, rfl, hreturned⟩
  | .ifElse line test consequent alternate, env, r, h => by
    rw [run] at h
    obtain ⟨value, htest, h⟩ := bind_eq_ok_iff.1 h
    obtain ⟨holds, hholds, h⟩ := bind_eq_ok_iff.1 h
    simp only [walk, bind, Except.bind, htest, hholds]
    cases holds with
    | false =>
      obtain ⟨taken, htaken, h⟩ := bind_eq_ok_iff.1 h
      cases h
      obtain ⟨w, hw, hmarks, -, hreturned⟩ := walk_of_run alternate htaken
      simp only [Bool.false_eq_true, if_false, hw]
      refine ⟨_, rfl, ?_, rfl, hreturned⟩
      show (_ :: _).Perm (_ :: (consequent.skip ++ (enterElse _ alternate ++ w.visits).flatMap _))
      rw [List.flatMap_append, flatMap_marks_enterElse, List.append_assoc]
      exact ((hmarks.append_left _).append_left _).cons _
    | true =>
      obtain ⟨taken, htaken, h⟩ := bind_eq_ok_iff.1 h
      cases h
      obtain ⟨w, hw, hmarks, -, hreturned⟩ := walk_of_run consequent htaken
      simp only [if_true, hw]
      refine ⟨_, rfl, ?_, rfl, hreturned⟩
      show (_ :: _ :: _).Perm (_ :: _ :: (w.visits ++ alternate.leaveChain).flatMap _)
      rw [List.flatMap_append, flatMap_marks_leaveChain]
      exact ((hmarks.append_right _).cons _).cons _
  | .block _ body, _, _, h => walkAll_of_runAll body h
  | .loop line test body, env, r, h => by
    cases h
    exact ⟨_, rfl, .refl _, rfl, rfl⟩
  | .exit line result, env, r, h => by
    cases h
    exact ⟨_, rfl, .refl _, rfl, rfl⟩
  | .function .., _, _, h => by cases h
  | .expression line expr, _, _, h => records_plain rfl h
  | .declare line kind declarators, _, _, h => records_plain rfl h

theorem walkAll_of_runAll : (body : List Stmt) → {env : Env} → {r : Run} →
    runAll body env = .ok r → ∃ w, walkAll body env = .ok w ∧ w.Records r
  | [], env, r, h => by
    cases h
    exact ⟨_, rfl, .refl _, rfl, rfl⟩
  | s :: rest, env, r, h => by
    rw [runAll] at h
    obtain ⟨first, hfirst, h⟩ := bind_eq_ok_iff.1 h
    obtain ⟨w, hw, hmarks, henv, hreturned⟩ := walk_of_run s hfirst
    simp only [walkAll, bind, Except.bind, hw]
    rw [hreturned] at h
    cases hend : w.returned with
    | true =>
      rw [hend] at h
      cases h
      refine ⟨_, rfl, ?_, henv, rfl⟩
      show (first.marks ++ _).Perm ((w.visits ++ rest.map Visit.pass).flatMap _)
      rw [List.flatMap_append, List.flatMap_map]
      exact hmarks.append_right _
    | false =>
      rw [hend] at h
      obtain ⟨others, hothers, h⟩ := bind_eq_ok_iff.1 h
      cases h
      rw [henv] at hothers
      obtain ⟨w', hw', hmarks', henv', hreturned'⟩ := walkAll_of_runAll rest hothers
      simp only [Bool.false_eq_true, if_false, hw']
      refine ⟨_, rfl, ?_, henv', hreturned'⟩
      show (first.marks ++ _).Perm ((w.visits ++ w'.visits).flatMap _)
      rw [List.flatMap_append]
      exact hmarks.append hmarks'

end

end Stmt

namespace Classification

theorem mem_executed_ofMarks {marks : List LineMark} {n : Nat} :
    n ∈ (ofMarks marks).executed ↔ .executed n ∈ marks := by
  rw [ofMarks, LineSet.mem_ofList, List.mem_filterMap]
  constructor
  · rintro ⟨⟨⟩ | ⟨⟩, hmark, ⟨⟩⟩
    exact hmark
  · intro h
    exact ⟨_, h, rfl⟩

theorem mem_skipped_ofMarks {marks : List LineMark} {n : Nat} :
    n ∈ (ofMarks marks).skipped ↔ .skipped n ∈ marks := by
  rw [ofMarks, LineSet.mem_ofList, List.mem_filterMap]
  constructor
  · rintro ⟨⟨⟩ | ⟨⟩, hmark, ⟨⟩⟩
    exact hmark
  · intro h
    exact ⟨_, h, rfl⟩

end Classification

/-- A function that is classified has visits, and its lines are the marks of its visits. -/
theorem Program.exists_visits {p : Program} {decl : FunctionDecl}
    (hdecl : p.function? = some decl) {args : Arguments} {r : Classification}
    (h : p.classify args = .ok r) :
    ∃ visits, decl.visits args = .ok visits ∧
      (∀ n, n ∈ r.executed ↔ ∃ v ∈ visits, .executed n ∈ v.marks) ∧
      ∀ n, n ∈ r.skipped ↔ ∃ v ∈ visits, .skipped n ∈ v.marks := by
  rw [classify_of_function? hdecl] at h
  obtain ⟨env, trace, henv, hfold, htrace, rfl⟩ := FunctionDecl.classify_eq_ok h
  rw [(Stmt.traceAll_foldAll decl.body env hfold).trace_eq] at htrace
  obtain ⟨run, hrun, rfl⟩ := map_eq_ok_iff.1 htrace
  obtain ⟨walk, hwalk, hrecords⟩ := Stmt.walkAll_of_runAll decl.body hrun
  have hmem : ∀ mark, mark ∈ run.marks ↔ ∃ v ∈ walk.visits, mark ∈ v.marks := fun mark => by
    rw [hrecords.marks.mem_iff, List.mem_flatMap]
  refine ⟨walk.visits, ?_, fun n => ?_, fun n => ?_⟩
  · rw [FunctionDecl.visits, henv]
    show (Stmt.walkAll decl.body env).bind _ = _
    rw [hwalk]
    rfl
  · rw [← hmem, Classification.mem_executed_ofMarks]
    rfl
  · rw [← hmem, Classification.mem_skipped_ofMarks]
    rfl

end TraceGraph
