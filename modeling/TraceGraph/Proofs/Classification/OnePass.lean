import TraceGraph.Proofs.Stmt.Folding

/-!
# Tracing as one run

A body is classified in two passes: everything in it is folded first, also what is
never reached, and the folded body then tells which branches are taken.
`Stmt.run` is the same run in one pass.  It carries an environment and looks at
nothing but the statements that it reaches.

* `Stmt.traceAll_foldAll`: tracing a folded list of statements is running the
  list.
* `Program.classify_eq_run`: if the body of a function folds without fault, its
  classification is that of the run, and so is the fault if there is one.
-/

namespace TraceGraph

/-- How far a run has come: the marks that it made, the environment that it has
reached, and whether it has returned. -/
structure Run where
  marks : List LineMark
  env : Env
  returned : Bool

/-- A run without its environment. -/
def Run.trace (run : Run) : Trace :=
  ⟨run.marks, run.returned⟩

namespace Stmt

/-- Runs a statement that is neither a jump nor a body of other statements: it is
folded, which may bind names, and its line is executed. -/
def runPlain (s : Stmt) (env : Env) : Except Fault Run :=
  match (s.fold env).fault with
  | some fault => .error fault
  | none => .ok ⟨[.executed s.line], (s.fold env).env, false⟩

mutual

/-- Runs a statement.  A branch of a conditional runs in a copy of the
environment, and a loop is not entered. -/
def run : Stmt → Env → Except Fault Run
  | .ifThen line test consequent, env => do
    if ← testHolds (← test.fold env) then
      let taken ← run consequent env
      return ⟨.executed test.line :: .executed consequent.line :: taken.marks, env,
        taken.returned⟩
    else
      return ⟨.executed test.line :: (consequent.skip ++ [.skipped line]), env, false⟩
  | .ifElse _ test consequent alternate, env => do
    if ← testHolds (← test.fold env) then
      let taken ← run consequent env
      return ⟨.executed test.line :: .executed consequent.line
        :: (taken.marks ++ alternate.skipChain), env, taken.returned⟩
    else
      -- a further link of the chain marks its own test, any other alternative its line
      let entry := if alternate.isConditional then [] else [.executed alternate.line]
      let taken ← run alternate env
      return ⟨.executed test.line :: (consequent.skip ++ entry ++ taken.marks), env,
        taken.returned⟩
  | .block _ body, env => runAll body env
  | .loop _ test _, env => .ok ⟨[.executed test.line], env, false⟩
  | .exit line _, env => .ok ⟨[.executed line], env, true⟩
  | .function line _ _ _ _, _ => .error (.unsupported line (.nestedFunction none))
  | .expression line expr, env => runPlain (.expression line expr) env
  | .declare line kind declarators, env => runPlain (.declare line kind declarators) env

/-- Runs statements one after the other.  After a return the others are
skipped. -/
def runAll : List Stmt → Env → Except Fault Run
  | [], env => .ok ⟨[], env, false⟩
  | s :: rest, env => do
    let first ← run s env
    if first.returned then
      return ⟨first.marks ++ rest.flatMap skip, first.env, true⟩
    else
      let others ← runAll rest first.env
      return ⟨first.marks ++ others.marks, others.env, others.returned⟩

end

/-! ## The two passes follow the run -/

/-- What the two passes make of a statement or a list of statements agrees with a
run: they leave the same marks or the same fault, and until the run returns it has
the environment that folding has. -/
structure Follows (trace : Except Fault Trace) (env : Env) (run : Except Fault Run) : Prop where
  trace_eq : trace = run.map Run.trace
  env_eq : ∀ r, run = .ok r → r.returned = false → r.env = env

private theorem follows_plain {s folded : Stmt} {env : Env} (hfold : (fold s env).fault = none)
    (htrace : trace s folded = .ok ⟨[.executed s.line], false⟩) :
    Follows (trace s folded) (fold s env).env (runPlain s env) := by
  have hrun : runPlain s env = .ok ⟨[.executed s.line], (fold s env).env, false⟩ := by
    rw [runPlain, hfold]
  refine ⟨?_, fun r hr _ => ?_⟩
  · rw [htrace, hrun]
    rfl
  · rw [hrun] at hr
    cases hr
    rfl

private theorem env_of_run_ifThen {line : Nat} {test : Expr} {consequent : Stmt} {env : Env}
    {r : Run} (h : run (.ifThen line test consequent) env = .ok r) : r.env = env := by
  rw [run] at h
  obtain ⟨value, -, h⟩ := bind_eq_ok_iff.1 h
  obtain ⟨holds, -, h⟩ := bind_eq_ok_iff.1 h
  cases holds with
  | false =>
    cases h
    rfl
  | true =>
    obtain ⟨taken, -, h⟩ := bind_eq_ok_iff.1 h
    cases h
    rfl

private theorem env_of_run_ifElse {line : Nat} {test : Expr} {consequent alternate : Stmt}
    {env : Env} {r : Run} (h : run (.ifElse line test consequent alternate) env = .ok r) :
    r.env = env := by
  rw [run] at h
  obtain ⟨value, -, h⟩ := bind_eq_ok_iff.1 h
  obtain ⟨holds, -, h⟩ := bind_eq_ok_iff.1 h
  cases holds with
  | false =>
    obtain ⟨taken, -, h⟩ := bind_eq_ok_iff.1 h
    cases h
    rfl
  | true =>
    obtain ⟨taken, -, h⟩ := bind_eq_ok_iff.1 h
    cases h
    rfl

mutual

/-- Tracing a folded statement is running the statement. -/
theorem trace_fold : (s : Stmt) → (env : Env) → (fold s env).fault = none →
    Follows (trace s (fold s env).result) (fold s env).env (run s env)
  | .ifThen line test consequent, env, hfold => by
    obtain ⟨value, htest, hconsequent, heq⟩ := fold_ifThen hfold
    have hbranch := trace_fold consequent env hconsequent
    rw [heq]
    refine ⟨?_, fun r hr _ => env_of_run_ifThen hr⟩
    simp only [Folded.done, trace, run, htest, hbranch.trace_eq]
    cases hholds : testHolds value with
    | error fault => simp only [bind, Except.bind, hholds, Except.map]
    | ok holds =>
      simp only [bind, Except.bind, hholds]
      cases holds with
      | false => rfl
      | true => cases run consequent env <;> rfl
  | .ifElse line test consequent alternate, env, hfold => by
    obtain ⟨value, htest, hconsequent, halternate, heq⟩ := fold_ifElse hfold
    have hbranch := trace_fold consequent env hconsequent
    have hother := trace_fold alternate env halternate
    rw [heq]
    refine ⟨?_, fun r hr _ => env_of_run_ifElse hr⟩
    simp only [Folded.done, trace, run, htest, hbranch.trace_eq, hother.trace_eq]
    cases hholds : testHolds value with
    | error fault => simp only [bind, Except.bind, hholds, Except.map]
    | ok holds =>
      simp only [bind, Except.bind, hholds]
      cases holds with
      | false => cases run alternate env <;> rfl
      | true => cases run consequent env <;> rfl
  | .block line body, env, hfold => by
    exact traceAll_foldAll body env hfold
  | .loop line test body, env, hfold => by
    refine ⟨?_, ?_⟩
    · cases (fold (.loop line test body) env).result <;> rfl
    · rintro r ⟨⟩ _
      obtain ⟨_, -, -, heq⟩ := fold_loop hfold
      rw [heq]
      rfl
  | .exit line result, env, hfold => by
    refine ⟨?_, ?_⟩
    · cases (fold (.exit line result) env).result <;> rfl
    · rintro r ⟨⟩ ⟨⟩
  | .function line name params bodyLine body, env, hfold => by
    refine ⟨?_, ?_⟩
    · cases (fold (.function line name params bodyLine body) env).result <;> rfl
    · rintro r ⟨⟩
  | .expression line expr, env, hfold => by
    refine follows_plain hfold ?_
    cases (fold (.expression line expr) env).result <;> rfl
  | .declare line kind declarators, env, hfold => by
    refine follows_plain hfold ?_
    cases (fold (.declare line kind declarators) env).result <;> rfl

/-- Tracing a folded list of statements is running the list. -/
theorem traceAll_foldAll : (body : List Stmt) → (env : Env) → (foldAll body env).fault = none →
    Follows (traceAll body (foldAll body env).result) (foldAll body env).env (runAll body env)
  | [], env, _ => by
    refine ⟨rfl, ?_⟩
    rintro r ⟨⟩ _
    rfl
  | s :: rest, env, hfold => by
    obtain ⟨hfirst, hrest, heq⟩ := foldAll_cons hfold
    obtain ⟨htrace, henv⟩ := trace_fold s env hfirst
    have hothers := traceAll_foldAll rest (fold s env).env hrest
    rw [heq, runAll]
    simp only [Folded.done, traceAll, htrace]
    cases hrun : run s env with
    | error fault =>
      refine ⟨rfl, ?_⟩
      rintro r ⟨⟩
    | ok first =>
      obtain ⟨marks, after, returned⟩ := first
      cases returned with
      | true =>
        refine ⟨rfl, ?_⟩
        rintro r ⟨⟩ ⟨⟩
      | false =>
        -- the run goes on in the environment that folding has reached
        obtain rfl : after = (fold s env).env := henv _ hrun rfl
        show Follows (traceAll rest (foldAll rest (fold s env).env).result >>= _) _
          (runAll rest (fold s env).env >>= _)
        rw [hothers.trace_eq]
        cases hrunAll : runAll rest (fold s env).env with
        | error fault =>
          refine ⟨rfl, ?_⟩
          rintro r ⟨⟩
        | ok others =>
          refine ⟨rfl, ?_⟩
          rintro r ⟨⟩ hreturned
          exact hothers.env_eq others hrunAll hreturned

end

end Stmt

/-! ## Programs -/

namespace FunctionDecl

/-- The lines that the function executes and skips when its body is run once with
the parameters bound to the arguments. -/
def run (decl : FunctionDecl) (args : Arguments) : Except Fault Classification := do
  let env ← decl.bindArguments args
  let run ← Stmt.runAll decl.body env
  return .ofMarks run.marks

end FunctionDecl

/-- If every parameter of the only function has an argument and the body folds
without fault, the classification in two passes is that of the run. -/
theorem Program.classify_eq_run {p : Program} {decl : FunctionDecl}
    (hdecl : p.function? = some decl) {args : Arguments}
    (hargs : ∀ param ∈ decl.params, (args.get? param).isSome) :
    ∃ env, decl.bindArguments args = .ok env ∧
      (∀ param ∈ decl.params, env.get? param = (args.get? param).map (.literal decl.bodyLine)) ∧
      ((Stmt.foldAll decl.body env).fault = none → p.classify args = decl.run args) := by
  obtain ⟨env, henv, hget⟩ := FunctionDecl.bindArguments_eq_ok hargs
  refine ⟨env, henv, hget, fun hfold => ?_⟩
  have htrace := (Stmt.traceAll_foldAll decl.body env hfold).trace_eq
  have hclassify : p.classify args = decl.classify args := by
    rw [Program.classify, Program.theFunction, hdecl]
    rfl
  rw [hclassify, FunctionDecl.classify, FunctionDecl.run, henv]
  show (match (Stmt.foldAll decl.body env).fault with | some fault => _ | none => _) = _
  rw [hfold]
  simp only [htrace]
  show _ = (Stmt.runAll decl.body env >>= _)
  cases Stmt.runAll decl.body env <;> rfl

/-- A function that returns from the branch that it takes, so that the other branch
and what follows the conditional are skipped. -/
private def earlyReturn : FunctionDecl where
  name := "f"
  params := ["x"]
  bodyLine := 1
  body :=
    [.declare 2 .letDecl
       [⟨"y", some (.binary 2 .add (.identifier 2 "x") (.literal 2 (.number 1))), 2⟩],
     .ifElse 3 (.binary 3 .greater (.identifier 3 "y") (.literal 3 (.number 1)))
       (.block 3 [.exit 4 (some (.identifier 4 "y"))])
       (.expression 5 (.assign 5 .assign "y" (.literal 5 (.number 0)))),
     .expression 6 (.assign 6 .assign "y" (.literal 6 (.number 2)))]

theorem Program.classify_eq_run_earlyReturn :
    (∀ param ∈ earlyReturn.params,
        ((Arguments.ofPairs [("x", .number 1)]).get? param).isSome) ∧
      (Stmt.foldAll earlyReturn.body ⟨[("x", .literal 1 (.number 1))]⟩).fault = none ∧
      (Program.classify ⟨[.function 1 "f" ["x"] 1 earlyReturn.body]⟩
        (.ofPairs [("x", .number 1)])).toOption = some ⟨.ofList [2, 3, 4], .ofList [5, 6]⟩ := by
  have hargs : ∀ param ∈ earlyReturn.params,
      ((Arguments.ofPairs [("x", .number 1)]).get? param).isSome := by decide
  have hfold : (Stmt.foldAll earlyReturn.body ⟨[("x", .literal 1 (.number 1))]⟩).fault = none := by
    decide
  have hdecl : Program.function? ⟨[.function 1 "f" ["x"] 1 earlyReturn.body]⟩ = some earlyReturn :=
    rfl
  obtain ⟨env, henv, -, hrun⟩ := Program.classify_eq_run hdecl hargs
  cases henv
  refine ⟨hargs, hfold, ?_⟩
  rw [hrun hfold]
  decide

end TraceGraph
