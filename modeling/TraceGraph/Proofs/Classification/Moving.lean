import Mathlib.Data.List.Sort
import TraceGraph.Proofs.Stmt.MovedFolding
import TraceGraph.Proofs.Stmt.RoundTrip

/-!
# Running on other lines

A run marks lines and decides nothing by them.  On other lines it makes the same marks
there, so the sets of executed and skipped lines are the images of those before.

* `LineSet.image` and `Classification.image`: sets of lines, moved to other lines.
* `Stmt.trace_mapLines` and `Stmt.traceAll_mapLines`: the marks of a run.
* `Program.theFunction_mapLines` and `Program.classify_mapLines`: the function of a
  program, and its lines.
-/

namespace TraceGraph

variable (f : Nat → Nat)

/-! ## Sets of lines -/

namespace LineSet

theorem eq_of_mem_iff {set set' : LineSet} (h : ∀ n, n ∈ set ↔ n ∈ set') : set = set' := by
  obtain ⟨lines, hlines⟩ := set
  obtain ⟨lines', hlines'⟩ := set'
  cases hlines.eq_of_mem_iff hlines' h
  rfl

/-- The lines that the lines of a set go to. -/
def image (set : LineSet) : LineSet :=
  .ofList (set.lines.map f)

theorem mem_image {set : LineSet} {n : Nat} : n ∈ set.image f ↔ ∃ m ∈ set, f m = n := by
  rw [image, mem_ofList, List.mem_map]
  rfl

theorem image_ofList (lines : List Nat) : (ofList lines).image f = ofList (lines.map f) := by
  refine eq_of_mem_iff fun n => ?_
  simp only [mem_image, mem_ofList, List.mem_map]

end LineSet

/-- The lines that executed and skipped lines go to. -/
def Classification.image (r : Classification) : Classification :=
  ⟨r.executed.image f, r.skipped.image f⟩

/-- The mark on another line. -/
def LineMark.mapLine : LineMark → LineMark
  | .executed line => .executed (f line)
  | .skipped line => .skipped (f line)

/-- The run on other lines. -/
def Trace.mapLines (trace : Trace) : Trace :=
  ⟨trace.marks.map (LineMark.mapLine f), trace.returned⟩

theorem Classification.ofMarks_map (marks : List LineMark) :
    ofMarks (marks.map (LineMark.mapLine f)) = (ofMarks marks).image f := by
  have hexecuted : (marks.map (LineMark.mapLine f)).filterMap LineMark.executed?
      = (marks.filterMap LineMark.executed?).map f := by
    rw [List.filterMap_map, List.map_filterMap]
    exact congrArg (List.filterMap · marks) (funext fun mark => by cases mark <;> rfl)
  have hskipped : (marks.map (LineMark.mapLine f)).filterMap LineMark.skipped?
      = (marks.filterMap LineMark.skipped?).map f := by
    rw [List.filterMap_map, List.map_filterMap]
    exact congrArg (List.filterMap · marks) (funext fun mark => by cases mark <;> rfl)
  rw [ofMarks, ofMarks, image, hexecuted, hskipped, LineSet.image_ofList, LineSet.image_ofList]

/-! ## Runs -/

namespace Stmt

theorem line_mapLines (s : Stmt) : (s.mapLines f).line = f s.line := by
  cases s <;> rfl

mutual

theorem lines_mapLines : (s : Stmt) → (s.mapLines f).lines = s.lines.map f
  | .function line _ _ _ body => congrArg (f line :: ·) (linesOf_mapLinesAll body)
  | .block _ body => linesOf_mapLinesAll body
  | .expression .. | .declare .. | .exit .. => rfl
  | .ifThen line _ consequent => congrArg (f line :: ·) (lines_mapLines consequent)
  | .ifElse line _ consequent alternate => by
    show f line :: ((consequent.mapLines f).lines ++ (alternate.mapLines f).lines) = _
    rw [lines_mapLines consequent, lines_mapLines alternate, ← List.map_append]
    rfl
  | .loop line _ body => congrArg (f line :: ·) (lines_mapLines body)

theorem linesOf_mapLinesAll : (body : List Stmt) →
    linesOf (mapLinesAll f body) = (linesOf body).map f
  | [] => rfl
  | s :: rest => by
    show (s.mapLines f).lines ++ linesOf (mapLinesAll f rest) = _
    rw [lines_mapLines s, linesOf_mapLinesAll rest, ← List.map_append]
    rfl

end

theorem skip_mapLines (s : Stmt) : (s.mapLines f).skip = s.skip.map (LineMark.mapLine f) := by
  rw [skip, skip, lines_mapLines, List.map_map, List.map_map]
  rfl

theorem flatMap_skip_mapLinesAll (body : List Stmt) :
    (mapLinesAll f body).flatMap skip = (body.flatMap skip).map (LineMark.mapLine f) := by
  induction body with
  | nil => rfl
  | cons s rest ih =>
    show (s.mapLines f).skip ++ (mapLinesAll f rest).flatMap skip = _
    rw [skip_mapLines, ih, ← List.map_append]
    rfl

theorem skipChain_mapLines : (s : Stmt) →
    (s.mapLines f).skipChain = s.skipChain.map (LineMark.mapLine f)
  | .ifThen _ _ consequent => skip_mapLines f consequent
  | .ifElse _ _ consequent alternate => by
    show (consequent.mapLines f).skip ++ (alternate.mapLines f).skipChain = _
    rw [skip_mapLines, skipChain_mapLines alternate, ← List.map_append]
    rfl
  | .function line name params bodyLine body =>
    skip_mapLines f (.function line name params bodyLine body)
  | .block line body => skip_mapLines f (.block line body)
  | .expression .. | .declare .. | .exit .. => rfl
  | .loop line test body => skip_mapLines f (.loop line test body)

theorem testHolds_mapLines (test : Expr) :
    testHolds (test.mapLines f) = relined f id (testHolds test) := by
  unfold testHolds
  rw [Expr.render_mapLines, Expr.line_mapLines]
  cases test <;> rfl

theorem mapLines_after (marks : List LineMark) (trace : Trace) :
    (trace.mapLines f).after (marks.map (LineMark.mapLine f)) = (trace.after marks).mapLines f :=
  congrArg (Trace.mk · trace.returned) List.map_append.symm

section

variable {line line' : Nat} {test folded : Expr}
  {consequent alternate foldedConsequent foldedAlternate : Stmt}

private theorem trace_ifThen_mapLines
    (hconsequent : trace (consequent.mapLines f) (foldedConsequent.mapLines f)
      = relined f (Trace.mapLines f) (trace consequent foldedConsequent)) :
    trace ((ifThen line test consequent).mapLines f)
        ((ifThen line' folded foldedConsequent).mapLines f)
      = relined f (Trace.mapLines f)
          (trace (.ifThen line test consequent) (.ifThen line' folded foldedConsequent)) := by
  show (testHolds (folded.mapLines f)).bind _ = relined f _ ((testHolds folded).bind _)
  rw [testHolds_mapLines]
  refine relined_bind fun holds _ => ?_
  cases holds with
  | true =>
    show (trace (consequent.mapLines f) (foldedConsequent.mapLines f)).map
        (Trace.after [.executed (test.mapLines f).line, .executed (consequent.mapLines f).line])
      = relined f _ ((trace consequent foldedConsequent).map
        (Trace.after [.executed test.line, .executed consequent.line]))
    rw [hconsequent, Expr.line_mapLines, line_mapLines]
    exact relined_map fun taken _ =>
      mapLines_after f [.executed test.line, .executed consequent.line] taken
  | false =>
    show Except.ok (Trace.mk (.executed (test.mapLines f).line ::
        ((consequent.mapLines f).skip ++ [.skipped (f line)])) false)
      = .ok (Trace.mapLines f ⟨.executed test.line :: (consequent.skip ++ [.skipped line]), false⟩)
    rw [Expr.line_mapLines, skip_mapLines, Trace.mapLines, List.map_cons, List.map_append]
    rfl

private theorem trace_ifElse_mapLines
    (hconsequent : trace (consequent.mapLines f) (foldedConsequent.mapLines f)
      = relined f (Trace.mapLines f) (trace consequent foldedConsequent))
    (halternate : trace (alternate.mapLines f) (foldedAlternate.mapLines f)
      = relined f (Trace.mapLines f) (trace alternate foldedAlternate)) :
    trace ((ifElse line test consequent alternate).mapLines f)
        ((ifElse line' folded foldedConsequent foldedAlternate).mapLines f)
      = relined f (Trace.mapLines f)
          (trace (.ifElse line test consequent alternate)
            (.ifElse line' folded foldedConsequent foldedAlternate)) := by
  show (testHolds (folded.mapLines f)).bind _ = relined f _ ((testHolds folded).bind _)
  rw [testHolds_mapLines]
  refine relined_bind fun holds _ => ?_
  cases holds with
  | true =>
    show (trace (consequent.mapLines f) (foldedConsequent.mapLines f)).map (fun taken =>
        Trace.mk (.executed (test.mapLines f).line :: .executed (consequent.mapLines f).line
          :: (taken.marks ++ (alternate.mapLines f).skipChain)) taken.returned)
      = relined f _ ((trace consequent foldedConsequent).map fun taken =>
        Trace.mk (.executed test.line :: .executed consequent.line
          :: (taken.marks ++ alternate.skipChain)) taken.returned)
    rw [hconsequent, Expr.line_mapLines, line_mapLines, skipChain_mapLines]
    refine relined_map fun taken _ => ?_
    simp only [Trace.mapLines, List.map_cons, List.map_append, LineMark.mapLine]
  | false =>
    show (trace (alternate.mapLines f) (foldedAlternate.mapLines f)).map
        (Trace.after (.executed (test.mapLines f).line :: ((consequent.mapLines f).skip
          ++ if (alternate.mapLines f).isConditional then []
            else [.executed (alternate.mapLines f).line])))
      = relined f _ ((trace alternate foldedAlternate).map
        (Trace.after (.executed test.line :: (consequent.skip
          ++ if alternate.isConditional then [] else [.executed alternate.line]))))
    have hentry : (if (alternate.mapLines f).isConditional then []
          else [LineMark.executed (alternate.mapLines f).line])
        = (if alternate.isConditional then []
          else [LineMark.executed alternate.line]).map (LineMark.mapLine f) := by
      rw [mapLines, isConditional_map, ← mapLines, line_mapLines]
      split <;> rfl
    rw [halternate, Expr.line_mapLines, skip_mapLines, hentry, ← List.map_append]
    exact relined_map fun taken _ => mapLines_after f (.executed test.line :: _) taken

end

mutual

/-- A run on other lines makes the same marks there, or is refused for the same reason
there. -/
theorem trace_mapLines : (s folded : Stmt) →
    trace (s.mapLines f) (folded.mapLines f) = relined f (Trace.mapLines f) (trace s folded)
  | .ifThen _ _ consequent, folded => by
    cases folded with
    | ifThen _ _ foldedConsequent =>
      exact trace_ifThen_mapLines f (trace_mapLines consequent foldedConsequent)
    | _ => rfl
  | .ifElse _ _ consequent alternate, folded => by
    cases folded with
    | ifElse _ _ foldedConsequent foldedAlternate =>
      exact trace_ifElse_mapLines f (trace_mapLines consequent foldedConsequent)
        (trace_mapLines alternate foldedAlternate)
    | _ => rfl
  | .block _ body, folded => by
    cases folded with
    | block _ folded => exact traceAll_mapLines body folded
    | _ => rfl
  | .loop _ test _, _ =>
    congrArg (fun line => Except.ok (Trace.mk [.executed line] false)) (Expr.line_mapLines f test)
  | .function .., _ | .expression .., _ | .declare .., _ | .exit .., _ => rfl

/-- The same for statements one after the other. -/
theorem traceAll_mapLines : (body folded : List Stmt) →
    traceAll (mapLinesAll f body) (mapLinesAll f folded)
      = relined f (Trace.mapLines f) (traceAll body folded)
  | s :: rest, folded :: foldedRest => by
    show (trace (s.mapLines f) (folded.mapLines f)).bind _ = relined f _ ((trace s folded).bind _)
    rw [trace_mapLines s folded]
    refine relined_bind fun first _ => ?_
    obtain ⟨marks, returned⟩ := first
    cases returned with
    | true =>
      show Except.ok (Trace.mk (marks.map (LineMark.mapLine f)
        ++ (mapLinesAll f rest).flatMap skip) true) = _
      rw [flatMap_skip_mapLinesAll, ← List.map_append]
      rfl
    | false =>
      show (traceAll (mapLinesAll f rest) (mapLinesAll f foldedRest)).map
          (Trace.after (marks.map (LineMark.mapLine f)))
        = relined f _ ((traceAll rest foldedRest).map (Trace.after marks))
      rw [traceAll_mapLines rest foldedRest]
      exact relined_map fun _ _ => mapLines_after f _ _
  | [], _ => rfl
  | _ :: _, [] => rfl

end

end Stmt

/-! ## Functions and programs -/

namespace FunctionDecl

/-- The function with all lines changed. -/
def mapLines (decl : FunctionDecl) : FunctionDecl :=
  ⟨decl.name, decl.params, f decl.bodyLine, Stmt.mapLinesAll f decl.body⟩

private theorem foldlM_mapLines {bind bind' : Env → String → Except Fault Env}
    (hbind : ∀ env param,
      bind' (env.mapLines f) param = relined f (Env.mapLines f) (bind env param))
    (params : List String) (env : Env) :
    params.foldlM bind' (env.mapLines f) = relined f (Env.mapLines f) (params.foldlM bind env) := by
  induction params generalizing env with
  | nil => rfl
  | cons param params ih =>
    rw [List.foldlM_cons, List.foldlM_cons, hbind]
    exact relined_bind fun next _ => ih next

theorem bindArguments_mapLines (decl : FunctionDecl) (args : Arguments) :
    (decl.mapLines f).bindArguments args
      = relined f (Env.mapLines f) (decl.bindArguments args) := by
  refine foldlM_mapLines f (fun env param => ?_) decl.params .empty
  cases args.get? param <;> rfl

/-- A function on other lines executes and skips the same lines there. -/
theorem classify_mapLines (decl : FunctionDecl) (args : Arguments) :
    (decl.mapLines f).classify args
      = relined f (Classification.image f) (decl.classify args) := by
  show ((decl.mapLines f).bindArguments args).bind _
    = relined f _ ((decl.bindArguments args).bind _)
  rw [bindArguments_mapLines]
  refine relined_bind fun env _ => ?_
  have hfolded : Stmt.foldAll (decl.mapLines f).body (env.mapLines f)
      = (Stmt.foldAll decl.body env).mapLines f (Stmt.mapLinesAll f) :=
    Stmt.foldAll_mapLines f decl.body env
  simp only [hfolded]
  cases hfault : (Stmt.foldAll decl.body env).fault with
  | some fault =>
    simp only [Folded.mapLines, hfault, Option.map_some]
    rfl
  | none =>
    simp only [Folded.mapLines, hfault, Option.map_none]
    show (Stmt.traceAll (Stmt.mapLinesAll f decl.body)
        (Stmt.mapLinesAll f (Stmt.foldAll decl.body env).result)).map
          (fun trace => Classification.ofMarks trace.marks)
      = relined f _ ((Stmt.traceAll decl.body (Stmt.foldAll decl.body env).result).map
          fun trace => Classification.ofMarks trace.marks)
    rw [Stmt.traceAll_mapLines]
    exact relined_map fun trace _ => Classification.ofMarks_map f trace.marks

end FunctionDecl

namespace Program

theorem function?_mapLines (p : Program) :
    (p.mapLines f).function? = p.function?.map (FunctionDecl.mapLines f) := by
  obtain ⟨body⟩ := p
  match body with
  | [] => rfl
  | [s] => cases s <;> rfl
  | s :: next :: rest => cases s <;> rfl

/-- Which function a program is does not depend on lines.  A program that is none is
refused at the line of its first statement, so it needs to have one. -/
theorem theFunction_mapLines {p : Program} (h : p.body ≠ []) :
    (p.mapLines f).theFunction = relined f (FunctionDecl.mapLines f) p.theFunction := by
  rw [theFunction, theFunction, function?_mapLines]
  cases p.function? with
  | some decl => rfl
  | none =>
    obtain ⟨body⟩ := p
    cases body with
    | nil => exact absurd rfl h
    | cons s rest =>
      exact congrArg (fun line => Except.error (Fault.unsupported line .notOneFunction))
        (Stmt.line_mapLines f s)

theorem classify_mapLines {p : Program} (h : p.body ≠ []) (args : Arguments) :
    (p.mapLines f).classify args = relined f (Classification.image f) (p.classify args) := by
  show (p.mapLines f).theFunction.bind _ = relined f _ (p.theFunction.bind _)
  rw [theFunction_mapLines f h]
  exact relined_bind fun decl _ => decl.classify_mapLines f args

end Program

end TraceGraph
