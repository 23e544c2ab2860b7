import TraceGraph.Arguments
import TraceGraph.Expr.Printer
import TraceGraph.LineSet
import TraceGraph.Stmt.Fold
import TraceGraph.Stmt.Lines

/-!
# The lines that a run executes and skips

The body of a function is folded with its parameters bound to the arguments,
which turns the test of each conditional into a literal.  The folded body then
tells, beside the body as it was written, which branch is taken.  Lines are
always those of the body as it was written.  Loops are not entered.

* `Stmt.trace` marks the lines of one statement.
* `Program.classify` runs the only function of a program.
-/

namespace TraceGraph

/-- What a run says about a line. -/
inductive LineMark where
  | executed (line : Nat)
  | skipped (line : Nat)
deriving DecidableEq, Repr

/-- The line, if it was executed. -/
def LineMark.executed? : LineMark → Option Nat
  | .executed line => some line
  | .skipped _ => none

/-- The line, if it was skipped. -/
def LineMark.skipped? : LineMark → Option Nat
  | .executed _ => none
  | .skipped line => some line

/-- The marks of a run, and whether it has returned. -/
structure Trace where
  marks : List LineMark
  returned : Bool
deriving DecidableEq, Repr

/-- Adds marks before those of a trace. -/
def Trace.after (marks : List LineMark) (trace : Trace) : Trace :=
  ⟨marks ++ trace.marks, trace.returned⟩

/-- The lines that a run executes and skips.  A line can be in both sets. -/
structure Classification where
  executed : LineSet
  skipped : LineSet
deriving DecidableEq

/-- The sets of lines with the marks of a run. -/
def Classification.ofMarks (marks : List LineMark) : Classification :=
  ⟨.ofList (marks.filterMap LineMark.executed?), .ofList (marks.filterMap LineMark.skipped?)⟩

namespace Stmt

/-- Marks everything in a statement as skipped. -/
def skip (s : Stmt) : List LineMark :=
  s.lines.map .skipped

/-- Marks all bodies that are left of an else-if chain as skipped.  The tests
between them are never evaluated and get no mark. -/
def skipChain : Stmt → List LineMark
  | .ifThen _ _ consequent => consequent.skip
  | .ifElse _ _ consequent alternate => consequent.skip ++ skipChain alternate
  | s => s.skip

/-- Whether a folded test holds.  It must have become a literal. -/
def testHolds (test : Expr) : Except Fault Bool :=
  match test.literal? with
  | some value => .ok value.truthy
  | none => .error (.unsupported test.line (.undecidedCondition test.render))

mutual

/-- Runs a statement, given as it was written and as it was folded. -/
def trace : Stmt → Stmt → Except Fault Trace
  | .ifThen line test consequent, .ifThen _ folded foldedConsequent => do
    if ← testHolds folded then
      return (← trace consequent foldedConsequent).after
        [.executed test.line, .executed consequent.line]
    else
      return ⟨.executed test.line :: (consequent.skip ++ [.skipped line]), false⟩
  | .ifElse _ test consequent alternate, .ifElse _ folded foldedConsequent foldedAlternate => do
    if ← testHolds folded then
      let taken ← trace consequent foldedConsequent
      return ⟨.executed test.line :: .executed consequent.line
        :: (taken.marks ++ alternate.skipChain), taken.returned⟩
    else
      let entry := if alternate.isConditional then [] else [.executed alternate.line]
      return (← trace alternate foldedAlternate).after
        (.executed test.line :: (consequent.skip ++ entry))
  | .block _ body, .block _ folded => traceAll body folded
  | .loop _ test _, _ => .ok ⟨[.executed test.line], false⟩
  | .exit line _, _ => .ok ⟨[.executed line], true⟩
  | .function line _ _ _ _, _ => .error (.unsupported line (.nestedFunction none))
  | s, _ => .ok ⟨[.executed s.line], false⟩

/-- Runs statements one after the other.  What follows a return is skipped. -/
def traceAll : List Stmt → List Stmt → Except Fault Trace
  | s :: rest, folded :: foldedRest => do
    let first ← trace s folded
    if first.returned then return ⟨first.marks ++ rest.flatMap skip, true⟩
    else return (← traceAll rest foldedRest).after first.marks
  | _, _ => .ok ⟨[], false⟩

end

end Stmt

namespace FunctionDecl

/-- The environment that binds each parameter to its argument. -/
def bindArguments (decl : FunctionDecl) (args : Arguments) : Except Fault Env :=
  decl.params.foldlM (fun env param =>
    match args.get? param with
    | some value => .ok (env.bindLiteral decl.bodyLine param value)
    | none => .error (.unbound param decl.bodyLine)) .empty

/-- The arguments that are no parameters, in the order of their names. -/
def ignoredArguments (decl : FunctionDecl) (args : Arguments) : List String :=
  args.names.filter fun name => !decl.params.contains name

/-- The lines that the function executes and skips on the given arguments. -/
def classify (decl : FunctionDecl) (args : Arguments) : Except Fault Classification := do
  let env ← decl.bindArguments args
  let folded := Stmt.foldAll decl.body env
  match folded.fault with
  | some fault => .error fault
  | none =>
    let trace ← Stmt.traceAll decl.body folded.result
    return .ofMarks trace.marks

end FunctionDecl

/-- The lines that the only function of a program executes and skips. -/
def Program.classify (program : Program) (args : Arguments) : Except Fault Classification := do
  (← program.theFunction).classify args

end TraceGraph
