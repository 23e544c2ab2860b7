import TraceGraph.Stmt

/-!
# Where statements stand

The lines that reports about a statement mention: where it begins to run, and
where everything nested in it starts.
-/

namespace TraceGraph.Stmt

/-- The line of the first statement that a body runs, or of the body itself if
it runs none. -/
def firstLine : Stmt → Nat
  | .block _ (s :: _) => s.firstLine
  | s => s.line

/-- The statements that a branch runs. -/
def branch : Stmt → List Stmt
  | .block _ body => body
  | s => [s]

mutual

/-- The lines of the statement and of every statement nested in it, in source
order.  A block only passes on the lines of its statements. -/
def lines : Stmt → List Nat
  | .function line _ _ _ body => line :: linesOf body
  | .block _ body => linesOf body
  | .expression line _ => [line]
  | .declare line _ _ => [line]
  | .ifThen line _ consequent => line :: lines consequent
  | .ifElse line _ consequent alternate => line :: (lines consequent ++ lines alternate)
  | .loop line _ body => line :: lines body
  | .exit line _ => [line]

/-- The lines of all statements of a list. -/
def linesOf : List Stmt → List Nat
  | [] => []
  | s :: rest => lines s ++ linesOf rest

end

end TraceGraph.Stmt
