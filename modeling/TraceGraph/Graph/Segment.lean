import TraceGraph.Stmt

/-!
# Segments of a body

The parts of a body that become nodes: runs of plain statements, conditionals and
loops.  A return ends the run that it follows directly, or else is a run of its
own, and nothing after it is looked at.
-/

namespace TraceGraph

/-- A part of a body. -/
inductive Segment where
  /-- Statements that run one after the other, at least one. -/
  | run (stmts : List Stmt)
  | branching (test : Expr) (consequent : Stmt) (alternate : Option Stmt)
  | loop (line : Nat) (test : Expr) (body : Stmt)
deriving Repr, Inhabited

namespace Segment

/-- Puts a plain statement before segments.  It joins a run that comes first. -/
def prepend (s : Stmt) : List Segment → List Segment
  | .run stmts :: rest => .run (s :: stmts) :: rest
  | segments => .run [s] :: segments

/-- The segments of a body, up to its first return. -/
def ofBody : List Stmt → List Segment
  | [] => []
  | .loop line test body :: rest => .loop line test body :: ofBody rest
  | .ifThen _ test consequent :: rest => .branching test consequent none :: ofBody rest
  | .ifElse _ test consequent alternate :: rest =>
    .branching test consequent (some alternate) :: ofBody rest
  | .exit line result :: _ => [.run [.exit line result]]
  | s :: rest => prepend s (ofBody rest)

end Segment

/-! ## Functions inside bodies -/

namespace Stmt

/-- The fault of a statement that is itself a function. -/
def asNestedFunction? : Stmt → Option Fault
  | .function line name _ _ _ => some (.unsupported line (.nestedFunction (some name)))
  | _ => none

mutual

/-- The fault of the first function in a statement. -/
def nestedFunction? : Stmt → Option Fault
  | .function line name _ _ _ => some (.unsupported line (.nestedFunction (some name)))
  | .block _ body => nestedFunctionIn? body
  | .ifThen _ _ consequent => nestedFunction? consequent
  | .ifElse _ _ consequent alternate => (nestedFunction? consequent).or (nestedFunction? alternate)
  | .loop _ _ body => nestedFunction? body
  | .expression .. | .declare .. | .exit .. => none

/-- The fault of the first function in a list of statements. -/
def nestedFunctionIn? : List Stmt → Option Fault
  | [] => none
  | s :: rest => (nestedFunction? s).or (nestedFunctionIn? rest)

end

end Stmt

/-- Why a segment cannot be built.  The bodies of conditionals and loops must
not hold a function at any depth, and a run must not hold one directly. -/
def Segment.fault? : Segment → Option Fault
  | .run stmts => stmts.findSome? Stmt.asNestedFunction?
  | .branching _ consequent alternate =>
    consequent.nestedFunction?.or (alternate.bind Stmt.nestedFunction?)
  | .loop _ _ body => body.nestedFunction?

end TraceGraph
