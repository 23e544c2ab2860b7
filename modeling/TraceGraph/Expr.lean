import TraceGraph.Operator

/-!
# Expressions

Every expression carries the line that it starts on.  An operation between two
operands starts where its left operand does, and parentheses leave no trace.
-/

namespace TraceGraph

/-- An expression with the line that it starts on. -/
inductive Expr where
  | literal (line : Nat) (value : Literal)
  | identifier (line : Nat) (name : String)
  | unary (line : Nat) (op : UnaryOp) (operand : Expr)
  | binary (line : Nat) (op : BinaryOp) (left right : Expr)
  | assign (line : Nat) (op : AssignOp) (target : String) (value : Expr)
  /-- A step by one.  `leading` tells whether the operator stands before the
  name. -/
  | update (line : Nat) (op : UpdateOp) (leading : Bool) (target : String)
deriving DecidableEq, Repr, Inhabited

namespace Expr

/-- The line that the expression starts on. -/
def line : Expr → Nat
  | .literal line _ => line
  | .identifier line _ => line
  | .unary line _ _ => line
  | .binary line _ _ _ => line
  | .assign line _ _ _ => line
  | .update line _ _ _ => line

/-- The same expression, said to start on another line.  Lines inside it
stay. -/
def withLine (line : Nat) : Expr → Expr
  | .literal _ value => .literal line value
  | .identifier _ name => .identifier line name
  | .unary _ op operand => .unary line op operand
  | .binary _ op left right => .binary line op left right
  | .assign _ op target value => .assign line op target value
  | .update _ op leading target => .update line op leading target

/-- The value of a literal expression. -/
def literal? : Expr → Option Literal
  | .literal _ value => some value
  | _ => none

/-- The value of a literal expression that operators are computed on. -/
def foldable? (e : Expr) : Option Literal :=
  e.literal?.filter Literal.foldable

@[simp] theorem line_withLine (n : Nat) (e : Expr) : (e.withLine n).line = n := by
  cases e <;> rfl

end Expr

end TraceGraph
