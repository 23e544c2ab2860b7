import TraceGraph.Env
import TraceGraph.Fault

/-!
# Folding expressions

Folding puts the bound expression in place of each name and computes operators
whose operands are literals that can be computed with.  Whatever cannot be
computed stays, with its parts folded.  The result keeps the line of the
expression that it replaces.
-/

namespace TraceGraph.Expr

/-- An operator before an operand that has been folded. -/
def foldUnary (line : Nat) (op : UnaryOp) (operand : Expr) : Expr :=
  match operand.foldable? with
  | some value => .literal line (op.apply value)
  | none => .unary line op operand

/-- An operator between two operands that have been folded. -/
def foldBinary (line : Nat) (op : BinaryOp) (left right : Expr) : Expr :=
  match left.foldable?, right.foldable? with
  | some l, some r => .literal line (op.apply l r)
  | _, _ => .binary line op left right

/-- The expression with everything computed that the environment decides.  A
name without a binding is a fault, and so is an assignment or an update, which
have no place in a value. -/
def fold (env : Env) : Expr → Except Fault Expr
  | .literal line value => .ok (.literal line value)
  | .identifier line name =>
    match env.get? name with
    | some bound => .ok (bound.withLine line)
    | none => .error (.unbound name line)
  | .unary line op operand => do
    return foldUnary line op (← operand.fold env)
  | .binary line op left right => do
    let l ← left.fold env
    let r ← right.fold env
    return foldBinary line op l r
  | .assign line _ _ _ => .error (.unsupported line .assignmentAsValue)
  | .update line _ _ _ => .error (.unsupported line .assignmentAsValue)

end TraceGraph.Expr
