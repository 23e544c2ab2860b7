import TraceGraph.Expr

/-!
# Expressions as text

Operands are put in parentheses only where their binding strength asks for it.
A sign directly before the same sign is set apart by a blank, since the two
would read as a step by one.
-/

namespace TraceGraph.Expr

/-- Binding strength of operators before an operand. -/
def unaryPrecedence : Nat := 7

/-- Binding strength of steps by one. -/
def updatePrecedence : Nat := 8

/-- Binding strength of what needs no parentheses anywhere. -/
def primaryPrecedence : Nat := 9

/-- Binding strength of the outermost part of the expression.  A negative number
is written with a sign, so it binds like one. -/
def precedence : Expr → Nat
  | .assign .. => 0
  | .binary _ op _ _ => op.precedence
  | .unary .. => unaryPrecedence
  | .update .. => updatePrecedence
  | .literal _ (.number x) => if x < 0.0 then unaryPrecedence else primaryPrecedence
  | .literal .. | .identifier .. => primaryPrecedence

/-- The text, in parentheses if asked for. -/
def wrapIf (wrap : Bool) (text : String) : String :=
  if wrap then "(" ++ text ++ ")" else text

/-- A blank if the operand would otherwise run into the sign before it. -/
def signGap (op : UnaryOp) (operand : String) : String :=
  if op ≠ .not ∧ op.spelling.toList.isPrefixOf operand.toList then " " else ""

/-- The expression as source text. -/
def render : Expr → String
  | .literal _ value => value.render
  | .identifier _ name => name
  | .unary _ op operand =>
    let inner := wrapIf (operand.precedence < unaryPrecedence) operand.render
    op.spelling ++ signGap op inner ++ inner
  | .binary _ op left right =>
    wrapIf (left.precedence < op.precedence) left.render ++ " " ++ op.spelling ++ " "
      ++ wrapIf (right.precedence ≤ op.precedence) right.render
  | .assign _ op target value => target ++ " " ++ op.spelling ++ " " ++ value.render
  | .update _ op true target => op.spelling ++ target
  | .update _ op false target => target ++ op.spelling

end TraceGraph.Expr
