import TraceGraph.Expr
import TraceGraph.Fault
import TraceGraph.Parsed

/-!
# Reading expressions

Assignments to a name bind loosest and group to the right.  Below them stand the
binary operators, which climb through their binding strengths and group to the
left, then the operators before an operand, steps by one, and the primary
expressions.

Every function takes the line that faults at the end of the input are reported
at.  Each one ends because it hands on a shorter list, or the same list to a
tighter level.
-/

namespace TraceGraph

/-- What an expression or statement parser returns for a list of tokens. -/
abbrev ParseResult (α : Type) (bound : Nat) :=
  Except Fault (Parsed PlacedToken α bound)

/-- The line of the first token, or `endLine` if there is none. -/
def lineAt (endLine : Nat) (tokens : List PlacedToken) : Nat :=
  (tokens.head?.map PlacedToken.line).getD endLine

/-- The first token. -/
def nextToken? (tokens : List PlacedToken) : Option Token :=
  tokens.head?.map PlacedToken.token

/-- Takes the given symbol. -/
def expectSymbol (endLine : Nat) (want : Symbol) :
    (tokens : List PlacedToken) → ParseResult Unit tokens.length
  | ⟨.symbol mark, line⟩ :: rest =>
    if mark = want then .ok (.leaving () rest)
    else .error (.malformed line (.expectedSymbol want (some (.symbol mark))))
  | tokens => .error (.malformed (lineAt endLine tokens) (.expectedSymbol want (nextToken? tokens)))

/-- Takes a name. -/
def expectIdentifier (endLine : Nat) :
    (tokens : List PlacedToken) → ParseResult String tokens.length
  | ⟨.identifier name, _⟩ :: rest => .ok (.leaving name rest)
  | tokens => .error (.malformed (lineAt endLine tokens) (.expectedIdentifier (nextToken? tokens)))

namespace Expr

/-- Turns a name followed by a step into that step.  Anything else before a step
is refused. -/
def parseStep (bound : Nat) (operand : Parsed PlacedToken Expr bound) : ParseResult Expr bound :=
  match h : operand.rest with
  | ⟨.symbol mark, line⟩ :: rest =>
    match mark.updateOp? with
    | none => .ok operand
    | some op =>
      match operand.value with
      | .identifier start name =>
        .ok ⟨.update start op false name, rest,
          by have := operand.shorter; rw [h, List.length_cons] at this; omega⟩
      | _ => .error (.malformed line .invalidUpdateTarget)
  | _ => .ok operand

mutual

/-- An assignment, or an expression that is none. -/
def parse (endLine : Nat) (tokens : List PlacedToken) : ParseResult Expr tokens.length :=
  match tokens with
  | ⟨.identifier name, line⟩ :: ⟨.symbol mark, markLine⟩ :: rest =>
    match mark.assignOp? with
    | some op => do
      let value ← parse endLine rest
      return ⟨.assign line op name value.value, value.rest,
        by have := value.shorter; simp only [List.length_cons]; omega⟩
    | none => parseBinary endLine 1 (⟨.identifier name, line⟩ :: ⟨.symbol mark, markLine⟩ :: rest)
  | tokens => parseBinary endLine 1 tokens
termination_by (tokens.length, 4)

/-- An operand, and as many operations as bind at least as tightly as
`least`. -/
def parseBinary (endLine least : Nat) (tokens : List PlacedToken) :
    ParseResult Expr tokens.length := do
  let left ← parseUnary endLine tokens
  have hleft := left.shorter
  let whole ← climb endLine least left.value left.rest
  return whole.weaken (by omega)
termination_by (tokens.length, 3)

/-- Operations that go on after `left`. -/
def climb (endLine least : Nat) (left : Expr) (tokens : List PlacedToken) :
    ParseResult Expr (tokens.length + 1) :=
  match tokens with
  | ⟨.symbol mark, line⟩ :: rest =>
    match mark.binaryOp? with
    | some op =>
      if op.precedence < least then .ok (.leaving left (⟨.symbol mark, line⟩ :: rest))
      else do
        let right ← parseBinary endLine (op.precedence + 1) rest
        have hright := right.shorter
        let whole ← climb endLine least (.binary left.line op left right.value) right.rest
        return whole.weaken (by simp only [List.length_cons]; omega)
    | none => .ok (.leaving left (⟨.symbol mark, line⟩ :: rest))
  | tokens => .ok (.leaving left tokens)
termination_by (tokens.length, 0)

/-- An operand with the operators before it. -/
def parseUnary (endLine : Nat) (tokens : List PlacedToken) : ParseResult Expr tokens.length :=
  match tokens with
  | ⟨.symbol mark, line⟩ :: rest =>
    match mark.unaryOp?, mark.updateOp? with
    | some op, _ => do
      let operand ← parseUnary endLine rest
      return ⟨.unary line op operand.value, operand.rest,
        by have := operand.shorter; simp only [List.length_cons]; omega⟩
    | none, some op => do
      let target ← expectIdentifier endLine rest
      return ⟨.update line op true target.value, target.rest,
        by have := target.shorter; simp only [List.length_cons]; omega⟩
    | none, none => do
      parseStep _ (← parsePrimary endLine (⟨.symbol mark, line⟩ :: rest))
  | tokens => do parseStep _ (← parsePrimary endLine tokens)
termination_by (tokens.length, 2)

/-- A literal, a name, or an expression in parentheses. -/
def parsePrimary (endLine : Nat) (tokens : List PlacedToken) : ParseResult Expr tokens.length :=
  match tokens with
  | [] => .error (.malformed endLine (.expectedExpression none))
  | ⟨token, line⟩ :: rest =>
    match token with
    | .number x => .ok (.leaving (.literal line (.number x)) rest)
    | .text s => .ok (.leaving (.literal line (.text s)) rest)
    | .keyword .trueWord => .ok (.leaving (.literal line (.bool true)) rest)
    | .keyword .falseWord => .ok (.leaving (.literal line (.bool false)) rest)
    | .identifier name =>
      if nextToken? rest = some (.symbol .leftParen) then
        .error (.unsupported line (.call name))
      else .ok (.leaving (.identifier line name) rest)
    | .symbol .leftParen => do
      let inner ← parse endLine rest
      let close ← expectSymbol endLine .rightParen inner.rest
      return ⟨inner.value, close.rest,
        by have := inner.shorter; have := close.shorter; simp only [List.length_cons]; omega⟩
    | .keyword .functionWord => .error (.unsupported line .functionExpression)
    | .reserved word => .error (.unsupported line (.reservedExpression word))
    | other => .error (.malformed line (.expectedExpression (some other)))
termination_by (tokens.length, 1)

end

end Expr

end TraceGraph
