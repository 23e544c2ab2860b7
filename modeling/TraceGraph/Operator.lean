import TraceGraph.Literal

/-!
# Operators

The operators of expressions with their spelling, their binding strength and
their value on literals.  A compound assignment carries the arithmetic that it
performs before storing.
-/

namespace TraceGraph

/-- Operators before one operand. -/
inductive UnaryOp where
  | neg
  | plus
  | not
deriving DecidableEq, Repr, Inhabited

/-- Operators between two operands. -/
inductive BinaryOp where
  | add
  | sub
  | mul
  | div
  | rem
  | less
  | lessEqual
  | greater
  | greaterEqual
  | equal
  | notEqual
  | strictEqual
  | strictNotEqual
  | and
  | or
deriving DecidableEq, Repr, Inhabited

/-- Operators that store into a name. -/
inductive AssignOp where
  | assign
  | addAssign
  | subAssign
  | mulAssign
  | divAssign
  | remAssign
deriving DecidableEq, Repr, Inhabited

/-- Operators that step a name by one. -/
inductive UpdateOp where
  | increment
  | decrement
deriving DecidableEq, Repr, Inhabited

/-! ## Unary operators -/

/-- How the operator is written. -/
def UnaryOp.spelling : UnaryOp → String
  | .neg => "-"
  | .plus => "+"
  | .not => "!"

/-- The value of the operator on a literal. -/
def UnaryOp.apply (op : UnaryOp) (operand : Literal) : Literal :=
  match op with
  | .neg => .number (-operand.toNumber)
  | .plus => .number operand.toNumber
  | .not => .bool (!operand.truthy)

/-! ## Binary operators -/

namespace BinaryOp

/-- How the operator is written. -/
def spelling : BinaryOp → String
  | .add => "+"
  | .sub => "-"
  | .mul => "*"
  | .div => "/"
  | .rem => "%"
  | .less => "<"
  | .lessEqual => "<="
  | .greater => ">"
  | .greaterEqual => ">="
  | .equal => "=="
  | .notEqual => "!="
  | .strictEqual => "==="
  | .strictNotEqual => "!=="
  | .and => "&&"
  | .or => "||"

/-- Binding strength.  A greater number binds tighter. -/
def precedence : BinaryOp → Nat
  | .or => 1
  | .and => 2
  | .equal | .notEqual | .strictEqual | .strictNotEqual => 3
  | .less | .lessEqual | .greater | .greaterEqual => 4
  | .add | .sub => 5
  | .mul | .div | .rem => 6

/-- The value of the operator on two literals.  Comparisons are numeric, the
strict ones also ask for values of one kind, and the logical operators select
one of their operands. -/
def apply (op : BinaryOp) (left right : Literal) : Literal :=
  let l := left.toNumber
  let r := right.toNumber
  match op with
  | .add => .number (l + r)
  | .sub => .number (l - r)
  | .mul => .number (l * r)
  | .div => .number (l / r)
  | .rem => .number (Number.remainder l r)
  | .less => .bool (l < r)
  | .lessEqual => .bool (l ≤ r)
  | .greater => .bool (r < l)
  | .greaterEqual => .bool (r ≤ l)
  | .equal => .bool (l == r)
  | .notEqual => .bool (!(l == r))
  | .strictEqual => .bool (left.sameKind right && l == r)
  | .strictNotEqual => .bool (!(left.sameKind right && l == r))
  | .and => if left.truthy then right else left
  | .or => if left.truthy then left else right

end BinaryOp

/-! ## Assignments and updates -/

/-- How the operator is written. -/
def AssignOp.spelling : AssignOp → String
  | .assign => "="
  | .addAssign => "+="
  | .subAssign => "-="
  | .mulAssign => "*="
  | .divAssign => "/="
  | .remAssign => "%="

/-- The arithmetic of a compound assignment. -/
def AssignOp.arithmetic? : AssignOp → Option BinaryOp
  | .assign => none
  | .addAssign => some .add
  | .subAssign => some .sub
  | .mulAssign => some .mul
  | .divAssign => some .div
  | .remAssign => some .rem

/-- How the operator is written. -/
def UpdateOp.spelling : UpdateOp → String
  | .increment => "++"
  | .decrement => "--"

end TraceGraph
