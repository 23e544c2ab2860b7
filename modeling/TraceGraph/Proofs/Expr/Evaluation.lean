import TraceGraph.Proofs.Stmt.Folding

/-!
# Values of expressions

Folding computes an operator only on numbers that stand for one and on booleans.
What operators do to texts and to NaN is left open: `Operators` is any meaning of
them that agrees with folding wherever folding computes.

* `Expr.evaluate`: the value of an expression, given the values of names.
* `Expr.evaluate_foldUnary` and `Expr.evaluate_foldBinary`: computing an operator
  while folding does not change the value.
-/

namespace TraceGraph

/-- A meaning of the operators on all literals.  On operands that folding computes
with, it is what folding computes. -/
structure Operators where
  unary : UnaryOp → Literal → Literal
  binary : BinaryOp → Literal → Literal → Literal
  unary_eq : ∀ op operand, operand.foldable = true → unary op operand = op.apply operand
  binary_eq : ∀ op left right, left.foldable = true → right.foldable = true →
    binary op left right = op.apply left right

/-- The values of names, as far as they have one. -/
def Store := String → Option Literal

namespace Store

/-- No name has a value. -/
def empty : Store := fun _ => none

/-- Gives a name a value, in place of the one that it had. -/
def set (store : Store) (name : String) (value : Literal) : Store :=
  fun other => if other = name then some value else store other

theorem set_self (store : Store) (name : String) (value : Literal) :
    store.set name value name = some value :=
  if_pos rfl

theorem set_of_ne (store : Store) {name other : String} (value : Literal) (hne : other ≠ name) :
    store.set name value other = store other :=
  if_neg hne

end Store

namespace Expr

/-- The value of an expression.  An assignment or a step by one has none, and
neither has an expression with a name that has none. -/
def evaluate (ops : Operators) (store : Store) : Expr → Option Literal
  | .literal _ value => some value
  | .identifier _ name => store name
  | .unary _ op operand => (operand.evaluate ops store).map (ops.unary op)
  | .binary _ op left right => do
    let l ← left.evaluate ops store
    let r ← right.evaluate ops store
    return ops.binary op l r
  | .assign .. => none
  | .update .. => none

/-- The names that an expression reads.  A compound assignment reads its target, and
so does a step by one. -/
def reads : Expr → List String
  | .literal .. => []
  | .identifier _ name => [name]
  | .unary _ _ operand => operand.reads
  | .binary _ _ left right => left.reads ++ right.reads
  | .assign _ op target value =>
    if op.arithmetic?.isSome then target :: value.reads else value.reads
  | .update _ _ _ target => [target]

/-- The names that an expression writes. -/
def writes : Expr → List String
  | .literal .. | .identifier .. => []
  | .unary _ _ operand => operand.writes
  | .binary _ _ left right => left.writes ++ right.writes
  | .assign _ _ target value => target :: value.writes
  | .update _ _ _ target => [target]

variable {ops : Operators}

theorem evaluate_binary {store : Store} {line : Nat} {op : BinaryOp} {left right : Expr}
    {l r : Literal} (hl : left.evaluate ops store = some l)
    (hr : right.evaluate ops store = some r) :
    (Expr.binary line op left right).evaluate ops store = some (ops.binary op l r) := by
  rw [evaluate, hl, hr]
  rfl

theorem evaluate_withLine (store : Store) (n : Nat) (e : Expr) :
    (e.withLine n).evaluate ops store = e.evaluate ops store := by
  cases e <;> rfl

theorem evaluate_foldUnary (store : Store) (line : Nat) (op : UnaryOp) (operand : Expr) :
    (foldUnary line op operand).evaluate ops store
      = (Expr.unary line op operand).evaluate ops store := by
  cases hvalue : operand.foldable? with
  | none => simp only [foldUnary, hvalue]
  | some value =>
    obtain ⟨start, rfl, hfoldable⟩ := foldable?_eq_some hvalue
    simp only [foldUnary, hvalue, evaluate, Option.map_some, ops.unary_eq op value hfoldable]

theorem evaluate_foldBinary (store : Store) (line : Nat) (op : BinaryOp) (left right : Expr) :
    (foldBinary line op left right).evaluate ops store
      = (Expr.binary line op left right).evaluate ops store := by
  cases hleft : left.foldable? with
  | none => simp only [foldBinary, hleft]
  | some l =>
    cases hright : right.foldable? with
    | none => simp only [foldBinary, hleft, hright]
    | some r =>
      obtain ⟨_, rfl, hl⟩ := foldable?_eq_some hleft
      obtain ⟨_, rfl, hr⟩ := foldable?_eq_some hright
      rw [evaluate_binary rfl rfl, ops.binary_eq op l r hl hr]
      simp only [foldBinary, hleft, hright, evaluate]

/-- An expression that has a value where no name has one reads no names, and has
that value everywhere. -/
theorem evaluate_of_empty {e : Expr} {v : Literal} (h : e.evaluate ops .empty = some v) :
    e.reads = [] ∧ ∀ store, e.evaluate ops store = some v := by
  induction e generalizing v with
  | literal => exact ⟨rfl, fun _ => h⟩
  | identifier => cases h
  | unary line op operand ih =>
    obtain ⟨value, hvalue, rfl⟩ := Option.map_eq_some_iff.1 h
    obtain ⟨hreads, hall⟩ := ih hvalue
    exact ⟨hreads, fun store => Option.map_eq_some_iff.2 ⟨value, hall store, rfl⟩⟩
  | binary line op left right ihl ihr =>
    obtain ⟨l, hl, h⟩ := Option.bind_eq_some_iff.1 h
    obtain ⟨r, hr, h⟩ := Option.bind_eq_some_iff.1 h
    cases h
    obtain ⟨hreadsl, halll⟩ := ihl hl
    obtain ⟨hreadsr, hallr⟩ := ihr hr
    refine ⟨?_, fun store => evaluate_binary (halll store) (hallr store)⟩
    rw [reads, hreadsl, hreadsr]
    rfl
  | assign => cases h
  | update => cases h

end Expr

end TraceGraph
