import TraceGraph.Expr

/-!
# Environments

What is known about names while statements are folded.  An environment is the
log of the bindings made into it, newest first.  The newest binding of a name is
the one that counts, and the length of the log tells whether anything has been
written since.
-/

namespace TraceGraph

/-- Bindings of names to expressions, newest first. -/
structure Env where
  log : List (String × Expr)
deriving DecidableEq, Repr, Inhabited

namespace Env

/-- The environment without bindings. -/
def empty : Env := ⟨[]⟩

/-- The expression that a name is bound to. -/
def get? (env : Env) (name : String) : Option Expr :=
  env.log.lookup name

/-- Whether a name is bound. -/
def contains (env : Env) (name : String) : Bool :=
  (env.get? name).isSome

/-- The names that are bound, each of them once. -/
def names (env : Env) : List String :=
  (env.log.map Prod.fst).eraseDups

/-- The number of names that are bound. -/
def size (env : Env) : Nat :=
  env.names.length

/-- Binds a name, in place of what it was bound to. -/
def bind (env : Env) (name : String) (value : Expr) : Env :=
  ⟨(name, value) :: env.log⟩

/-- Binds a name to itself.  This stands for a value that is not known. -/
def bindPlaceholder (env : Env) (line : Nat) (name : String) : Env :=
  env.bind name (.identifier line name)

/-- Binds a name to a known value. -/
def bindLiteral (env : Env) (line : Nat) (name : String) (value : Literal) : Env :=
  env.bind name (.literal line value)

@[simp] theorem get?_empty (name : String) : empty.get? name = none := rfl

@[simp] theorem get?_bind_self (env : Env) (name : String) (value : Expr) :
    (env.bind name value).get? name = some value := by
  simp [get?, bind]

theorem get?_bind_of_ne (env : Env) {name other : String} (value : Expr) (hne : other ≠ name) :
    (env.bind name value).get? other = env.get? other := by
  have hbeq : (other == name) = false := by simpa using hne
  rw [get?, bind, List.lookup_cons, hbeq]
  rfl

end Env

end TraceGraph
