/-!
# Results of parsing steps

A parsing step takes something off the front of a list and leaves a shorter
list.  `Parsed` carries the proof of that along, so that parsers are plain
recursive functions that end because the list runs out.
-/

namespace TraceGraph

/-- A value read off the front of a list, and the rest of the list, which is
shorter than `bound`. -/
structure Parsed (τ α : Type) (bound : Nat) where
  value : α
  rest : List τ
  shorter : rest.length < bound

namespace Parsed

variable {τ α β : Type} {m n : Nat}

/-- A value with a list that is left over, under the least bound. -/
def leaving (value : α) (rest : List τ) : Parsed τ α (rest.length + 1) :=
  ⟨value, rest, Nat.lt_succ_self _⟩

/-- The same result when one more element stood in front. -/
def succ (p : Parsed τ α n) : Parsed τ α (n + 1) :=
  ⟨p.value, p.rest, Nat.lt_succ_of_lt p.shorter⟩

/-- The same result under a larger bound. -/
def weaken (p : Parsed τ α m) (h : m ≤ n) : Parsed τ α n :=
  ⟨p.value, p.rest, Nat.lt_of_lt_of_le p.shorter h⟩

/-- The same result with another value. -/
def map (f : α → β) (p : Parsed τ α n) : Parsed τ β n :=
  ⟨f p.value, p.rest, p.shorter⟩

/-- The value and the rest, without the proof. -/
def erase (p : Parsed τ α n) : α × List τ :=
  (p.value, p.rest)

@[simp] theorem erase_leaving (value : α) (rest : List τ) :
    (leaving value rest).erase = (value, rest) := rfl

@[simp] theorem erase_succ (p : Parsed τ α n) : p.succ.erase = p.erase := rfl

@[simp] theorem erase_weaken (p : Parsed τ α m) (h : m ≤ n) : (p.weaken h).erase = p.erase := rfl

@[simp] theorem erase_map (f : α → β) (p : Parsed τ α n) :
    (p.map f).erase = (f p.value, p.rest) := rfl

end Parsed

end TraceGraph
