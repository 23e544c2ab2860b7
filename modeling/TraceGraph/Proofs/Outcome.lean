import TraceGraph.Fault

/-!
# Computations that can fail

When a computation in several steps gives a result, each of its steps gave one.
-/

namespace TraceGraph

theorem bind_eq_ok_iff {α β : Type} {x : Except Fault α} {f : α → Except Fault β} {b : β} :
    x.bind f = .ok b ↔ ∃ a, x = .ok a ∧ f a = .ok b := by
  cases x with
  | error => simp [Except.bind]
  | ok a => simp [Except.bind]

theorem map_eq_ok_iff {α β : Type} {x : Except Fault α} {f : α → β} {b : β} :
    x.map f = .ok b ↔ ∃ a, x = .ok a ∧ f a = b := by
  cases x with
  | error => simp [Except.map]
  | ok a => simp [Except.map]

theorem map_eq_bind {α β : Type} (x : Except Fault α) (f : α → β) :
    x.map f = x.bind fun a => .ok (f a) := by
  cases x <;> rfl

theorem bind_bind {α β γ : Type} (x : Except Fault α) (f : α → Except Fault β)
    (g : β → Except Fault γ) : (x.bind f).bind g = x.bind fun a => (f a).bind g := by
  cases x <;> rfl

end TraceGraph
