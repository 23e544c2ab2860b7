import TraceGraph.Proofs.Expr.Reading

/-!
# Tokens on other lines

A source text that is laid out differently has the same tokens on other lines.  Here
`f` says where each line goes.  It may put several lines on one.

* `Fault.mapLine` and `relined`: a fault, and the outcome of a computation that can
  fail, on other lines.
* `relined_bind` and `relined_map`: computations in several steps are relined step by
  step.
* `moveTokens` and `moved`: tokens, and what a parser returns, on other lines.
-/

namespace TraceGraph

variable (f : Nat → Nat)

/-! ## Outcomes -/

/-- The fault with its line changed. -/
def Fault.mapLine : Fault → Fault
  | .malformed line cause => .malformed (f line) cause
  | .unbound name line => .unbound name (f line)
  | .unsupported line construct => .unsupported (f line) construct
  | .badArguments cause => .badArguments cause

/-- The outcome with its result changed by `g`, or else with the line of its fault
changed. -/
def relined {α β : Type} (g : α → β) : Except Fault α → Except Fault β
  | .ok a => .ok (g a)
  | .error fault => .error (fault.mapLine f)

section

variable {f} {α α' β β' : Type} {g : α → α'} {h : β → β'} {x : Except Fault α}

theorem relined_bind {k : α → Except Fault β} {k' : α' → Except Fault β'}
    (hk : ∀ a, x = .ok a → k' (g a) = relined f h (k a)) :
    (relined f g x).bind k' = relined f h (x.bind k) := by
  cases x with
  | error fault => rfl
  | ok a => exact hk a rfl

theorem relined_map {k : α → β} {k' : α' → β'} (hk : ∀ a, x = .ok a → k' (g a) = h (k a)) :
    (relined f g x).map k' = relined f h (x.map k) := by
  cases x with
  | error fault => rfl
  | ok a => exact congrArg Except.ok (hk a rfl)

end

/-! ## Tokens -/

/-- The token on another line. -/
def PlacedToken.mapLine (t : PlacedToken) : PlacedToken :=
  ⟨t.token, f t.line⟩

/-- The tokens on other lines. -/
def moveTokens (tokens : List PlacedToken) : List PlacedToken :=
  tokens.map (PlacedToken.mapLine f)

/-- What a parser returns, with the value changed by `g` and the tokens that are left on
other lines. -/
def moved {α β : Type} (g : α → β) (p : α × List PlacedToken) : β × List PlacedToken :=
  (g p.1, moveTokens f p.2)

theorem nextToken?_moveTokens (tokens : List PlacedToken) :
    nextToken? (moveTokens f tokens) = nextToken? tokens := by
  cases tokens <;> rfl

theorem lineAt_moveTokens (endLine : Nat) (tokens : List PlacedToken) :
    lineAt (f endLine) (moveTokens f tokens) = f (lineAt endLine tokens) := by
  cases tokens <;> rfl

theorem expectSymbol_moveTokens (endLine : Nat) (want : Symbol) (tokens : List PlacedToken) :
    reading (expectSymbol (f endLine) want (moveTokens f tokens))
      = relined f (moved f id) (reading (expectSymbol endLine want tokens)) := by
  cases tokens with
  | nil => rfl
  | cons first rest =>
    obtain ⟨token, line⟩ := first
    cases token with
    | symbol mark =>
      show reading (expectSymbol (f endLine) want (⟨.symbol mark, f line⟩ :: moveTokens f rest)) = _
      simp only [expectSymbol]
      by_cases hmark : mark = want
      · rw [if_pos hmark, if_pos hmark]
        rfl
      · rw [if_neg hmark, if_neg hmark]
        rfl
    | _ => rfl

theorem expectIdentifier_moveTokens (endLine : Nat) (tokens : List PlacedToken) :
    reading (expectIdentifier (f endLine) (moveTokens f tokens))
      = relined f (moved f id) (reading (expectIdentifier endLine tokens)) := by
  cases tokens with
  | nil => rfl
  | cons first rest =>
    obtain ⟨token, line⟩ := first
    cases token <;> rfl

end TraceGraph
