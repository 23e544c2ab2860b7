import TraceGraph.Proofs.Moving
import TraceGraph.Proofs.Stmt.Relined

/-!
# Reading expressions on other lines

The expression parsers do not look at lines.  Moved to other lines, tokens give the
expression on these lines, or the fault there.
-/

namespace TraceGraph.Expr

variable (f : Nat → Nat)

theorem line_mapLines (e : Expr) : (e.mapLines f).line = f e.line := by
  cases e <;> rfl

theorem step_moved (operand : Expr × List PlacedToken) :
    step (moved f (mapLines f) operand) = relined f (moved f (mapLines f)) (step operand) := by
  obtain ⟨value, rest⟩ := operand
  cases rest with
  | nil => rfl
  | cons first rest =>
    obtain ⟨token, line⟩ := first
    cases token with
    | symbol mark =>
      simp only [step, moved, moveTokens, List.map_cons, PlacedToken.mapLine]
      cases mark.updateOp? with
      | none => rfl
      | some op => cases value <;> rfl
    | _ => rfl

mutual

/-- Tokens that are moved to other lines are read as the expression on these lines. -/
theorem parse_moveTokens (endLine : Nat) (tokens : List PlacedToken) :
    reading (parse (f endLine) (moveTokens f tokens))
      = relined f (moved f (mapLines f)) (reading (parse endLine tokens)) := by
  have hbinary := parseBinary_moveTokens endLine 1 tokens
  rw [reading_parse, reading_parse]
  cases tokens with
  | nil => exact hbinary
  | cons first rest =>
    obtain ⟨token, line⟩ := first
    cases token with
    | identifier name =>
      cases rest with
      | nil => exact hbinary
      | cons second rest =>
        obtain ⟨token, markLine⟩ := second
        cases token with
        | symbol mark =>
          have hvalue := parse_moveTokens endLine rest
          simp only [moveTokens, List.map_cons, PlacedToken.mapLine] at hbinary hvalue ⊢
          cases mark.assignOp? with
          | none => exact hbinary
          | some op =>
            dsimp only
            rw [hvalue]
            exact relined_map fun _ _ => rfl
        | _ => exact hbinary
    | _ => exact hbinary
termination_by (tokens.length, 4)

theorem parseBinary_moveTokens (endLine least : Nat) (tokens : List PlacedToken) :
    reading (parseBinary (f endLine) least (moveTokens f tokens))
      = relined f (moved f (mapLines f)) (reading (parseBinary endLine least tokens)) := by
  rw [reading_parseBinary, reading_parseBinary, parseUnary_moveTokens endLine tokens]
  refine relined_bind fun left hleft => ?_
  have hshort := reading_length_lt hleft
  exact climb_moveTokens endLine least left.1 left.2
termination_by (tokens.length, 3)

theorem climb_moveTokens (endLine least : Nat) (left : Expr) (tokens : List PlacedToken) :
    reading (climb (f endLine) least (left.mapLines f) (moveTokens f tokens))
      = relined f (moved f (mapLines f)) (reading (climb endLine least left tokens)) := by
  rw [reading_climb, reading_climb]
  cases tokens with
  | nil => rfl
  | cons first rest =>
    obtain ⟨token, line⟩ := first
    cases token with
    | symbol mark =>
      simp only [moveTokens, List.map_cons, PlacedToken.mapLine]
      cases mark.binaryOp? with
      | none => rfl
      | some op =>
        dsimp only
        by_cases hlow : op.precedence < least
        · rw [if_pos hlow, if_pos hlow]
          rfl
        · rw [if_neg hlow, if_neg hlow]
          have hright := parseBinary_moveTokens endLine (op.precedence + 1) rest
          rw [moveTokens] at hright
          rw [hright]
          refine relined_bind fun right hread => ?_
          have hshort := reading_length_lt hread
          rw [line_mapLines]
          exact climb_moveTokens endLine least (.binary left.line op left right.1) right.2
    | _ => rfl
termination_by (tokens.length, 0)

theorem parseUnary_moveTokens (endLine : Nat) (tokens : List PlacedToken) :
    reading (parseUnary (f endLine) (moveTokens f tokens))
      = relined f (moved f (mapLines f)) (reading (parseUnary endLine tokens)) := by
  have hprimary : (reading (parsePrimary (f endLine) (moveTokens f tokens))).bind step
      = relined f (moved f (mapLines f)) ((reading (parsePrimary endLine tokens)).bind step) := by
    rw [parsePrimary_moveTokens endLine tokens]
    exact relined_bind fun operand _ => step_moved f operand
  rw [reading_parseUnary, reading_parseUnary]
  cases tokens with
  | nil => exact hprimary
  | cons first rest =>
    obtain ⟨token, line⟩ := first
    cases token with
    | symbol mark =>
      have hoperand := parseUnary_moveTokens endLine rest
      have htarget := expectIdentifier_moveTokens f endLine rest
      simp only [moveTokens, List.map_cons, PlacedToken.mapLine] at hprimary hoperand htarget ⊢
      cases mark.unaryOp? with
      | some op =>
        dsimp only
        rw [hoperand]
        exact relined_map fun _ _ => rfl
      | none =>
        cases mark.updateOp? with
        | some op =>
          dsimp only
          rw [htarget]
          exact relined_map fun _ _ => rfl
        | none => exact hprimary
    | _ => exact hprimary
termination_by (tokens.length, 2)

theorem parsePrimary_moveTokens (endLine : Nat) (tokens : List PlacedToken) :
    reading (parsePrimary (f endLine) (moveTokens f tokens))
      = relined f (moved f (mapLines f)) (reading (parsePrimary endLine tokens)) := by
  rw [reading_parsePrimary, reading_parsePrimary]
  cases tokens with
  | nil => rfl
  | cons first rest =>
    obtain ⟨token, line⟩ := first
    cases token with
    | keyword word => cases word <;> rfl
    | identifier name =>
      have hnext := nextToken?_moveTokens f rest
      simp only [moveTokens, List.map_cons, PlacedToken.mapLine] at hnext ⊢
      rw [hnext]
      split <;> rfl
    | symbol mark =>
      cases mark with
      | leftParen =>
        have hinner := parse_moveTokens endLine rest
        simp only [moveTokens, List.map_cons, PlacedToken.mapLine] at hinner ⊢
        rw [hinner]
        refine relined_bind fun inner _ => ?_
        show (reading (expectSymbol (f endLine) .rightParen (moveTokens f inner.2))).map _ = _
        rw [expectSymbol_moveTokens]
        exact relined_map fun _ _ => rfl
      | _ => rfl
    | _ => rfl
termination_by (tokens.length, 1)

end

end TraceGraph.Expr
