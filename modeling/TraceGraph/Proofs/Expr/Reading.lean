import TraceGraph.Expr.Parser
import TraceGraph.Proofs.Outcome

/-!
# What the expression parsers return

The parsers carry a bound on the length of what they leave.  `reading` forgets
it, so that two results can be compared when their inputs differ.  For each
parser one equation says what it returns in terms of the others.
-/

namespace TraceGraph

/-! ## Results without bounds -/

/-- What a parser returns, without the bound on the rest. -/
def reading {α : Type} {n : Nat} (result : ParseResult α n) :
    Except Fault (α × List PlacedToken) :=
  result.map Parsed.erase

theorem reading_length_lt {α : Type} {n : Nat} {result : ParseResult α n} {value : α}
    {rest : List PlacedToken} (h : reading result = .ok (value, rest)) : rest.length < n := by
  cases result with
  | error => cases h
  | ok parsed =>
    cases h
    exact parsed.shorter

theorem reading_expectSymbol {endLine : Nat} {want : Symbol} {tokens rest : List PlacedToken} :
    reading (expectSymbol endLine want tokens) = .ok ((), rest) ↔
      ∃ line, tokens = ⟨.symbol want, line⟩ :: rest := by
  unfold expectSymbol
  split
  · rename_i mark line others
    split
    · rename_i hmark
      subst hmark
      constructor
      · intro h
        cases h
        exact ⟨line, rfl⟩
      · rintro ⟨_, h⟩
        cases h
        rfl
    · rename_i hmark
      constructor
      · intro h
        cases h
      · rintro ⟨_, h⟩
        cases h
        exact absurd rfl hmark
  · rename_i hother
    constructor
    · intro h
      cases h
    · rintro ⟨line, rfl⟩
      exact absurd rfl (hother _ _ _)

theorem reading_expectIdentifier {endLine : Nat} {name : String} {tokens rest : List PlacedToken} :
    reading (expectIdentifier endLine tokens) = .ok (name, rest) ↔
      ∃ line, tokens = ⟨.identifier name, line⟩ :: rest := by
  unfold expectIdentifier
  split
  · rename_i line _
    constructor
    · intro h
      cases h
      exact ⟨line, rfl⟩
    · rintro ⟨_, h⟩
      cases h
      rfl
  · rename_i hother
    constructor
    · intro h
      cases h
    · rintro ⟨line, rfl⟩
      exact absurd rfl (hother _ _ _)

/-! ## Expressions -/

/-- Keeps the right side of an equation out of the way of a case split on its left
side. -/
theorem eq_of_eq_right {α : Type} {a b : α} (h : ∀ right, right = b → a = right) : a = b :=
  h b rfl

namespace Expr

theorem reading_parse (endLine : Nat) (tokens : List PlacedToken) :
    reading (parse endLine tokens) =
      match tokens with
      | ⟨.identifier name, line⟩ :: ⟨.symbol mark, _⟩ :: rest =>
        match mark.assignOp? with
        | some op =>
          (reading (parse endLine rest)).map fun value => (.assign line op name value.1, value.2)
        | none => reading (parseBinary endLine 1 tokens)
      | _ => reading (parseBinary endLine 1 tokens) := by
  refine eq_of_eq_right fun right hright => ?_
  rw [parse.eq_def]
  split
  · split
    · rename_i rest _ _ hop
      simp only [hright, hop]
      cases parse endLine rest <;> rfl
    · rename_i hop
      simp only [hright, hop]
  · rename_i hother
    subst hright
    split
    · exact absurd rfl (hother _ _ _ _ _)
    · rfl

theorem reading_parseBinary (endLine least : Nat) (tokens : List PlacedToken) :
    reading (parseBinary endLine least tokens) =
      (reading (parseUnary endLine tokens)).bind fun left =>
        reading (climb endLine least left.1 left.2) := by
  rw [parseBinary]
  cases parseUnary endLine tokens with
  | error => rfl
  | ok left =>
    show reading (climb endLine least left.value left.rest >>= _)
      = reading (climb endLine least left.value left.rest)
    cases climb endLine least left.value left.rest <;> rfl

theorem reading_climb (endLine least : Nat) (left : Expr) (tokens : List PlacedToken) :
    reading (climb endLine least left tokens) =
      match tokens with
      | ⟨.symbol mark, _⟩ :: rest =>
        match mark.binaryOp? with
        | some op =>
          if op.precedence < least then .ok (left, tokens)
          else (reading (parseBinary endLine (op.precedence + 1) rest)).bind fun right =>
            reading (climb endLine least (.binary left.line op left right.1) right.2)
        | none => .ok (left, tokens)
      | _ => .ok (left, tokens) := by
  refine eq_of_eq_right fun right hright => ?_
  rw [climb.eq_def]
  split
  · rename_i rest
    split
    · rename_i op hop
      simp only [hright, hop]
      split
      · rfl
      · cases parseBinary endLine (op.precedence + 1) rest with
        | error => rfl
        | ok right =>
          let joined : Expr := .binary left.line op left right.value
          show reading (climb endLine least joined right.rest >>= _)
            = reading (climb endLine least joined right.rest)
          cases climb endLine least joined right.rest <;> rfl
    · rename_i hop
      simp only [hright, hop]
      rfl
  · rename_i hother
    subst hright
    split
    · exact absurd rfl (hother _ _ _)
    · rfl

/-- What a step after an operand makes of it. -/
def step (operand : Expr × List PlacedToken) : Except Fault (Expr × List PlacedToken) :=
  match operand.2 with
  | ⟨.symbol mark, line⟩ :: rest =>
    match mark.updateOp? with
    | none => .ok operand
    | some op =>
      match operand.1 with
      | .identifier start name => .ok (.update start op false name, rest)
      | _ => .error (.malformed line .invalidUpdateTarget)
  | _ => .ok operand

theorem reading_parseStep {n : Nat} (operand : Parsed PlacedToken Expr n) :
    reading (parseStep n operand) = step operand.erase := by
  obtain ⟨value, rest, hrest⟩ := operand
  cases rest with
  | nil => rfl
  | cons first rest =>
    obtain ⟨token, line⟩ := first
    cases token with
    | symbol mark =>
      simp only [parseStep, step, Parsed.erase]
      cases mark.updateOp? with
      | none => rfl
      | some op => cases value <;> rfl
    | _ => rfl

theorem reading_parseUnary (endLine : Nat) (tokens : List PlacedToken) :
    reading (parseUnary endLine tokens) =
      match tokens with
      | ⟨.symbol mark, line⟩ :: rest =>
        match mark.unaryOp?, mark.updateOp? with
        | some op, _ =>
          (reading (parseUnary endLine rest)).map fun operand =>
            (.unary line op operand.1, operand.2)
        | none, some op =>
          (reading (expectIdentifier endLine rest)).map fun target =>
            (.update line op true target.1, target.2)
        | none, none => (reading (parsePrimary endLine tokens)).bind step
      | _ => (reading (parsePrimary endLine tokens)).bind step := by
  have hprimary : ∀ ts : List PlacedToken,
      reading (parsePrimary endLine ts >>= parseStep _)
        = (reading (parsePrimary endLine ts)).bind step := by
    intro ts
    cases parsePrimary endLine ts with
    | error => rfl
    | ok operand => exact reading_parseStep operand
  refine eq_of_eq_right fun right hright => ?_
  rw [parseUnary.eq_def]
  split
  · rename_i rest
    split
    · rename_i hop
      simp only [hright, hop]
      cases parseUnary endLine rest <;> rfl
    · rename_i hop hupdate
      simp only [hright, hop, hupdate]
      cases expectIdentifier endLine rest <;> rfl
    · rename_i hop hupdate
      simp only [hright, hop, hupdate]
      exact hprimary _
  · rename_i hother
    subst hright
    split
    · exact absurd rfl (hother _ _ _)
    · exact hprimary _

theorem reading_parsePrimary (endLine : Nat) (tokens : List PlacedToken) :
    reading (parsePrimary endLine tokens) =
      match tokens with
      | [] => .error (.malformed endLine (.expectedExpression none))
      | ⟨token, line⟩ :: rest =>
        match token with
        | .number x => .ok (.literal line (.number x), rest)
        | .text s => .ok (.literal line (.text s), rest)
        | .keyword .trueWord => .ok (.literal line (.bool true), rest)
        | .keyword .falseWord => .ok (.literal line (.bool false), rest)
        | .identifier name =>
          if nextToken? rest = some (.symbol .leftParen) then
            .error (.unsupported line (.call name))
          else .ok (.identifier line name, rest)
        | .symbol .leftParen =>
          (reading (parse endLine rest)).bind fun inner =>
            (reading (expectSymbol endLine .rightParen inner.2)).map fun close =>
              (inner.1, close.2)
        | .keyword .functionWord => .error (.unsupported line .functionExpression)
        | .reserved word => .error (.unsupported line (.reservedExpression word))
        | other => .error (.malformed line (.expectedExpression (some other))) := by
  rw [parsePrimary.eq_def]
  split
  · rfl
  · rename_i token line rest
    cases token with
    | keyword word => cases word <;> rfl
    | identifier name =>
      dsimp only
      split <;> rfl
    | symbol mark =>
      cases mark with
      | leftParen =>
        dsimp only
        cases parse endLine rest with
        | error => rfl
        | ok inner =>
          show reading (expectSymbol endLine .rightParen inner.rest >>= _)
            = (reading (expectSymbol endLine .rightParen inner.rest)).map _
          cases expectSymbol endLine .rightParen inner.rest <;> rfl
      | _ => rfl
    | _ => rfl

end Expr

end TraceGraph
