import TraceGraph.Graph.Segment
import TraceGraph.Proofs.Stmt.Folding
import TraceGraph.Proofs.Stmt.Relined
import TraceGraph.Stmt.Lines

/-!
# What folding leaves as it was

Folding rewrites expressions and nothing else.  The outline of a statement is what
remains of it when of every expression only the line is kept: the kinds of the
statements, their nesting, their names and all their lines.

* `Stmt.outline_fold`: folding keeps the outline, also where a fault stops it.
* `Stmt.firstLine_outline`, `Stmt.nestedFunction?_outline` and the others of their
  kind: what can be read off the outline.
-/

namespace TraceGraph

/-! ## Expressions -/

namespace Expr

/-- An expression of which only the line is kept. -/
def anchor (e : Expr) : Expr :=
  .literal e.line (.bool false)

theorem anchor_eq_anchor {e e' : Expr} : e.anchor = e'.anchor ↔ e.line = e'.line := by
  simp [anchor]

/-- A folded expression stands where the expression stood. -/
theorem line_fold {e v : Expr} {env : Env} (h : e.fold env = .ok v) : v.line = e.line := by
  cases e with
  | literal =>
    cases h
    rfl
  | identifier line name =>
    obtain ⟨bound, -, rfl⟩ := fold_identifier_eq_ok.1 h
    exact line_withLine line bound
  | unary line op operand =>
    obtain ⟨a, -, rfl⟩ := fold_unary_eq_ok.1 h
    unfold foldUnary
    split <;> rfl
  | binary line op left right =>
    obtain ⟨l, r, -, -, rfl⟩ := fold_binary_eq_ok.1 h
    unfold foldBinary
    split <;> rfl
  | assign => cases h
  | update => cases h

theorem anchor_fold {e v : Expr} {env : Env} (h : e.fold env = .ok v) : v.anchor = e.anchor :=
  anchor_eq_anchor.2 (line_fold h)

end Expr

namespace Stmt

/-- The statement with nothing kept of its expressions but their lines. -/
def outline (s : Stmt) : Stmt :=
  s.map id Expr.anchor

/-- The outlines of the statements of a list. -/
def outlines (body : List Stmt) : List Stmt :=
  mapAll id Expr.anchor body

@[simp] theorem outlines_cons (s : Stmt) (rest : List Stmt) :
    outlines (s :: rest) = s.outline :: outlines rest := rfl

/-! ## Folding keeps the outline -/

private theorem outline_foldDeclarators (declarators : List Declarator) (env : Env) :
    (foldDeclarators declarators env).result.map (Declarator.map id Expr.anchor)
      = declarators.map (Declarator.map id Expr.anchor) := by
  induction declarators generalizing env with
  | nil => rfl
  | cons d rest ih =>
    obtain ⟨name, init, line⟩ := d
    cases init with
    | none => exact congrArg (Declarator.map id Expr.anchor ⟨name, none, line⟩ :: ·) (ih _)
    | some init =>
      simp only [foldDeclarators]
      cases hfold : init.fold env with
      | error fault => rfl
      | ok value =>
        simp only [Folded.map, List.map_cons, ih, Declarator.map, Option.map_some,
          Expr.anchor_fold hfold]

private theorem outline_foldExpression (line : Nat) (expr : Expr) (env : Env) :
    (foldExpression line expr env).result.outline = (Stmt.expression line expr).outline := by
  unfold foldExpression
  split
  · rename_i start op target value
    cases hfold : value.fold env with
    | error fault => rfl
    | ok v =>
      dsimp only
      split <;> rfl
  · rfl
  · cases hfold : expr.fold env with
    | error fault => rfl
    | ok v => exact congrArg (Stmt.expression line) (Expr.anchor_fold hfold)

private theorem outline_foldExit (line : Nat) (result : Option Expr) (env : Env) :
    (foldExit line result env).result.outline = (Stmt.exit line result).outline := by
  cases result with
  | none => rfl
  | some expr =>
    simp only [foldExit]
    cases hfold : expr.fold env with
    | error fault => rfl
    | ok v => exact congrArg (Stmt.exit line ∘ some) (Expr.anchor_fold hfold)

mutual

/-- A folded statement has the outline of the statement, however far folding got. -/
theorem outline_fold : (s : Stmt) → (env : Env) → (fold s env).result.outline = s.outline
  | .function line name params bodyLine body, env =>
    congrArg (Stmt.function line name params bodyLine) (outlines_foldAll body _)
  | .block line body, env => congrArg (Stmt.block line) (outlines_foldAll body env)
  | .expression line expr, env => outline_foldExpression line expr env
  | .declare line kind declarators, env =>
    congrArg (Stmt.declare line kind) (outline_foldDeclarators declarators env)
  | .ifThen line test consequent, env => by
    rw [fold]
    cases hfold : test.fold env with
    | error fault => rfl
    | ok value =>
      show Stmt.ifThen line value.anchor (fold consequent env).result.outline = _
      rw [Expr.anchor_fold hfold, outline_fold consequent env]
      rfl
  | .ifElse line test consequent alternate, env => by
    rw [fold]
    cases hfold : test.fold env with
    | error fault => rfl
    | ok value =>
      dsimp only
      split
      · show Stmt.ifElse line value.anchor (fold consequent env).result.outline
          alternate.outline = _
        rw [Expr.anchor_fold hfold, outline_fold consequent env]
        rfl
      · show Stmt.ifElse line value.anchor (fold consequent env).result.outline
          (fold alternate env).result.outline = _
        rw [Expr.anchor_fold hfold, outline_fold consequent env, outline_fold alternate env]
        rfl
  | .loop line test body, env => by
    rw [fold]
    cases hfold : test.fold env with
    | error fault => rfl
    | ok value => exact congrArg (Stmt.loop line test.anchor) (outline_fold body env)
  | .exit line result, env => outline_foldExit line result env

/-- Folded statements have the outlines of the statements. -/
theorem outlines_foldAll : (body : List Stmt) → (env : Env) →
    outlines (foldAll body env).result = outlines body
  | [], _ => rfl
  | s :: rest, env => by
    rw [foldAll]
    split
    · show (fold s env).result.outline :: outlines rest = _
      rw [outline_fold s env]
      rfl
    · show (fold s env).result.outline :: outlines (foldAll rest (fold s env).env).result = _
      rw [outline_fold s env, outlines_foldAll rest]
      rfl

end

/-! ## What the outline shows -/

@[simp] theorem line_outline (s : Stmt) : s.outline.line = s.line := by
  cases s <;> rfl

@[simp] theorem firstLine_outline : (s : Stmt) → s.outline.firstLine = s.firstLine
  | .block _ (s :: _) => firstLine_outline s
  | .block _ [] => rfl
  | .function .. | .expression .. | .declare .. | .ifThen .. | .ifElse .. | .loop .. | .exit .. =>
    rfl

@[simp] theorem isConditional_outline (s : Stmt) : s.outline.isConditional = s.isConditional := by
  cases s <;> rfl

@[simp] theorem asNestedFunction?_outline (s : Stmt) :
    s.outline.asNestedFunction? = s.asNestedFunction? := by
  cases s <;> rfl

mutual

@[simp] theorem nestedFunction?_outline : (s : Stmt) →
    s.outline.nestedFunction? = s.nestedFunction?
  | .block _ body => nestedFunctionIn?_outlines body
  | .ifThen _ _ consequent => nestedFunction?_outline consequent
  | .ifElse _ _ consequent alternate => by
    show consequent.outline.nestedFunction?.or alternate.outline.nestedFunction? = _
    rw [nestedFunction?_outline consequent, nestedFunction?_outline alternate]
    rfl
  | .loop _ _ body => nestedFunction?_outline body
  | .function .. | .expression .. | .declare .. | .exit .. => rfl

theorem nestedFunctionIn?_outlines : (body : List Stmt) →
    nestedFunctionIn? (outlines body) = nestedFunctionIn? body
  | [] => rfl
  | s :: rest => by
    show s.outline.nestedFunction?.or (nestedFunctionIn? (outlines rest)) = _
    rw [nestedFunction?_outline s, nestedFunctionIn?_outlines rest]
    rfl

end

end Stmt

end TraceGraph
