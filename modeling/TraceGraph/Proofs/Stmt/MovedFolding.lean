import TraceGraph.Proofs.Stmt.Moving
import TraceGraph.Proofs.Stmt.NormalForm

/-!
# Folding on other lines

Folding puts lines into its results and its faults and looks at none of them.  So
folding on other lines gives the same result there, or stops with the same fault there.

* `Env.mapLines` and `Folded.mapLines`: bindings, and what folding has done, on other
  lines.
* `Expr.fold_mapLines`, `Stmt.fold_mapLines` and `Stmt.foldAll_mapLines`: folding
  commutes with moving to other lines.
-/

namespace TraceGraph

variable (f : Nat → Nat)

/-! ## Bindings -/

namespace Env

/-- The bindings with all lines in them changed. -/
def mapLines (env : Env) : Env :=
  ⟨env.log.map fun binding => (binding.1, binding.2.mapLines f)⟩

theorem get?_mapLines (env : Env) (name : String) :
    (env.mapLines f).get? name = (env.get? name).map (Expr.mapLines f) := by
  obtain ⟨log⟩ := env
  induction log with
  | nil => rfl
  | cons binding rest ih =>
    show List.lookup name ((binding.1, binding.2.mapLines f) :: _)
      = (List.lookup name (binding :: rest)).map _
    rw [List.lookup_cons, List.lookup_cons]
    cases name == binding.1 with
    | true => rfl
    | false => exact ih

theorem foldl_bindPlaceholder_mapLines (line : Nat) (params : List String) (env : Env) :
    params.foldl (·.bindPlaceholder (f line) ·) (env.mapLines f)
      = (params.foldl (·.bindPlaceholder line ·) env).mapLines f := by
  induction params generalizing env with
  | nil => rfl
  | cons param params ih => exact ih (env.bindPlaceholder line param)

end Env

/-! ## Expressions -/

namespace Expr

theorem withLine_mapLines (n : Nat) (e : Expr) :
    (e.mapLines f).withLine (f n) = (e.withLine n).mapLines f := by
  cases e <;> rfl

theorem foldUnary_mapLines (line : Nat) (op : UnaryOp) (operand : Expr) :
    foldUnary (f line) op (operand.mapLines f) = (foldUnary line op operand).mapLines f := by
  unfold foldUnary
  rw [foldable?_mapLines]
  split <;> rfl

theorem foldBinary_mapLines (line : Nat) (op : BinaryOp) (left right : Expr) :
    foldBinary (f line) op (left.mapLines f) (right.mapLines f)
      = (foldBinary line op left right).mapLines f := by
  unfold foldBinary
  rw [foldable?_mapLines, foldable?_mapLines]
  split <;> rfl

/-- An expression on other lines is folded to the same value there. -/
theorem fold_mapLines (env : Env) (e : Expr) :
    (e.mapLines f).fold (env.mapLines f) = relined f (mapLines f) (e.fold env) := by
  induction e with
  | literal => rfl
  | identifier line name =>
    simp only [mapLines, fold, Env.get?_mapLines]
    cases env.get? name with
    | none => rfl
    | some bound => exact congrArg Except.ok (withLine_mapLines f line bound)
  | unary line op operand ih =>
    show ((operand.mapLines f).fold (env.mapLines f)).bind _
      = relined f _ ((operand.fold env).bind _)
    rw [ih]
    exact relined_bind fun a _ => congrArg Except.ok (foldUnary_mapLines f line op a)
  | binary line op left right ihl ihr =>
    show ((left.mapLines f).fold (env.mapLines f)).bind _ = relined f _ ((left.fold env).bind _)
    rw [ihl]
    refine relined_bind fun l _ => ?_
    show ((right.mapLines f).fold (env.mapLines f)).bind _ = relined f _ ((right.fold env).bind _)
    rw [ihr]
    exact relined_bind fun r _ => congrArg Except.ok (foldBinary_mapLines f line op l r)
  | assign => rfl
  | update => rfl

end Expr

/-! ## Statements -/

/-- What folding has done, with its result changed by `g` and all other lines
changed. -/
def Folded.mapLines {α β : Type} (g : α → β) (x : Folded α) : Folded β :=
  ⟨g x.result, x.env.mapLines f, x.fault.map (Fault.mapLine f)⟩

namespace Stmt

theorem foldDeclarators_mapLines (declarators : List Declarator) (env : Env) :
    foldDeclarators (declarators.map (Declarator.mapLines f)) (env.mapLines f)
      = (foldDeclarators declarators env).mapLines f (List.map (Declarator.mapLines f)) := by
  induction declarators generalizing env with
  | nil => rfl
  | cons d rest ih =>
    obtain ⟨name, init, line⟩ := d
    cases init with
    | none =>
      have hrest := ih (env.bindPlaceholder line name)
      show (foldDeclarators (rest.map (Declarator.mapLines f))
        ((env.bindPlaceholder line name).mapLines f)).map _ = _
      rw [hrest]
      rfl
    | some init =>
      simp only [List.map_cons, Declarator.mapLines, Declarator.map, Option.map_some,
        foldDeclarators, Expr.fold_mapLines]
      cases init.fold env with
      | error fault => rfl
      | ok value =>
        have hrest := ih (env.bind name value)
        show (foldDeclarators (rest.map (Declarator.mapLines f))
          ((env.bind name value).mapLines f)).map _ = _
        rw [hrest]
        rfl

theorem assigned_mapLines (line : Nat) (op : AssignOp) (target : String) (value : Expr)
    (env : Env) : assigned (f line) op target (value.mapLines f) (env.mapLines f)
      = relined f (Expr.mapLines f) (assigned line op target value env) := by
  unfold assigned
  split
  · rfl
  · rename_i arithmetic _
    exact Expr.fold_mapLines f env (.binary line arithmetic (.identifier line target) value)

theorem foldExpression_mapLines (line : Nat) (expr : Expr) (env : Env) :
    foldExpression (f line) (expr.mapLines f) (env.mapLines f)
      = (foldExpression line expr env).mapLines f (mapLines f) := by
  have hmoved := Expr.fold_mapLines f env expr
  cases hfold : expr.fold env with
  | ok v =>
    rw [hfold] at hmoved
    rw [foldExpression_value_done hfold, foldExpression_value_done hmoved]
    rfl
  | error fault =>
    -- An assignment has no value to fold, so it always ends up here.
    rw [hfold] at hmoved
    cases expr with
    | assign start op target value =>
      simp only [Expr.mapLines, foldExpression, Expr.fold_mapLines]
      cases value.fold env with
      | error fault => rfl
      | ok v =>
        simp only [relined, assigned_mapLines]
        cases assigned start op target v env <;> rfl
    | update => rfl
    | _ =>
      simp only [Expr.mapLines, relined] at hmoved ⊢
      simp only [foldExpression, hfold, hmoved]
      rfl

theorem foldExit_mapLines (line : Nat) (result : Option Expr) (env : Env) :
    foldExit (f line) (result.map (Expr.mapLines f)) (env.mapLines f)
      = (foldExit line result env).mapLines f (mapLines f) := by
  cases result with
  | none => rfl
  | some expr =>
    simp only [Option.map_some, foldExit, Expr.fold_mapLines]
    cases expr.fold env <;> rfl

mutual

/-- A statement on other lines is folded to the same statement there. -/
theorem fold_mapLines : (s : Stmt) → (env : Env) →
    fold (s.mapLines f) (env.mapLines f) = (fold s env).mapLines f (mapLines f)
  | .function line name params bodyLine body, env => by
    show (foldAll (mapLinesAll f body)
      (params.foldl (·.bindPlaceholder (f bodyLine) ·) (env.mapLines f))).map _ = _
    rw [Env.foldl_bindPlaceholder_mapLines, foldAll_mapLines body]
    rfl
  | .block line body, env => by
    show (foldAll (mapLinesAll f body) (env.mapLines f)).map _ = _
    rw [foldAll_mapLines body]
    rfl
  | .expression line expr, env => foldExpression_mapLines f line expr env
  | .declare line kind declarators, env => by
    show (foldDeclarators (declarators.map (Declarator.mapLines f)) (env.mapLines f)).map _ = _
    rw [foldDeclarators_mapLines]
    rfl
  | .ifThen line test consequent, env => by
    have hconsequent := fold_mapLines consequent env
    simp only [mapLines, Stmt.map, fold, Expr.fold_mapLines] at hconsequent ⊢
    cases test.fold env with
    | error fault => rfl
    | ok value =>
      simp only [relined, hconsequent]
      rfl
  | .ifElse line test consequent alternate, env => by
    have hconsequent := fold_mapLines consequent env
    have halternate := fold_mapLines alternate env
    simp only [mapLines, Stmt.map, fold, Expr.fold_mapLines] at hconsequent halternate ⊢
    cases test.fold env with
    | error fault => rfl
    | ok value =>
      simp only [relined, hconsequent, halternate]
      cases hfault : (fold consequent env).fault with
      | some fault =>
        simp only [Folded.mapLines, hfault, Option.map_some]
        rfl
      | none =>
        simp only [Folded.mapLines, hfault, Option.map_none]
        rfl
  | .loop line test body, env => by
    have hbody := fold_mapLines body env
    simp only [mapLines, Stmt.map, fold, Expr.fold_mapLines] at hbody ⊢
    cases test.fold env with
    | error fault => rfl
    | ok value =>
      simp only [relined, hbody]
      rfl
  | .exit line result, env => foldExit_mapLines f line result env

/-- The same for statements one after the other. -/
theorem foldAll_mapLines : (body : List Stmt) → (env : Env) →
    foldAll (mapLinesAll f body) (env.mapLines f)
      = (foldAll body env).mapLines f (mapLinesAll f)
  | [], env => rfl
  | s :: rest, env => by
    have hfirst := fold_mapLines s env
    have hrest := foldAll_mapLines rest (fold s env).env
    simp only [mapLinesAll, mapAll, mapLines, foldAll] at hfirst hrest ⊢
    rw [hfirst]
    cases hfault : (fold s env).fault with
    | some fault =>
      simp only [Folded.mapLines, hfault, Option.map_some]
      rfl
    | none =>
      simp only [Folded.mapLines, hfault, Option.map_none] at hrest ⊢
      rw [hrest]
      rfl

end

end Stmt

/-- A program on other lines is folded to the same program there. -/
theorem Program.substitute_mapLines (p : Program) :
    (p.mapLines f).substitute = p.substitute.mapLines f (Program.mapLines f) := by
  show (Stmt.foldAll (Stmt.mapLinesAll f p.body) (Env.empty.mapLines f)).map Program.mk = _
  rw [Stmt.foldAll_mapLines]
  rfl

end TraceGraph
