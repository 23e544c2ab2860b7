import TraceGraph.Classification
import TraceGraph.Proofs.Outcome

/-!
# Folding the body of a function

What later proofs need to know about folding, so that they do not take its
definition apart again.

* Parameters are bound before the body is folded, either to their arguments or to
  themselves.  `FunctionDecl.get?_bindArguments` and
  `FunctionDecl.get?_placeholders` say what each name is bound to then.
* `Expr.fold_binary_eq_ok`, `Stmt.foldExpression_cases`, `Stmt.fold_ifThen`,
  `Stmt.foldAll_cons` and the others of their kind take folding without fault apart
  into the folding of its parts, and `FunctionDecl.classify_eq_ok` does so for a
  function that is classified.
* `Stmt.every`: a property of all statements at every depth.
* `Program.substitute_fault` and `Program.function?_substitute` reduce folding a
  program from nothing to folding the body of its function.
-/

namespace TraceGraph

/-! ## Parameters -/

theorem Env.get?_bind (env : Env) (name other : String) (value : Expr) :
    (env.bind name value).get? other = if other = name then some value else env.get? other := by
  split
  · rename_i heq
    rw [heq]
    exact get?_bind_self _ _ _
  · rename_i hne
    exact get?_bind_of_ne _ _ hne

theorem Env.get?_foldl_bindPlaceholder (line : Nat) (params : List String) (env : Env)
    (name : String) :
    (params.foldl (·.bindPlaceholder line ·) env).get? name
      = if name ∈ params then some (.identifier line name) else env.get? name := by
  induction params generalizing env with
  | nil => simp
  | cons param params ih =>
    rw [List.foldl_cons, ih, Env.bindPlaceholder, Env.get?_bind]
    by_cases hmem : name ∈ params
    · simp [hmem]
    · by_cases heq : name = param
      · simp [heq]
      · simp [hmem, heq]

namespace FunctionDecl

/-- The environment that binds each parameter to itself. -/
def placeholders (decl : FunctionDecl) : Env :=
  decl.params.foldl (·.bindPlaceholder decl.bodyLine ·) .empty

theorem get?_placeholders (decl : FunctionDecl) (name : String) :
    decl.placeholders.get? name
      = if name ∈ decl.params then some (.identifier decl.bodyLine name) else none :=
  Env.get?_foldl_bindPlaceholder _ _ _ _

/-- Binding parameters one after the other to their arguments binds each of them,
and leaves other names alone. -/
private theorem foldlM_bindLiteral {args : Arguments} (line : Nat)
    {bind : Env → String → Except Fault Env}
    (hbind : ∀ env param value, args.get? param = some value →
      bind env param = .ok (env.bindLiteral line param value))
    (params : List String) (start : Env) (h : ∀ param ∈ params, (args.get? param).isSome) :
    ∃ env, params.foldlM bind start = .ok env ∧
      ∀ other, env.get? other
        = if other ∈ params then (args.get? other).map (.literal line) else start.get? other := by
  induction params generalizing start with
  | nil => exact ⟨start, rfl, fun other => by simp⟩
  | cons param params ih =>
    obtain ⟨value, hvalue⟩ := Option.isSome_iff_exists.1 (h param List.mem_cons_self)
    obtain ⟨env, henv, hget⟩ := ih (start.bindLiteral line param value)
      fun other hother => h other (List.mem_cons_of_mem _ hother)
    refine ⟨env, ?_, fun other => ?_⟩
    · rw [List.foldlM_cons, hbind _ _ _ hvalue]
      exact henv
    · rw [hget other]
      by_cases hmem : other ∈ params
      · rw [if_pos hmem, if_pos (List.mem_cons_of_mem _ hmem)]
      · rw [if_neg hmem]
        by_cases heq : other = param
        · subst heq
          rw [if_pos List.mem_cons_self, hvalue]
          exact Env.get?_bind_self _ _ _
        · rw [if_neg (by simp [heq, hmem])]
          exact Env.get?_bind_of_ne _ _ heq

private theorem isSome_of_foldlM {args : Arguments} {bind : Env → String → Except Fault Env}
    (hbind : ∀ env param, args.get? param = none → ∃ fault, bind env param = .error fault)
    {params : List String} {start env : Env} (h : params.foldlM bind start = .ok env) :
    ∀ param ∈ params, (args.get? param).isSome := by
  induction params generalizing start with
  | nil => simp
  | cons param params ih =>
    rw [List.foldlM_cons] at h
    intro other hother
    rcases List.mem_cons.1 hother with rfl | hmem
    · cases hget : args.get? other with
      | some value => rfl
      | none =>
        obtain ⟨fault, hfault⟩ := hbind start other hget
        rw [hfault] at h
        cases h
    · cases hbound : bind start param with
      | error fault =>
        rw [hbound] at h
        cases h
      | ok next =>
        rw [hbound] at h
        exact ih h other hmem

variable {decl : FunctionDecl} {args : Arguments}

private theorem bindArguments_exists (h : ∀ param ∈ decl.params, (args.get? param).isSome) :
    ∃ env, decl.bindArguments args = .ok env ∧
      ∀ name, env.get? name
        = if name ∈ decl.params then (args.get? name).map (.literal decl.bodyLine) else none := by
  refine foldlM_bindLiteral decl.bodyLine ?_ decl.params .empty h
  intro env param value hvalue
  rw [hvalue]

/-- If every parameter has an argument, each of them is bound to it. -/
theorem bindArguments_eq_ok (h : ∀ param ∈ decl.params, (args.get? param).isSome) :
    ∃ env, decl.bindArguments args = .ok env ∧
      ∀ param ∈ decl.params, env.get? param = (args.get? param).map (.literal decl.bodyLine) := by
  obtain ⟨env, henv, hget⟩ := bindArguments_exists h
  refine ⟨env, henv, fun param hparam => ?_⟩
  rw [hget, if_pos hparam]

/-- If the parameters could be bound, every one of them has an argument. -/
theorem isSome_of_bindArguments {env : Env} (h : decl.bindArguments args = .ok env) :
    ∀ param ∈ decl.params, (args.get? param).isSome := by
  refine isSome_of_foldlM (fun env param hnone => ?_) h
  exact ⟨_, by rw [hnone]⟩

/-- The parameters are bound to their arguments, and nothing else is bound. -/
theorem get?_bindArguments {env : Env} (h : decl.bindArguments args = .ok env) (name : String) :
    env.get? name
      = if name ∈ decl.params then (args.get? name).map (.literal decl.bodyLine) else none := by
  obtain ⟨env', henv', hget⟩ := bindArguments_exists (isSome_of_bindArguments h)
  rw [h] at henv'
  cases henv'
  exact hget name

end FunctionDecl

/-! ## Folding without fault -/

namespace Expr

theorem foldable?_eq_some {e : Expr} {value : Literal} (h : e.foldable? = some value) :
    ∃ line, e = .literal line value ∧ value.foldable = true := by
  obtain ⟨hliteral, hfoldable⟩ := Option.filter_eq_some_iff.1 h
  cases e with
  | literal line v =>
    cases hliteral
    exact ⟨line, rfl, hfoldable⟩
  | _ => cases hliteral

variable {env : Env} {line : Nat}

theorem fold_identifier_eq_ok {name : String} {v : Expr} :
    (Expr.identifier line name).fold env = .ok v ↔
      ∃ bound, env.get? name = some bound ∧ bound.withLine line = v := by
  rw [fold]
  cases env.get? name with
  | none => simp
  | some bound => simp

theorem fold_unary_eq_ok {op : UnaryOp} {operand v : Expr} :
    (Expr.unary line op operand).fold env = .ok v ↔
      ∃ a, operand.fold env = .ok a ∧ foldUnary line op a = v := by
  have heq : (Expr.unary line op operand).fold env
      = (operand.fold env).map (foldUnary line op) := by
    rw [fold]
    cases operand.fold env <;> rfl
  rw [heq, map_eq_ok_iff]

theorem fold_binary_eq_ok {op : BinaryOp} {left right v : Expr} :
    (Expr.binary line op left right).fold env = .ok v ↔
      ∃ l r, left.fold env = .ok l ∧ right.fold env = .ok r ∧ foldBinary line op l r = v := by
  have heq : (Expr.binary line op left right).fold env
      = (left.fold env).bind fun l => (right.fold env).map (foldBinary line op l) := by
    rw [fold]
    cases left.fold env with
    | error => rfl
    | ok l => cases right.fold env <;> rfl
  rw [heq, bind_eq_ok_iff]
  simp only [map_eq_ok_iff, exists_and_left]

end Expr

namespace Stmt

section

variable {line start : Nat} {op : AssignOp} {target : String} {expr value v bound : Expr} {env : Env}

theorem foldExpression_assign_done (hvalue : value.fold env = .ok v)
    (hbound : assigned start op target v env = .ok bound) :
    foldExpression line (.assign start op target value) env
      = .done (.expression line (.assign start op target v)) (env.bind target bound) := by
  simp only [foldExpression, hvalue, hbound]

theorem foldExpression_value_done (hfold : expr.fold env = .ok v) :
    foldExpression line expr env = .done (.expression line v) env := by
  cases expr with
  | assign => cases hfold
  | update => cases hfold
  | _ => simp only [foldExpression, hfold]

/-- An expression statement is an assignment that binds its target, a step by one,
or an expression that is folded. -/
theorem foldExpression_cases (h : (foldExpression line expr env).fault = none) :
    (∃ start op target value v bound, expr = .assign start op target value ∧
        value.fold env = .ok v ∧ assigned start op target v env = .ok bound ∧
        foldExpression line expr env
          = .done (.expression line (.assign start op target v)) (env.bind target bound)) ∨
      (∃ start op leading target, expr = .update start op leading target ∧
        foldExpression line expr env = .done (.expression line expr) env) ∨
      ∃ v, expr.fold env = .ok v ∧ foldExpression line expr env = .done (.expression line v) env := by
  unfold foldExpression at h
  split at h
  · rename_i start op target value
    cases hvalue : value.fold env with
    | error fault =>
      rw [hvalue] at h
      cases h
    | ok v =>
      simp only [hvalue] at h
      cases hbound : assigned start op target v env with
      | error fault =>
        rw [hbound] at h
        cases h
      | ok bound =>
        exact .inl ⟨start, op, target, value, v, bound, rfl, hvalue, hbound,
          foldExpression_assign_done hvalue hbound⟩
  · rename_i start op leading target
    exact .inr (.inl ⟨start, op, leading, target, rfl, rfl⟩)
  · cases hfold : expr.fold env with
    | error fault =>
      rw [hfold] at h
      cases h
    | ok v => exact .inr (.inr ⟨v, rfl, foldExpression_value_done hfold⟩)

theorem foldExit_some (h : (foldExit line (some expr) env).fault = none) :
    ∃ v, expr.fold env = .ok v ∧ foldExit line (some expr) env = .done (.exit line (some v)) env := by
  simp only [foldExit] at h ⊢
  cases hfold : expr.fold env with
  | error fault =>
    rw [hfold] at h
    cases h
  | ok v => exact ⟨v, rfl, rfl⟩

end

section

variable {line : Nat} {test value : Expr} {consequent alternate body : Stmt} {env : Env}

theorem fold_ifThen_done (htest : test.fold env = .ok value)
    (hconsequent : (fold consequent env).fault = none) :
    fold (.ifThen line test consequent) env
      = .done (.ifThen line value (fold consequent env).result) env := by
  simp only [fold, htest, Folded.map, Folded.leaving, Folded.done, hconsequent]

theorem fold_ifThen (h : (fold (.ifThen line test consequent) env).fault = none) :
    ∃ value, test.fold env = .ok value ∧ (fold consequent env).fault = none ∧
      fold (.ifThen line test consequent) env
        = .done (.ifThen line value (fold consequent env).result) env := by
  rw [fold] at h
  cases htest : test.fold env with
  | error fault =>
    rw [htest] at h
    cases h
  | ok value =>
    rw [htest] at h
    exact ⟨value, rfl, h, fold_ifThen_done htest h⟩

theorem fold_ifElse_done (htest : test.fold env = .ok value)
    (hconsequent : (fold consequent env).fault = none)
    (halternate : (fold alternate env).fault = none) :
    fold (.ifElse line test consequent alternate) env
      = .done (.ifElse line value (fold consequent env).result (fold alternate env).result)
          env := by
  simp only [fold, htest, hconsequent, Folded.map, Folded.leaving, Folded.done, halternate]

theorem fold_ifElse (h : (fold (.ifElse line test consequent alternate) env).fault = none) :
    ∃ value, test.fold env = .ok value ∧ (fold consequent env).fault = none ∧
      (fold alternate env).fault = none ∧
      fold (.ifElse line test consequent alternate) env
        = .done (.ifElse line value (fold consequent env).result (fold alternate env).result)
            env := by
  rw [fold] at h
  cases htest : test.fold env with
  | error fault =>
    rw [htest] at h
    cases h
  | ok value =>
    rw [htest] at h
    cases hconsequent : (fold consequent env).fault with
    | some fault =>
      simp only [hconsequent] at h
      cases h
    | none =>
      simp only [hconsequent] at h
      exact ⟨value, rfl, rfl, h, fold_ifElse_done htest hconsequent h⟩

theorem fold_loop_done (htest : test.fold env = .ok value) (hbody : (fold body env).fault = none) :
    fold (.loop line test body) env = .done (.loop line test (fold body env).result) env := by
  simp only [fold, htest, Folded.map, Folded.leaving, Folded.done, hbody]

theorem fold_loop (h : (fold (.loop line test body) env).fault = none) :
    ∃ value, test.fold env = .ok value ∧ (fold body env).fault = none ∧
      fold (.loop line test body) env = .done (.loop line test (fold body env).result) env := by
  rw [fold] at h
  cases htest : test.fold env with
  | error fault =>
    rw [htest] at h
    cases h
  | ok value =>
    rw [htest] at h
    exact ⟨value, rfl, h, fold_loop_done htest h⟩

end

section

variable {s : Stmt} {rest : List Stmt} {env : Env}

theorem foldAll_cons_done (hfirst : (fold s env).fault = none)
    (hrest : (foldAll rest (fold s env).env).fault = none) :
    foldAll (s :: rest) env
      = .done ((fold s env).result :: (foldAll rest (fold s env).env).result)
          (foldAll rest (fold s env).env).env := by
  simp only [foldAll, hfirst, Folded.map, Folded.done, hrest]

theorem foldAll_cons (h : (foldAll (s :: rest) env).fault = none) :
    (fold s env).fault = none ∧ (foldAll rest (fold s env).env).fault = none ∧
      foldAll (s :: rest) env
        = .done ((fold s env).result :: (foldAll rest (fold s env).env).result)
            (foldAll rest (fold s env).env).env := by
  rw [foldAll] at h
  cases hfirst : (fold s env).fault with
  | some fault =>
    simp only [hfirst] at h
    cases h
  | none =>
    simp only [hfirst] at h
    exact ⟨rfl, h, foldAll_cons_done hfirst h⟩

end

/-! ## Statements at every depth -/

mutual

/-- Whether all statements have a property, the statement itself and those nested in
it. -/
def every (ok : Stmt → Bool) : Stmt → Bool
  | .function line name params bodyLine body =>
    ok (.function line name params bodyLine body) && everyOf ok body
  | .block line body => ok (.block line body) && everyOf ok body
  | .ifThen line test consequent => ok (.ifThen line test consequent) && every ok consequent
  | .ifElse line test consequent alternate =>
    ok (.ifElse line test consequent alternate) && every ok consequent && every ok alternate
  | .loop line test body => ok (.loop line test body) && every ok body
  | s => ok s

/-- Whether all statements of a list and those nested in them have a property. -/
def everyOf (ok : Stmt → Bool) : List Stmt → Bool
  | [] => true
  | s :: rest => every ok s && everyOf ok rest

end

end Stmt

/-! ## Functions and programs -/

/-- A function that is classified binds its parameters, folds without fault, and
has the marks that tracing makes. -/
theorem FunctionDecl.classify_eq_ok {decl : FunctionDecl} {args : Arguments} {r : Classification}
    (h : decl.classify args = .ok r) :
    ∃ env trace, decl.bindArguments args = .ok env ∧ (Stmt.foldAll decl.body env).fault = none ∧
      Stmt.traceAll decl.body (Stmt.foldAll decl.body env).result = .ok trace ∧
      r = .ofMarks trace.marks := by
  obtain ⟨env, henv, h⟩ := bind_eq_ok_iff.1 h
  dsimp only at h
  split at h
  · cases h
  · rename_i hfold
    obtain ⟨trace, htrace, hmarks⟩ := bind_eq_ok_iff.1 h
    cases hmarks
    exact ⟨env, trace, henv, hfold, htrace, rfl⟩

namespace Program

variable {p : Program} {decl : FunctionDecl}

theorem body_of_function? (h : p.function? = some decl) :
    ∃ line, p.body = [.function line decl.name decl.params decl.bodyLine decl.body] := by
  unfold function? at h
  split at h
  · rename_i line _ _ _ _ hbody
    cases h
    exact ⟨line, hbody⟩
  · cases h

theorem classify_of_function? (h : p.function? = some decl) (args : Arguments) :
    p.classify args = decl.classify args := by
  rw [classify, theFunction, h]
  rfl

private theorem substitute_eq (h : p.function? = some decl) :
    ∃ line, p.substitute.fault = (Stmt.foldAll decl.body decl.placeholders).fault ∧
      p.substitute.result.body = [.function line decl.name decl.params decl.bodyLine
        (Stmt.foldAll decl.body decl.placeholders).result] := by
  obtain ⟨line, hbody⟩ := body_of_function? h
  refine ⟨line, ?_⟩
  rw [substitute, hbody, Stmt.foldAll]
  simp only [Stmt.fold, Folded.map, FunctionDecl.placeholders]
  cases (Stmt.foldAll decl.body
    (decl.params.foldl (·.bindPlaceholder decl.bodyLine ·) .empty)).fault with
  | none => exact ⟨rfl, rfl⟩
  | some fault => exact ⟨rfl, rfl⟩

/-- Folding a program from nothing stops where folding the body of its function
does, with the parameters bound to themselves. -/
theorem substitute_fault (h : p.function? = some decl) :
    p.substitute.fault = (Stmt.foldAll decl.body decl.placeholders).fault := by
  obtain ⟨_, hfault, -⟩ := substitute_eq h
  exact hfault

theorem function?_substitute (h : p.function? = some decl) :
    p.substitute.result.function?
      = some { decl with body := (Stmt.foldAll decl.body decl.placeholders).result } := by
  obtain ⟨line, -, hresult⟩ := substitute_eq h
  rw [function?, hresult]

end Program

end TraceGraph
