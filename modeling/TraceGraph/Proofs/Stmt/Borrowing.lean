import TraceGraph.Proofs.Stmt.Folding

/-!
# Names that earlier statements leave behind

The statements of a program are folded one after the other among the same bindings, and
a function binds its parameters and its names right into them.  So a function sees what
the functions before it have bound, and can go through where it would stop on its own.
It can do nothing else with it: a statement that goes through on its own comes to the
same result whatever has been bound before.

* `Env.Widens`: an environment with some more names bound.
* `Stmt.fold_widens` and `Stmt.foldAll_widens`: with more names bound, folding comes to
  the same, unless it stops at one of these names without them.
* `Program.Borrows`: a statement reads a name that only earlier statements have bound.
* `Program.substitute_alone_iff`: each statement of a program goes through on its own
  exactly if the program does and nothing is borrowed.
-/

namespace TraceGraph

/-! ## More names bound -/

/-- The second environment has the bindings of the first one.  Other names that it
binds are among the extra ones. -/
structure Env.Widens (extra : String → Prop) (env env' : Env) : Prop where
  kept : ∀ name bound, env.get? name = some bound → env'.get? name = some bound
  others : ∀ name bound, env.get? name = none → env'.get? name = some bound → extra name

namespace Env

variable {extra : String → Prop} {env env' : Env}

theorem empty_widens (env : Env) : empty.Widens (fun name => (env.get? name).isSome) env where
  kept _ _ hget := by cases hget
  others _ _ _ hget := Option.isSome_of_eq_some hget

theorem Widens.bind (h : env.Widens extra env') (name : String) (value : Expr) :
    (env.bind name value).Widens extra (env'.bind name value) where
  kept other bound hget := by
    rw [get?_bind] at hget ⊢
    by_cases heq : other = name
    · rw [if_pos heq] at hget ⊢
      exact hget
    · rw [if_neg heq] at hget ⊢
      exact h.kept other bound hget
  others other bound hnone hget := by
    rw [get?_bind] at hnone hget
    by_cases heq : other = name
    · rw [if_pos heq] at hnone
      cases hnone
    · rw [if_neg heq] at hnone hget
      exact h.others other bound hnone hget

theorem Widens.foldl_bindPlaceholder (h : env.Widens extra env') (line : Nat)
    (params : List String) :
    (params.foldl (·.bindPlaceholder line ·) env).Widens extra
      (params.foldl (·.bindPlaceholder line ·) env') := by
  induction params generalizing env env' with
  | nil => exact h
  | cons param params ih => exact ih (h.bind param (.identifier line param))

end Env

/-- With more names bound an expression folds to the same, unless it stops at one of
these names without them. -/
theorem Expr.fold_widens {extra : String → Prop} {env env' : Env} (h : env.Widens extra env')
    (e : Expr) :
    e.fold env' = e.fold env ∨
      ∃ name line, extra name ∧ e.fold env = .error (.unbound name line) := by
  induction e with
  | literal => exact .inl rfl
  | identifier line name =>
    rw [fold, fold]
    cases hget : env.get? name with
    | some bound =>
      rw [h.kept name bound hget]
      exact .inl rfl
    | none =>
      cases hget' : env'.get? name with
      | none => exact .inl rfl
      | some bound => exact .inr ⟨name, line, h.others name bound hget hget', rfl⟩
  | unary line op operand ih =>
    rcases ih with heq | ⟨name, start, hname, hfault⟩
    · rw [fold, fold, heq]
      exact .inl rfl
    · rw [fold, fold, hfault]
      exact .inr ⟨name, start, hname, rfl⟩
  | binary line op left right ihl ihr =>
    rcases ihl with hleft | ⟨name, start, hname, hfault⟩
    · rcases ihr with hright | ⟨name, start, hname, hfault⟩
      · rw [fold, fold, hleft, hright]
        exact .inl rfl
      · rw [fold, fold, hleft, hfault]
        cases left.fold env with
        | error fault => exact .inl rfl
        | ok l => exact .inr ⟨name, start, hname, rfl⟩
    · rw [fold, fold, hfault]
      exact .inr ⟨name, start, hname, rfl⟩
  | assign => exact .inl rfl
  | update => exact .inl rfl

/-- Two foldings of the same, the second one with more names bound.  They come to the
same, or the first one has stopped at one of these names. -/
inductive Widened (extra : String → Prop) {α : Type} : Folded α → Folded α → Prop
  | same {result : α} {env env' : Env} {fault : Option Fault} (henv : env.Widens extra env') :
      Widened extra ⟨result, env, fault⟩ ⟨result, env', fault⟩
  | missing {x y : Folded α} {name : String} {line : Nat} (hname : extra name)
      (hfault : x.fault = some (.unbound name line)) : Widened extra x y

namespace Widened

variable {extra : String → Prop} {α β : Type} {x y : Folded α}

theorem map (h : Widened extra x y) (f : α → β) : Widened extra (x.map f) (y.map f) := by
  cases h with
  | same henv => exact .same henv
  | missing hname hfault => exact .missing hname hfault

theorem leaving (h : Widened extra x y) {env env' : Env} (henv : env.Widens extra env') :
    Widened extra (x.leaving env) (y.leaving env') := by
  cases h with
  | same => exact .same henv
  | missing hname hfault => exact .missing hname hfault

theorem outcome (h : Widened extra x y) :
    (y.fault = x.fault ∧ y.result = x.result) ∨
      ∃ name line, extra name ∧ x.fault = some (.unbound name line) := by
  cases h with
  | same => exact .inl ⟨rfl, rfl⟩
  | missing hname hfault => exact .inr ⟨_, _, hname, hfault⟩

end Widened

/-! ## Folding among more bindings -/

namespace Stmt

variable {extra : String → Prop}

private theorem foldDeclarators_widens (declarators : List Declarator) {env env' : Env}
    (h : env.Widens extra env') :
    Widened extra (foldDeclarators declarators env) (foldDeclarators declarators env') := by
  induction declarators generalizing env env' with
  | nil => exact .same h
  | cons d rest ih =>
    obtain ⟨name, init, line⟩ := d
    cases init with
    | none => exact (ih (h.bind name (.identifier line name))).map _
    | some init =>
      simp only [foldDeclarators]
      rcases init.fold_widens h with heq | ⟨missing, start, hname, hfault⟩
      · rw [heq]
        cases init.fold env with
        | error fault => exact .same h
        | ok value => exact (ih (h.bind name value)).map _
      · rw [hfault]
        exact .missing hname rfl

private theorem assigned_widens (start : Nat) (op : AssignOp) (target : String) (value : Expr)
    {env env' : Env} (h : env.Widens extra env') :
    assigned start op target value env' = assigned start op target value env ∨
      ∃ name line, extra name ∧
        assigned start op target value env = .error (.unbound name line) := by
  unfold assigned
  cases op.arithmetic? with
  | none => exact .inl rfl
  | some arithmetic => exact Expr.fold_widens h _

private theorem foldExpression_widens (line : Nat) (expr : Expr) {env env' : Env}
    (h : env.Widens extra env') :
    Widened extra (foldExpression line expr env) (foldExpression line expr env') := by
  unfold foldExpression
  split
  · rename_i start op target value
    rcases value.fold_widens h with heq | ⟨name, missed, hname, hfault⟩
    · rw [heq]
      cases value.fold env with
      | error fault => exact .same h
      | ok v =>
        -- a compound assignment folds its value once more, and may miss a name only then
        dsimp only
        rcases assigned_widens start op target v h with hassigned | ⟨name, missed, hname, hfault⟩
        · rw [hassigned]
          cases assigned start op target v env with
          | error fault => exact .same h
          | ok bound => exact .same (h.bind target bound)
        · rw [hfault]
          exact .missing hname rfl
    · rw [hfault]
      exact .missing hname rfl
  · exact .same h
  · rcases expr.fold_widens h with heq | ⟨name, missed, hname, hfault⟩
    · rw [heq]
      cases expr.fold env <;> exact .same h
    · rw [hfault]
      exact .missing hname rfl

private theorem foldExit_widens (line : Nat) (result : Option Expr) {env env' : Env}
    (h : env.Widens extra env') :
    Widened extra (foldExit line result env) (foldExit line result env') := by
  cases result with
  | none => exact .same h
  | some expr =>
    simp only [foldExit]
    rcases expr.fold_widens h with heq | ⟨name, missed, hname, hfault⟩
    · rw [heq]
      cases expr.fold env <;> exact .same h
    · rw [hfault]
      exact .missing hname rfl

mutual

/-- With more names bound a statement folds to the same, unless it stops at one of these
names without them. -/
theorem fold_widens : (s : Stmt) → {env env' : Env} → env.Widens extra env' →
    Widened extra (fold s env) (fold s env')
  | .function _ _ params bodyLine body, _, _, h =>
    (foldAll_widens body (h.foldl_bindPlaceholder bodyLine params)).map _
  | .block _ body, _, _, h => (foldAll_widens body h).map _
  | .expression line expr, _, _, h => foldExpression_widens line expr h
  | .declare _ _ declarators, _, _, h => (foldDeclarators_widens declarators h).map _
  | .ifThen _ test consequent, env, env', h => by
    rw [fold, fold]
    rcases test.fold_widens h with heq | ⟨name, missed, hname, hfault⟩
    · rw [heq]
      cases test.fold env with
      | error fault => exact .same h
      | ok value => exact ((fold_widens consequent h).map _).leaving h
    · rw [hfault]
      exact .missing hname rfl
  | .ifElse _ test consequent alternate, env, env', h => by
    rw [fold, fold]
    rcases test.fold_widens h with heq | ⟨name, missed, hname, hfault⟩
    · rw [heq]
      cases test.fold env with
      | error fault => exact .same h
      | ok value =>
        have hfirst := fold_widens consequent h
        have hother := fold_widens alternate h
        dsimp only
        generalize fold consequent env = first at hfirst ⊢
        generalize fold consequent env' = first' at hfirst ⊢
        cases hfirst with
        | @same _ _ _ fault =>
          cases fault with
          | none => exact (hother.map _).leaving h
          | some fault => exact .same h
        | missing hname hfault =>
          rw [hfault]
          exact .missing hname rfl
    · rw [hfault]
      exact .missing hname rfl
  | .loop _ test body, env, env', h => by
    rw [fold, fold]
    rcases test.fold_widens h with heq | ⟨name, missed, hname, hfault⟩
    · rw [heq]
      cases test.fold env with
      | error fault => exact .same h
      | ok value => exact ((fold_widens body h).map _).leaving h
    · rw [hfault]
      exact .missing hname rfl
  | .exit line result, _, _, h => foldExit_widens line result h

/-- With more names bound statements fold to the same, unless they stop at one of these
names without them. -/
theorem foldAll_widens : (body : List Stmt) → {env env' : Env} → env.Widens extra env' →
    Widened extra (foldAll body env) (foldAll body env')
  | [], _, _, h => .same h
  | s :: rest, env, env', h => by
    have hfirst := fold_widens s h
    rw [foldAll, foldAll]
    generalize fold s env = first at hfirst ⊢
    generalize fold s env' = first' at hfirst ⊢
    cases hfirst with
    | @same _ _ _ fault henv =>
      cases fault with
      | none => exact (foldAll_widens rest henv).map _
      | some fault => exact .same henv
    | missing hname hfault =>
      rw [hfault]
      exact .missing hname rfl

end

/-! ## Statements on their own -/

theorem foldAll_singleton (s : Stmt) (env : Env) : foldAll [s] env = (fold s env).map ([·]) := by
  rw [foldAll]
  cases hfault : (fold s env).fault with
  | none => simp only [foldAll, Folded.map, Folded.done, hfault]
  | some fault => simp only [Folded.stopped, Folded.map, hfault]

/-- A statement that goes through on its own goes through among any bindings, and to the
same result. -/
theorem fold_of_alone {s : Stmt} (h : (fold s .empty).fault = none) (env : Env) :
    (fold s env).fault = none ∧ (fold s env).result = (fold s .empty).result := by
  rcases (fold_widens s (Env.empty_widens env)).outcome with
    ⟨hfault, hresult⟩ | ⟨name, line, -, hfault⟩
  · exact ⟨hfault.trans h, hresult⟩
  · rw [h] at hfault
    cases hfault

/-- A statement that goes through among some bindings goes through on its own, or stops
there at a name that is bound among them. -/
theorem alone_of_fold {s : Stmt} {env : Env} (h : (fold s env).fault = none) :
    (fold s .empty).fault = none ∨
      ∃ name line, (fold s .empty).fault = some (.unbound name line) ∧
        (env.get? name).isSome := by
  rcases (fold_widens s (Env.empty_widens env)).outcome with
    ⟨hfault, -⟩ | ⟨name, line, hname, hfault⟩
  · exact .inl (hfault.symm.trans h)
  · exact .inr ⟨name, line, hfault, hname⟩

/-- Statements that go through on their own go through one after the other, each to the
result that it has on its own. -/
theorem foldAll_of_alone {body : List Stmt} (h : ∀ s ∈ body, (fold s .empty).fault = none)
    (env : Env) :
    (foldAll body env).fault = none ∧
      (foldAll body env).result = body.map fun s => (fold s .empty).result := by
  induction body generalizing env with
  | nil => exact ⟨rfl, rfl⟩
  | cons s rest ih =>
    obtain ⟨hfirst, hresult⟩ := fold_of_alone (h s List.mem_cons_self) env
    obtain ⟨hrest, hresults⟩ := ih (fun t ht => h t (List.mem_cons_of_mem _ ht)) (fold s env).env
    rw [foldAll_cons_done hfirst hrest]
    refine ⟨rfl, ?_⟩
    rw [List.map_cons, ← hresult, ← hresults]
    rfl

/-- If statements go through one after the other, each of them finds the bindings that
the ones before it have left. -/
theorem fold_of_foldAll {before after : List Stmt} {s : Stmt} {env : Env}
    (h : (foldAll (before ++ s :: after) env).fault = none) :
    (fold s (foldAll before env).env).fault = none := by
  induction before generalizing env with
  | nil => exact (foldAll_cons h).1
  | cons first rest ih =>
    obtain ⟨hfirst, hrest, -⟩ := foldAll_cons h
    rw [foldAll]
    simp only [hfirst]
    exact ih hrest

end Stmt

namespace Program

/-- On its own the statement stops at a name that the statements before it bind. -/
def Borrows (before : List Stmt) (s : Stmt) : Prop :=
  ∃ name line, (substitute ⟨[s]⟩).fault = some (.unbound name line) ∧
    ((substitute ⟨before⟩).env.get? name).isSome

private theorem fault_substitute_singleton (s : Stmt) :
    (substitute ⟨[s]⟩).fault = (Stmt.fold s .empty).fault := by
  rw [substitute, Stmt.foldAll_singleton]
  rfl

private theorem body_substitute_singleton (s : Stmt) :
    (substitute ⟨[s]⟩).result.body = [(Stmt.fold s .empty).result] := by
  rw [substitute, Stmt.foldAll_singleton]
  rfl

/-- Each statement of a program goes through on its own exactly if the program goes
through and no statement, a function say, borrows a name from those before it.  Then the
program is folded to what its statements are folded to on their own. -/
theorem substitute_alone_iff (p : Program) :
    ((∀ s ∈ p.body, (substitute ⟨[s]⟩).fault = none) ↔
      p.substitute.fault = none ∧
        ∀ before s after, p.body = before ++ s :: after → ¬ Borrows before s) ∧
    ((∀ s ∈ p.body, (substitute ⟨[s]⟩).fault = none) →
      p.substitute.result.body = p.body.flatMap fun s => (substitute ⟨[s]⟩).result.body) := by
  simp only [fault_substitute_singleton, body_substitute_singleton]
  refine ⟨⟨fun halone => ⟨(Stmt.foldAll_of_alone halone .empty).1, ?_⟩, ?_⟩, fun halone => ?_⟩
  · rintro before s after hbody ⟨name, line, hfault, -⟩
    have hs := halone s (by rw [hbody]; exact List.mem_append_right _ List.mem_cons_self)
    rw [fault_substitute_singleton, hs] at hfault
    cases hfault
  · rintro ⟨hwhole, hborrows⟩ s hs
    obtain ⟨before, after, hbody⟩ := List.append_of_mem hs
    have hfold : (Stmt.foldAll p.body .empty).fault = none := hwhole
    rw [hbody] at hfold
    rcases Stmt.alone_of_fold (Stmt.fold_of_foldAll hfold) with hs | ⟨name, line, hfault, hname⟩
    · exact hs
    · refine absurd ⟨name, line, ?_, hname⟩ (hborrows before s after hbody)
      rw [fault_substitute_singleton, hfault]
  · rw [← List.map_eq_flatMap]
    exact (Stmt.foldAll_of_alone halone .empty).2

/-- Two functions with the same names, each of which binds them for itself. -/
private def ownNames : Program where
  body :=
    [.function 1 "f" ["x"] 1
       [.declare 2 .letDecl [⟨"a", some (.unary 2 .not (.identifier 2 "x")), 2⟩],
        .expression 3 (.assign 3 .assign "x" (.literal 3 (.bool true)))],
     .function 5 "g" ["x"] 5
       [.declare 6 .letDecl [⟨"a", some (.identifier 6 "x"), 6⟩],
        .exit 7 (some (.identifier 7 "a"))]]

theorem substitute_alone_iff_ownNames :
    (∀ s ∈ ownNames.body, (substitute ⟨[s]⟩).fault = none) ∧
      ownNames.substitute.fault = none ∧
      ownNames.substitute.result.body
        = ownNames.body.flatMap fun s => (substitute ⟨[s]⟩).result.body := by
  have halone : ∀ s ∈ ownNames.body, (substitute ⟨[s]⟩).fault = none := by decide
  obtain ⟨hiff, hresult⟩ := substitute_alone_iff ownNames
  exact ⟨halone, (hiff.1 halone).1, hresult halone⟩

/-- A function that binds a name, and one that reads it. -/
private def borrowsName : Program where
  body :=
    [.function 1 "f" [] 1 [.declare 2 .letDecl [⟨"a", some (.literal 2 (.bool true)), 2⟩]],
     .function 4 "g" [] 4 [.exit 5 (some (.identifier 5 "a"))]]

/-- The program goes through, although one of its functions does not on its own. -/
theorem substitute_borrowsName :
    borrowsName.substitute.fault = none ∧
      ¬ ∀ s ∈ borrowsName.body, (substitute ⟨[s]⟩).fault = none := by
  decide

end Program

end TraceGraph
