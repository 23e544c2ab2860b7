import TraceGraph.Proofs.Stmt.NormalForm

/-!
# Compound assignments and their expansion

A compound assignment stands for an assignment that computes with its target.  Folding
treats the two differently: the compound assignment folds its value, puts the result
next to the target, and folds that once more.  Both bind the target to the same
expression up to lines exactly where folding the value a second time changes nothing,
that is, where each name left in it is still bound to itself.

* `Stmt.foldExpression_compound` and `Stmt.foldExpression_expansion`: what the two
  bind.
* `Stmt.eraseLines_foldBinary_iff`: the second folding can be told from the result.
* `Stmt.compound_eq_expansion_iff`: when the two bindings are equal up to lines.
* `Stmt.compound_ne_expansion`: bindings where they are not.
-/

namespace TraceGraph.Stmt

variable {env : Env} {line start inner operand : Nat} {op : AssignOp} {arithmetic : BinaryOp}
  {target : String} {value : Expr}

theorem foldExpression_assign
    (h : (foldExpression line (.assign start op target value) env).fault = none) :
    ∃ v bound, value.fold env = .ok v ∧ assigned start op target v env = .ok bound ∧
      (foldExpression line (.assign start op target value) env).env = env.bind target bound := by
  rcases foldExpression_cases h with
    ⟨_, _, _, _, v, bound, heq, hvalue, hbound, hdone⟩ | ⟨_, _, _, _, heq, -⟩ | ⟨v, hfold, -⟩
  · cases heq
    exact ⟨v, bound, hvalue, hbound, by rw [hdone]; rfl⟩
  · cases heq
  · cases hfold

/-- A compound assignment computes with what the target is bound to and with the value
folded twice. -/
theorem foldExpression_compound (hop : op.arithmetic? = some arithmetic)
    (h : (foldExpression line (.assign start op target value) env).fault = none) :
    ∃ held v again, env.get? target = some held ∧ value.fold env = .ok v ∧
      v.fold env = .ok again ∧
      (foldExpression line (.assign start op target value) env).env
        = env.bind target (Expr.foldBinary start arithmetic (held.withLine start) again) := by
  obtain ⟨v, bound, hvalue, hbound, henv⟩ := foldExpression_assign h
  rw [assigned, hop] at hbound
  obtain ⟨l, again, hl, hagain, rfl⟩ := Expr.fold_binary_eq_ok.1 hbound
  obtain ⟨held, hheld, rfl⟩ := Expr.fold_identifier_eq_ok.1 hl
  exact ⟨held, v, again, hheld, hvalue, hagain, henv⟩

/-- The expansion computes with the value folded once. -/
theorem foldExpression_expansion
    (h : (foldExpression line (.assign start .assign target
      (.binary inner arithmetic (.identifier operand target) value)) env).fault = none) :
    ∃ held v, env.get? target = some held ∧ value.fold env = .ok v ∧
      (foldExpression line (.assign start .assign target
          (.binary inner arithmetic (.identifier operand target) value)) env).env
        = env.bind target (Expr.foldBinary inner arithmetic (held.withLine operand) v) := by
  obtain ⟨_, bound, hexpanded, hbound, henv⟩ := foldExpression_assign h
  obtain ⟨l, v, hl, hv, rfl⟩ := Expr.fold_binary_eq_ok.1 hexpanded
  obtain ⟨held, hheld, rfl⟩ := Expr.fold_identifier_eq_ok.1 hl
  cases hbound
  exact ⟨held, v, hheld, hv, henv⟩

/-- That the right operand has been folded once more can be told from the result. -/
theorem eraseLines_foldBinary_iff {held v again : Expr} (hagain : v.fold env = .ok again) :
    (Expr.foldBinary start arithmetic (held.withLine start) again).eraseLines
        = (Expr.foldBinary inner arithmetic (held.withLine operand) v).eraseLines ↔
      again.eraseLines = v.eraseLines := by
  have hheld : (held.withLine start).eraseLines = (held.withLine operand).eraseLines := by
    rw [Expr.eraseLines_withLine, Expr.eraseLines_withLine]
  constructor
  · intro h
    cases hright : v.foldable? with
    | some value =>
      -- The operand is a literal, and folds to itself.
      obtain ⟨_, rfl, -⟩ := Expr.foldable?_eq_some hright
      cases hagain
      rfl
    | none =>
      have hkept : Expr.foldBinary inner arithmetic (held.withLine operand) v
          = .binary inner arithmetic (held.withLine operand) v := by
        unfold Expr.foldBinary
        split
        · rename_i hr
          cases hright.symm.trans hr
        · rfl
      rw [hkept] at h
      exact (Expr.operands_of_foldBinary h).2
  · intro h
    unfold Expr.foldBinary
    rw [Expr.foldable?_eq_of_eraseLines hheld, Expr.foldable?_eq_of_eraseLines h]
    split
    · rfl
    · show Expr.binary 0 arithmetic (Expr.eraseLines _) (Expr.eraseLines _) = _
      rw [hheld, h]
      rfl

/-- A compound assignment and its expansion change the binding of their target only.
Where the bindings come from folding, the two bind the target to the same expression
up to lines exactly if each name in the folded value is bound to itself. -/
theorem compound_eq_expansion_iff (henv : env.Reachable) (hop : op.arithmetic? = some arithmetic)
    {line' start' : Nat}
    (hcompound : (fold (.expression line (.assign start op target value)) env).fault = none)
    (hexpanded : (fold (.expression line' (.assign start' .assign target
      (.binary inner arithmetic (.identifier operand target) value))) env).fault = none) :
    ∃ v bound bound', value.fold env = .ok v ∧
      (∀ name, (fold (.expression line (.assign start op target value)) env).env.get? name
        = if name = target then some bound else env.get? name) ∧
      (∀ name, (fold (.expression line' (.assign start' .assign target
          (.binary inner arithmetic (.identifier operand target) value))) env).env.get? name
        = if name = target then some bound' else env.get? name) ∧
      (bound.eraseLines = bound'.eraseLines ↔ ∀ name ∈ v.reads, env.BoundToSelf name) := by
  obtain ⟨held, v, again, hheld, hvalue, hagain, hfirst⟩ := foldExpression_compound hop hcompound
  obtain ⟨held', v', hheld', hvalue', hsecond⟩ := foldExpression_expansion hexpanded
  cases hheld.symm.trans hheld'
  cases hvalue.symm.trans hvalue'
  rw [fold, fold, hfirst, hsecond]
  refine ⟨v, _, _, hvalue, fun name => Env.get?_bind _ _ _ _, fun name => Env.get?_bind _ _ _ _, ?_⟩
  rw [eraseLines_foldBinary_iff hagain]
  exact Expr.eraseLines_fold_iff (Expr.kept_normal.fold henv.normal hvalue) hagain

/-- Two names that are bound to themselves. -/
private def unknowns : Env :=
  (Env.empty.bindPlaceholder 1 "x").bindPlaceholder 1 "b"

private theorem initial_unknowns : unknowns.Initial :=
  (Env.initial_empty.bindPlaceholder 1 "x").bindPlaceholder 1 "b"

private theorem reachable_unknowns (body : List Stmt) : (foldAll body unknowns).env.Reachable :=
  ⟨unknowns, body, initial_unknowns, rfl⟩

/-- Keeps the value of a name in another one. -/
private def keepsName : List Stmt :=
  [.declare 2 .letDecl [⟨"a", some (.identifier 2 "b"), 2⟩]]

theorem compound_eq_expansion_iff_keepsName :
    ∃ bound bound',
      (fold (.expression 3 (.assign 3 .addAssign "x" (.identifier 3 "a")))
        (foldAll keepsName unknowns).env).env.get? "x" = some bound ∧
      (fold (.expression 4 (.assign 4 .assign "x"
          (.binary 4 .add (.identifier 4 "x") (.identifier 3 "a"))))
        (foldAll keepsName unknowns).env).env.get? "x" = some bound' ∧
      bound.eraseLines = bound'.eraseLines := by
  obtain ⟨v, bound, bound', hv, hbound, hbound', hiff⟩ :=
    compound_eq_expansion_iff (reachable_unknowns keepsName) rfl
      (by decide : (fold (.expression 3 (.assign 3 .addAssign "x" (.identifier 3 "a")))
        (foldAll keepsName unknowns).env).fault = none)
      (by decide : (fold (.expression 4 (.assign 4 .assign "x"
          (.binary 4 .add (.identifier 4 "x") (.identifier 3 "a"))))
        (foldAll keepsName unknowns).env).fault = none)
  cases hv
  refine ⟨bound, bound', hbound "x", hbound' "x", hiff.2 fun name hname => ?_⟩
  rw [List.mem_singleton.1 hname]
  exact ⟨1, rfl⟩

/-- Keeps the value of a name in another one, and then gives the name a value. -/
private def rebindsName : List Stmt :=
  keepsName ++ [.expression 3 (.assign 3 .assign "b" (.literal 3 (.bool true)))]

/-- The value that has been kept is not the one that the compound assignment computes
with. -/
theorem compound_ne_expansion :
    (foldAll rebindsName unknowns).env.Reachable ∧
      (fold (.expression 4 (.assign 4 .addAssign "x" (.identifier 4 "a")))
        (foldAll rebindsName unknowns).env).fault = none ∧
      (fold (.expression 4 (.assign 4 .assign "x"
          (.binary 4 .add (.identifier 4 "x") (.identifier 4 "a"))))
        (foldAll rebindsName unknowns).env).fault = none ∧
      ∃ bound bound',
        (fold (.expression 4 (.assign 4 .addAssign "x" (.identifier 4 "a")))
          (foldAll rebindsName unknowns).env).env.get? "x" = some bound ∧
        (fold (.expression 4 (.assign 4 .assign "x"
            (.binary 4 .add (.identifier 4 "x") (.identifier 4 "a"))))
          (foldAll rebindsName unknowns).env).env.get? "x" = some bound' ∧
        bound.eraseLines ≠ bound'.eraseLines :=
  ⟨reachable_unknowns rebindsName, by decide, by decide, _, _, rfl, rfl, by decide⟩

end TraceGraph.Stmt
