import TraceGraph.Proofs.Stmt.Bindings
import TraceGraph.Proofs.Stmt.StoreRun

/-!
# Folding keeps values

A folded expression has the value of the expression that it replaces, whatever the
names left in it stand for.  Along statements that run one after the other the
bindings say what the names hold: once the parameters have values, what a name is
bound to has the value that the name holds after the run.  A parameter in a bound
expression means the value that the parameter had at the start, also after it has been
assigned to.

* `Env.valuesIn` is the store that the bindings of an environment describe.
* `Expr.evaluate_fold`: the value of a folded expression.
* `Stmt.exec_of_fold` and `Stmt.execAll_of_fold`: running statements on the store that
  the bindings describe ends in the store that the bindings after folding describe.
* `folding_keeps_values`: both for all values of the parameters.
-/

namespace TraceGraph

/-! ## Expressions without effects -/

/-- Whether neither an assignment nor a step by one occurs in the expression. -/
def Expr.effectFree : Expr → Bool
  | .literal .. | .identifier .. => true
  | .unary _ _ operand => operand.effectFree
  | .binary _ _ left right => left.effectFree && right.effectFree
  | .assign .. | .update .. => false

/-- No assignment and no step by one occurs in what names are bound to. -/
def Env.EffectFree (env : Env) : Prop :=
  env.Binds Expr.effectFree

/-- Folding leaves no assignment and no step by one. -/
theorem Expr.kept_effectFree : Kept effectFree where
  literal _ _ := rfl
  identifier _ _ := rfl
  withLine _ e := by cases e <;> rfl
  unary line op operand h := by
    unfold foldUnary
    split
    · rfl
    · exact h
  binary line op left right hleft hright := by
    unfold foldBinary
    split
    · rfl
    · exact Bool.and_eq_true_iff.2 ⟨hleft, hright⟩

/-! ## Values of expressions -/

/-- The store in which every name has a value. -/
def Store.total (values : String → Literal) : Store :=
  fun name => some (values name)

/-- What the bound names hold, where `base` has the values of the names that occur in
what they are bound to. -/
def Env.valuesIn (ops : Operators) (base : Store) (env : Env) : Store :=
  fun name => (env.get? name).bind (·.evaluate ops base)

variable {ops : Operators} {base : Store} {env : Env}

theorem Env.valuesIn_bind {name : String} {bound : Expr} {v : Literal}
    (hv : bound.evaluate ops base = some v) :
    (env.bind name bound).valuesIn ops base = (env.valuesIn ops base).set name v := by
  funext other
  rw [valuesIn, Env.get?_bind, Store.set]
  split
  · exact hv
  · rfl

namespace Expr

/-- A folded expression has the value that the expression has when each bound name
holds the value of what it is bound to. -/
theorem evaluate_fold {store : Store}
    (hstore : ∀ name bound, env.get? name = some bound → store name = bound.evaluate ops base)
    {e v : Expr} (h : e.fold env = .ok v) : v.evaluate ops base = e.evaluate ops store := by
  induction e generalizing v with
  | literal =>
    cases h
    rfl
  | identifier line name =>
    obtain ⟨bound, hget, rfl⟩ := fold_identifier_eq_ok.1 h
    rw [evaluate_withLine]
    exact (hstore name bound hget).symm
  | unary line op operand ih =>
    obtain ⟨a, ha, rfl⟩ := fold_unary_eq_ok.1 h
    rw [evaluate_foldUnary, evaluate, evaluate, ih ha]
  | binary line op left right ihl ihr =>
    obtain ⟨l, r, hl, hr, rfl⟩ := fold_binary_eq_ok.1 h
    rw [evaluate_foldBinary, evaluate, evaluate, ihl hl, ihr hr]
  | assign => cases h
  | update => cases h

/-- An expression without effects has a value where every name has one. -/
theorem exists_evaluate_total {e : Expr} (h : e.effectFree = true) (values : String → Literal) :
    ∃ v, e.evaluate ops (.total values) = some v := by
  induction e with
  | literal line value => exact ⟨value, rfl⟩
  | identifier line name => exact ⟨values name, rfl⟩
  | unary line op operand ih =>
    obtain ⟨v, hv⟩ := ih h
    exact ⟨ops.unary op v, by rw [evaluate, hv]; rfl⟩
  | binary line op left right ihl ihr =>
    obtain ⟨hleft, hright⟩ := Bool.and_eq_true_iff.1 h
    obtain ⟨l, hl⟩ := ihl hleft
    obtain ⟨r, hr⟩ := ihr hright
    exact ⟨ops.binary op l r, evaluate_binary hl hr⟩
  | assign => cases h
  | update => cases h

end Expr

/-! ## Values along statements -/

namespace Stmt

/-- Whether the statement, apart from those nested in it, only computes and stores
values: it declares names with a value, assigns without computing with the target,
has another expression that is no step by one, or is a block. -/
def straight : Stmt → Bool
  | .block .. => true
  | .expression _ (.assign _ op _ _) => op.arithmetic?.isNone
  | .expression _ (.update ..) => false
  | .expression .. => true
  | .declare _ _ declarators => declarators.all (·.init.isSome)
  | .function .. | .ifThen .. | .ifElse .. | .loop .. | .exit .. => false

variable (ops : Operators) (values : String → Literal)

/-- What is folded has a value, and the expression has it in the store that the
bindings describe. -/
private theorem exists_value {e v : Expr} (henv : env.EffectFree) (h : e.fold env = .ok v) :
    ∃ value, v.evaluate ops (.total values) = some value ∧
      e.evaluate ops (env.valuesIn ops (.total values)) = some value := by
  obtain ⟨value, hvalue⟩ := Expr.exists_evaluate_total (Expr.kept_effectFree.fold henv h) values
  have hbound : ∀ name bound, env.get? name = some bound →
      env.valuesIn ops (.total values) name = bound.evaluate ops (.total values) := by
    intro name bound hget
    rw [Env.valuesIn, hget]
    rfl
  have hsame := Expr.evaluate_fold hbound h
  exact ⟨value, hvalue, hsame.symm.trans hvalue⟩

private theorem storeDeclarators_of_fold {declarators : List Declarator}
    (hinit : declarators.all (·.init.isSome) = true) (henv : env.EffectFree)
    (h : (foldDeclarators declarators env).fault = none) :
    storeDeclarators ops declarators (env.valuesIn ops (.total values))
      = some ((foldDeclarators declarators env).env.valuesIn ops (.total values)) := by
  induction declarators generalizing env with
  | nil => rfl
  | cons d rest ih =>
    obtain ⟨name, init, line⟩ := d
    rw [List.all_cons, Bool.and_eq_true] at hinit
    cases init with
    | none => cases hinit.1
    | some init =>
      simp only [foldDeclarators] at h ⊢
      cases hfold : init.fold env with
      | error fault =>
        rw [hfold] at h
        cases h
      | ok bound =>
        rw [hfold] at h
        obtain ⟨v, hv, hstore⟩ := exists_value ops values henv hfold
        have hrest := ih hinit.2 (Expr.kept_effectFree.stable.value name henv hfold) h
        rw [Env.valuesIn_bind hv] at hrest
        simp only [storeDeclarators, Option.bind_eq_bind, Option.bind_some, hstore]
        exact hrest

private theorem storeExpression_of_fold {line : Nat} {expr : Expr}
    (hstraight : straight (.expression line expr) = true) (henv : env.EffectFree)
    (h : (foldExpression line expr env).fault = none) :
    storeExpression ops expr (env.valuesIn ops (.total values))
      = some ((foldExpression line expr env).env.valuesIn ops (.total values)) := by
  rcases foldExpression_cases h with
    ⟨start, op, target, value, v, bound, rfl, hfold, hbound, heq⟩ | ⟨_, _, _, _, rfl, -⟩ |
    ⟨v, hfold, heq⟩
  · have hop : op.arithmetic? = none := Option.isNone_iff_eq_none.1 hstraight
    rw [assigned, hop] at hbound
    cases hbound
    obtain ⟨result, hv, hstore⟩ := exists_value ops values henv hfold
    rw [heq]
    show _ = some ((env.bind target v).valuesIn ops (.total values))
    rw [Env.valuesIn_bind hv]
    simp only [storeExpression, hstore, stored, hop, Option.bind_eq_bind, Option.bind_some]
    rfl
  · cases hstraight
  · obtain ⟨result, -, hstore⟩ := exists_value ops values henv hfold
    rw [heq]
    unfold storeExpression
    split
    · cases hfold
    · rw [hstore]
      rfl

mutual

/-- Running a statement on the store that the bindings describe ends in the store that
the bindings after folding it describe. -/
theorem exec_of_fold : (s : Stmt) → {env : Env} → s.every straight = true → env.EffectFree →
    (fold s env).fault = none → ∃ marks, exec ops s (env.valuesIn ops (.total values))
      = some ⟨marks, (fold s env).env.valuesIn ops (.total values), false⟩
  | .block _ body, env, hstraight, henv, h => by
    rw [every, Bool.and_eq_true] at hstraight
    exact execAll_of_fold body hstraight.2 henv h
  | .expression line expr, env, hstraight, henv, h => by
    refine ⟨[.executed line], ?_⟩
    rw [exec, storeExpression_of_fold ops values hstraight henv h]
    rfl
  | .declare line kind declarators, env, hstraight, henv, h => by
    refine ⟨[.executed line], ?_⟩
    rw [exec, storeDeclarators_of_fold ops values hstraight henv h]
    rfl
  | .function .., _, hstraight, _, _ => by cases hstraight
  | .ifThen .., _, hstraight, _, _ => by cases hstraight
  | .ifElse .., _, hstraight, _, _ => by cases hstraight
  | .loop .., _, hstraight, _, _ => by cases hstraight
  | .exit .., _, hstraight, _, _ => by cases hstraight

/-- The same for statements one after the other. -/
theorem execAll_of_fold : (body : List Stmt) → {env : Env} → everyOf straight body = true →
    env.EffectFree → (foldAll body env).fault = none →
    ∃ marks, execAll ops body (env.valuesIn ops (.total values))
      = some ⟨marks, (foldAll body env).env.valuesIn ops (.total values), false⟩
  | [], env, _, _, _ => ⟨[], rfl⟩
  | s :: rest, env, hstraight, henv, h => by
    rw [everyOf, Bool.and_eq_true] at hstraight
    obtain ⟨hfirst, hrest, heq⟩ := foldAll_cons h
    obtain ⟨marks, hexec⟩ := exec_of_fold s hstraight.1 henv hfirst
    obtain ⟨others, hothers⟩ := execAll_of_fold rest hstraight.2
      (env_fold Expr.kept_effectFree.stable s henv) hrest
    refine ⟨marks ++ others, ?_⟩
    rw [execAll, hexec, heq, Option.bind_eq_bind, Option.bind_some,
      if_neg Bool.false_ne_true, hothers]
    rfl

end

end Stmt

/-! ## Functions -/

namespace FunctionDecl

/-- The store in which the parameters have the given values and no other name has
one. -/
def parameterStore (decl : FunctionDecl) (values : String → Literal) : Store :=
  fun name => if name ∈ decl.params then some (values name) else none

theorem effectFree_placeholders (decl : FunctionDecl) : decl.placeholders.EffectFree :=
  Expr.kept_effectFree.stable.placeholders decl.bodyLine decl.params fun _ _ hget => by cases hget

/-- At the start each parameter holds its value. -/
theorem valuesIn_placeholders (decl : FunctionDecl) (values : String → Literal) :
    decl.placeholders.valuesIn ops (.total values) = decl.parameterStore values := by
  funext name
  rw [Env.valuesIn, get?_placeholders, parameterStore]
  split <;> rfl

end FunctionDecl

/-- Folding keeps values, whatever the operators do to values that folding does not
compute with.  A folded expression is free of assignments and steps by one if the
bindings are, and it has the value of the expression, where each bound name holds the
value of what it is bound to.  If statements that only compute and store values are
folded with the parameters bound to themselves, then they run from any values of the
parameters, and after the run a name holds the value of what it is bound to, or none
if it is not bound. -/
theorem folding_keeps_values (ops : Operators) (values : String → Literal) :
    (∀ (env : Env) (e e' : Expr), env.EffectFree → e.fold env = .ok e' →
      e'.effectFree = true ∧
      ∀ held : String → Literal,
        (∀ name bound, env.get? name = some bound →
          bound.evaluate ops (.total values) = some (held name)) →
        ∃ value, e'.evaluate ops (.total values) = some value ∧
          e.evaluate ops (.total held) = some value) ∧
    ∀ decl : FunctionDecl, Stmt.everyOf Stmt.straight decl.body = true →
      (Stmt.foldAll decl.body decl.placeholders).fault = none →
      ∃ run, Stmt.execAll ops decl.body (decl.parameterStore values) = some run ∧
        run.returned = false ∧
        (∀ name bound, (Stmt.foldAll decl.body decl.placeholders).env.get? name = some bound →
          ∃ value, bound.evaluate ops (.total values) = some value ∧
            run.store name = some value) ∧
        ∀ name, (Stmt.foldAll decl.body decl.placeholders).env.get? name = none →
          run.store name = none := by
  refine ⟨fun env e e' henv hfold => ⟨Expr.kept_effectFree.fold henv hfold, fun held hheld => ?_⟩,
    fun decl hstraight hfault => ?_⟩
  · obtain ⟨value, hvalue⟩ := Expr.exists_evaluate_total (Expr.kept_effectFree.fold henv hfold) values
    have hsame := Expr.evaluate_fold (fun name bound hget => (hheld name bound hget).symm) hfold
    exact ⟨value, hvalue, hsame.symm.trans hvalue⟩
  · have henv := decl.effectFree_placeholders
    obtain ⟨marks, hexec⟩ := Stmt.execAll_of_fold ops values decl.body hstraight henv hfault
    rw [decl.valuesIn_placeholders values] at hexec
    refine ⟨_, hexec, rfl, fun name bound hget => ?_, fun name hget => ?_⟩
    · have hfree := Stmt.env_foldAll Expr.kept_effectFree.stable decl.body henv name bound hget
      obtain ⟨value, hvalue⟩ := Expr.exists_evaluate_total hfree values
      refine ⟨value, hvalue, ?_⟩
      show Env.valuesIn ops _ _ name = some value
      rw [Env.valuesIn, hget]
      exact hvalue
    · show Env.valuesIn ops _ _ name = none
      rw [Env.valuesIn, hget]
      rfl

/-- A plus before a text leaves it, and what is added to a text is written after it.  On
all other values the operators do what folding does. -/
private def gluing : Operators where
  unary op operand :=
    match op, operand with
    | .plus, .text s => .text s
    | op, operand => op.apply operand
  binary op left right :=
    match op, left with
    | .add, .text l => .text (l ++ right.render)
    | op, left => op.apply left right
  unary_eq op operand h := by
    cases operand with
    | text => cases h
    | number => cases op <;> rfl
    | bool => cases op <;> rfl
  binary_eq op left right hleft _ := by
    cases left with
    | text => cases hleft
    | number => cases op <;> rfl
    | bool => cases op <;> rfl

/-- A function that assigns to a parameter after it has used it, and that keeps what it
computed with the parameter. -/
private def reusesParameter : FunctionDecl where
  name := "f"
  params := ["x", "n"]
  bodyLine := 1
  body :=
    [.declare 2 .letDecl [⟨"a", some (.binary 2 .add (.identifier 2 "x") (.identifier 2 "n")), 2⟩],
     .expression 3 (.assign 3 .assign "x" (.literal 3 (.bool true))),
     .block 4
       [.declare 5 .constDecl
          [⟨"t", some (.binary 5 .add (.identifier 5 "a") (.literal 5 (.text "!"))), 5⟩],
        .expression 6 (.unary 6 .not (.identifier 6 "t")),
        .expression 7 (.assign 7 .assign "a" (.identifier 7 "x"))]]

theorem folding_keeps_values_reusesParameter :
    Stmt.everyOf Stmt.straight reusesParameter.body = true ∧
      (Stmt.foldAll reusesParameter.body reusesParameter.placeholders).fault = none ∧
      (∃ run, Stmt.execAll gluing reusesParameter.body
          (reusesParameter.parameterStore fun _ => .text "s") = some run ∧
        run.store "t" = some (.text "s's''!'") ∧ run.store "a" = some (.bool true)) ∧
      ∃ e' value, (Expr.unary 6 .not (.identifier 6 "x")).fold reusesParameter.placeholders
          = .ok e' ∧
        e'.evaluate gluing (.total fun _ => .text "s") = some value ∧
        (Expr.unary 6 .not (.identifier 6 "x")).evaluate gluing (.total fun _ => .text "s")
          = some value := by
  have hstraight : Stmt.everyOf Stmt.straight reusesParameter.body = true := by decide
  have hfault : (Stmt.foldAll reusesParameter.body reusesParameter.placeholders).fault = none := by
    decide
  have hkeeps := folding_keeps_values gluing fun _ => .text "s"
  obtain ⟨run, hrun, -, hbound, -⟩ := hkeeps.2 reusesParameter hstraight hfault
  obtain ⟨t, ht, hstoret⟩ := hbound "t" _ rfl
  obtain ⟨a, ha, hstorea⟩ := hbound "a" _ rfl
  have hglued : t = .text "s's''!'" :=
    (Option.some.inj ht).symm.trans (congrArg Literal.text (by decide +kernel))
  cases ha
  have hheld : ∀ name bound, reusesParameter.placeholders.get? name = some bound →
      bound.evaluate gluing (.total fun _ => .text "s") = some (.text "s") := by
    intro name bound hget
    rw [FunctionDecl.get?_placeholders] at hget
    split at hget
    · cases hget
      rfl
    · cases hget
  obtain ⟨value, hvalue, hsame⟩ := (hkeeps.1 reusesParameter.placeholders
    (.unary 6 .not (.identifier 6 "x")) _ reusesParameter.effectFree_placeholders rfl).2
    (fun _ => .text "s") hheld
  exact ⟨hstraight, hfault, ⟨run, hrun, hglued ▸ hstoret, hstorea⟩, _, value, rfl, hvalue, hsame⟩

end TraceGraph
