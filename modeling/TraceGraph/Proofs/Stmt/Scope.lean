import TraceGraph.Analysis
import TraceGraph.Proofs.Stmt.Folding

/-!
# Faults of folding and the names in scope

Folding computes with values, but what stops it are names: one that is not bound,
or an assignment where a value is wanted.  `Stmt.check` looks for these faults and
knows nothing of an environment but the names that are bound in it.

A compound assignment folds a value that has been folded before, together with
whatever its target is bound to.  That this cannot fail is the invariant
`Env.Scoped`: every bound expression passes the check itself.

* `Stmt.checks_foldAll`: folding stops where the check does, and with the same
  fault.
* `Program.fault_independent_of_values`: two runs with other arguments, and the
  symbolic one, end with the same fault or all go through.
-/

namespace TraceGraph

/-! ## Checking names -/

/-- Whether folding the expression goes through when the names of `scope` are bound
and no others, or the fault that stops it. -/
def Expr.check (scope : List String) : Expr → Except Fault Unit
  | .literal .. => .ok ()
  | .identifier line name => if name ∈ scope then .ok () else .error (.unbound name line)
  | .unary _ _ operand => operand.check scope
  | .binary _ _ left right => do
    left.check scope
    right.check scope
  | .assign line _ _ _ => .error (.unsupported line .assignmentAsValue)
  | .update line _ _ _ => .error (.unsupported line .assignmentAsValue)

namespace Stmt

/-- Checks the initial values of a declaration, and gives the names that are bound
after it. -/
def checkDeclarators : List Declarator → List String → Except Fault (List String)
  | [], scope => .ok scope
  | d :: rest, scope =>
    match d.init with
    | none => checkDeclarators rest (d.name :: scope)
    | some init => do
      init.check scope
      checkDeclarators rest (d.name :: scope)

/-- Checks the target of an assignment.  Only a compound assignment reads it. -/
def checkTarget (line : Nat) (op : AssignOp) (target : String) (scope : List String) :
    Except Fault Unit :=
  match op.arithmetic? with
  | none => .ok ()
  | some _ => (Expr.identifier line target).check scope

/-- Checks an expression statement. -/
def checkExpression (expr : Expr) (scope : List String) : Except Fault (List String) :=
  match expr with
  | .assign start op target value => do
    value.check scope
    checkTarget start op target scope
    return target :: scope
  | .update .. => .ok scope
  | _ => do
    expr.check scope
    return scope

mutual

/-- Checks a statement, and gives the names that are bound after it. -/
def check : Stmt → List String → Except Fault (List String)
  | .function _ _ params _ body, scope => checkAll body (params ++ scope)
  | .block _ body, scope => checkAll body scope
  | .expression _ expr, scope => checkExpression expr scope
  | .declare _ _ declarators, scope => checkDeclarators declarators scope
  | .ifThen _ test consequent, scope => do
    test.check scope
    (check consequent scope).map fun _ => scope
  | .ifElse _ test consequent alternate, scope => do
    test.check scope
    let _ ← check consequent scope
    (check alternate scope).map fun _ => scope
  | .loop _ test body, scope => do
    test.check scope
    (check body scope).map fun _ => scope
  | .exit _ none, scope => .ok scope
  | .exit _ (some result), scope => do
    result.check scope
    return scope

/-- Checks statements one after the other. -/
def checkAll : List Stmt → List String → Except Fault (List String)
  | [], scope => .ok scope
  | s :: rest, scope => do
    let scope ← check s scope
    checkAll rest scope

end

end Stmt

/-! ## Scopes of environments -/

/-- The names of `scope` are bound in the environment and no others, and what they
are bound to can be folded again. -/
structure Env.Scoped (env : Env) (scope : List String) : Prop where
  isSome_iff : ∀ name, (env.get? name).isSome ↔ name ∈ scope
  closed : ∀ name e, env.get? name = some e → e.check scope = .ok ()

/-- An expression that passes the check passes it in a larger scope. -/
theorem Expr.check_mono {scope scope' : List String} (hsub : ∀ name ∈ scope, name ∈ scope')
    {e : Expr} (h : e.check scope = .ok ()) : e.check scope' = .ok () := by
  induction e with
  | literal => rfl
  | identifier line name =>
    by_cases hmem : name ∈ scope
    · rw [check, if_pos (hsub name hmem)]
    · rw [check, if_neg hmem] at h
      cases h
  | unary line op operand ih => exact ih h
  | binary line op left right ihl ihr =>
    obtain ⟨_, hleft, hright⟩ := bind_eq_ok_iff.1 h
    exact bind_eq_ok_iff.2 ⟨(), ihl hleft, ihr hright⟩
  | assign => cases h
  | update => cases h

theorem Expr.check_withLine (scope : List String) (n : Nat) {e : Expr}
    (h : e.check scope = .ok ()) : (e.withLine n).check scope = .ok () := by
  cases e with
  | identifier line name =>
    by_cases hmem : name ∈ scope
    · rw [withLine, check, if_pos hmem]
    · rw [check, if_neg hmem] at h
      cases h
  | assign => cases h
  | update => cases h
  | _ => exact h

namespace Env.Scoped

variable {env : Env} {scope : List String}

/-- Binding a name brings it into scope.  Its value may mention the name itself. -/
theorem bind (h : env.Scoped scope) {name : String} {value : Expr}
    (hvalue : value.check (name :: scope) = .ok ()) :
    (env.bind name value).Scoped (name :: scope) where
  isSome_iff other := by
    rw [Env.get?_bind, List.mem_cons]
    by_cases heq : other = name
    · simp [heq]
    · simp [heq, h.isSome_iff]
  closed other e hget := by
    rw [Env.get?_bind] at hget
    by_cases heq : other = name
    · rw [if_pos heq] at hget
      cases hget
      exact hvalue
    · rw [if_neg heq] at hget
      exact Expr.check_mono (fun _ => List.mem_cons_of_mem _) (h.closed other e hget)

theorem bindPlaceholder (h : env.Scoped scope) (line : Nat) (name : String) :
    (env.bindPlaceholder line name).Scoped (name :: scope) :=
  h.bind (if_pos List.mem_cons_self)

theorem foldl_bindPlaceholder (h : env.Scoped scope) (line : Nat) (params : List String) :
    (params.foldl (·.bindPlaceholder line ·) env).Scoped (params ++ scope) where
  isSome_iff name := by
    rw [Env.get?_foldl_bindPlaceholder, List.mem_append]
    by_cases hmem : name ∈ params
    · simp [hmem]
    · simp [hmem, h.isSome_iff]
  closed name e hget := by
    rw [Env.get?_foldl_bindPlaceholder] at hget
    by_cases hmem : name ∈ params
    · rw [if_pos hmem] at hget
      cases hget
      exact if_pos (List.mem_append_left _ hmem)
    · rw [if_neg hmem] at hget
      exact Expr.check_mono (fun _ => List.mem_append_right _) (h.closed name e hget)

end Env.Scoped

/-! ## Folding stops where the check does -/

namespace Expr

variable {env : Env} {scope : List String}

private theorem check_foldUnary (line : Nat) (op : UnaryOp) {operand : Expr}
    (h : operand.check scope = .ok ()) : (foldUnary line op operand).check scope = .ok () := by
  unfold foldUnary
  split
  · rfl
  · exact h

private theorem check_foldBinary (line : Nat) (op : BinaryOp) {left right : Expr}
    (hleft : left.check scope = .ok ()) (hright : right.check scope = .ok ()) :
    (foldBinary line op left right).check scope = .ok () := by
  unfold foldBinary
  split
  · rfl
  · exact bind_eq_ok_iff.2 ⟨(), hleft, hright⟩

/-- Either the check passes, and the expression is folded to one that passes it
again, or both stop at the same fault. -/
theorem fold_check (h : env.Scoped scope) (e : Expr) :
    (∃ value, e.fold env = .ok value ∧ e.check scope = .ok () ∧ value.check scope = .ok ()) ∨
      ∃ fault, e.fold env = .error fault ∧ e.check scope = .error fault := by
  induction e with
  | literal line value => exact .inl ⟨.literal line value, rfl, rfl, rfl⟩
  | identifier line name =>
    have hbound := h.isSome_iff name
    cases hget : env.get? name with
    | none =>
      have hmem : name ∉ scope := fun hmem => by simp [hget, hmem] at hbound
      exact .inr ⟨.unbound name line, by rw [fold, hget], if_neg hmem⟩
    | some bound =>
      have hmem : name ∈ scope := hbound.1 (by rw [hget]; rfl)
      refine .inl ⟨bound.withLine line, by rw [fold, hget], if_pos hmem, ?_⟩
      exact check_withLine scope line (h.closed name bound hget)
  | unary line op operand ih =>
    rcases ih with ⟨value, hfold, hcheck, hvalue⟩ | ⟨fault, hfold, hcheck⟩
    · refine .inl ⟨foldUnary line op value, ?_, hcheck, check_foldUnary line op hvalue⟩
      rw [fold, hfold]
      rfl
    · refine .inr ⟨fault, ?_, hcheck⟩
      rw [fold, hfold]
      rfl
  | binary line op left right ihl ihr =>
    rcases ihl with ⟨l, hfoldl, hcheckl, hl⟩ | ⟨fault, hfoldl, hcheckl⟩
    · rcases ihr with ⟨r, hfoldr, hcheckr, hr⟩ | ⟨fault, hfoldr, hcheckr⟩
      · refine .inl ⟨foldBinary line op l r, ?_, ?_, check_foldBinary line op hl hr⟩
        · rw [fold, hfoldl, hfoldr]
          rfl
        · exact bind_eq_ok_iff.2 ⟨(), hcheckl, hcheckr⟩
      · refine .inr ⟨fault, ?_, ?_⟩
        · rw [fold, hfoldl, hfoldr]
          rfl
        · rw [check, hcheckl, hcheckr]
          rfl
    · refine .inr ⟨fault, ?_, ?_⟩
      · rw [fold, hfoldl]
        rfl
      · rw [check, hcheckl]
        rfl
  | assign line op target value => exact .inr ⟨_, rfl, rfl⟩
  | update line op leading target => exact .inr ⟨_, rfl, rfl⟩

end Expr

/-- Folding has come to the same as the check: both were stopped by one fault, or
both went through and the scope that the check gives is that of the environment. -/
inductive Checks {α : Type} : Folded α → Except Fault (List String) → Prop
  | through {result : α} {env : Env} {scope : List String} (hscope : env.Scoped scope) :
      Checks (.done result env) (.ok scope)
  | stopped {result : α} {env : Env} {fault : Fault} :
      Checks (.stopped result env fault) (.error fault)

namespace Checks

variable {α β : Type} {x : Folded α} {outcome : Except Fault (List String)}

theorem map (h : Checks x outcome) (f : α → β) : Checks (x.map f) outcome := by
  cases h with
  | through hscope => exact .through hscope
  | stopped => exact .stopped

/-- A branch leaves the environment as it was. -/
theorem leaving (h : Checks x outcome) {env : Env} {scope : List String}
    (hscope : env.Scoped scope) : Checks (x.leaving env) (outcome.map fun _ => scope) := by
  cases h with
  | through => exact .through hscope
  | stopped => exact .stopped

/-- Two foldings that come to what one check comes to have the same fault. -/
theorem fault_eq {y : Folded β} (hx : Checks x outcome) (hy : Checks y outcome) :
    x.fault = y.fault := by
  cases hx with
  | through =>
    cases hy with
    | through => rfl
  | stopped =>
    cases hy with
    | stopped => rfl

end Checks

namespace Stmt

private theorem checks_foldDeclarators (declarators : List Declarator) {env : Env}
    {scope : List String} (h : env.Scoped scope) :
    Checks (foldDeclarators declarators env) (checkDeclarators declarators scope) := by
  induction declarators generalizing env scope with
  | nil => exact .through h
  | cons d rest ih =>
    obtain ⟨name, init, line⟩ := d
    cases init with
    | none => exact (ih (h.bindPlaceholder line name)).map _
    | some init =>
      simp only [foldDeclarators, checkDeclarators]
      rcases init.fold_check h with ⟨value, hfold, hcheck, hvalue⟩ | ⟨fault, hfold, hcheck⟩
      · rw [hfold, hcheck]
        have hbind := h.bind (Expr.check_mono (fun _ => List.mem_cons_of_mem name) hvalue)
        exact (ih hbind).map _
      · rw [hfold, hcheck]
        exact .stopped

/-- What an assignment binds its target to passes the check if the value does, and
the target where it is read.  A compound assignment folds the value once more. -/
private theorem assigned_check (start : Nat) (op : AssignOp) (target : String) {value : Expr}
    {env : Env} {scope : List String} (h : env.Scoped scope) (hvalue : value.check scope = .ok ()) :
    (∃ bound, assigned start op target value env = .ok bound ∧
        checkTarget start op target scope = .ok () ∧ bound.check scope = .ok ()) ∨
      ∃ fault, assigned start op target value env = .error fault ∧
        checkTarget start op target scope = .error fault := by
  unfold assigned checkTarget
  cases op.arithmetic? with
  | none => exact .inl ⟨value, rfl, rfl, hvalue⟩
  | some arithmetic =>
    have hboth : (Expr.binary start arithmetic (.identifier start target) value).check scope
        = (Expr.identifier start target).check scope := by
      show ((Expr.identifier start target).check scope >>= fun _ => value.check scope) = _
      rw [hvalue]
      cases (Expr.identifier start target).check scope <;> rfl
    rw [← hboth]
    exact Expr.fold_check h _

private theorem checks_foldExpression (line : Nat) (expr : Expr) {env : Env} {scope : List String}
    (h : env.Scoped scope) :
    Checks (foldExpression line expr env) (checkExpression expr scope) := by
  unfold foldExpression checkExpression
  split
  · rename_i start op target value
    dsimp only
    rcases value.fold_check h with ⟨v, hfold, hcheck, hv⟩ | ⟨fault, hfold, hcheck⟩
    · rw [hcheck]
      show Checks _ (checkTarget start op target scope >>= _)
      rcases assigned_check start op target h hv with
        ⟨bound, hassigned, htarget, hbound⟩ | ⟨fault, hassigned, htarget⟩
      · simp only [hfold, hassigned, htarget]
        exact .through (h.bind (Expr.check_mono (fun _ => List.mem_cons_of_mem target) hbound))
      · simp only [hfold, hassigned, htarget]
        exact .stopped
    · rw [hfold, hcheck]
      exact .stopped
  · exact .through h
  · rcases expr.fold_check h with ⟨value, hfold, hcheck, -⟩ | ⟨fault, hfold, hcheck⟩
    · simp only [hfold, hcheck]
      exact .through h
    · simp only [hfold, hcheck]
      exact .stopped

private theorem checks_foldExit (line : Nat) (result : Option Expr) {env : Env}
    {scope : List String} (h : env.Scoped scope) :
    Checks (foldExit line result env) (check (.exit line result) scope) := by
  cases result with
  | none => exact .through h
  | some result =>
    simp only [foldExit, check]
    rcases result.fold_check h with ⟨value, hfold, hcheck, -⟩ | ⟨fault, hfold, hcheck⟩
    · rw [hfold, hcheck]
      exact .through h
    · rw [hfold, hcheck]
      exact .stopped

mutual

/-- Folding a statement stops where its check does. -/
theorem checks_fold : (s : Stmt) → {env : Env} → {scope : List String} → env.Scoped scope →
    Checks (fold s env) (check s scope)
  | .function line name params bodyLine body, env, scope, h =>
    (checks_foldAll body (h.foldl_bindPlaceholder bodyLine params)).map _
  | .block line body, env, scope, h => (checks_foldAll body h).map _
  | .expression line expr, env, scope, h => checks_foldExpression line expr h
  | .declare line kind declarators, env, scope, h => (checks_foldDeclarators declarators h).map _
  | .ifThen line test consequent, env, scope, h => by
    simp only [fold, check]
    rcases test.fold_check h with ⟨value, hfold, hcheck, -⟩ | ⟨fault, hfold, hcheck⟩
    · rw [hfold, hcheck]
      exact ((checks_fold consequent h).map _).leaving h
    · rw [hfold, hcheck]
      exact .stopped
  | .ifElse line test consequent alternate, env, scope, h => by
    simp only [fold, check]
    rcases test.fold_check h with ⟨value, hfold, hcheck, -⟩ | ⟨fault, hfold, hcheck⟩
    · rw [hfold, hcheck]
      have hfirst := checks_fold consequent h
      have hother := checks_fold alternate h
      revert hfirst
      generalize fold consequent env = first
      generalize check consequent scope = outcome
      intro hfirst
      cases hfirst with
      | through => exact (hother.map _).leaving h
      | stopped => exact .stopped
    · rw [hfold, hcheck]
      exact .stopped
  | .loop line test body, env, scope, h => by
    simp only [fold, check]
    rcases test.fold_check h with ⟨value, hfold, hcheck, -⟩ | ⟨fault, hfold, hcheck⟩
    · rw [hfold, hcheck]
      exact ((checks_fold body h).map _).leaving h
    · rw [hfold, hcheck]
      exact .stopped
  | .exit line result, env, scope, h => checks_foldExit line result h

/-- Folding statements stops where their check does. -/
theorem checks_foldAll : (body : List Stmt) → {env : Env} → {scope : List String} →
    env.Scoped scope → Checks (foldAll body env) (checkAll body scope)
  | [], env, scope, h => .through h
  | s :: rest, env, scope, h => by
    simp only [foldAll, checkAll]
    have hfirst := checks_fold s h
    revert hfirst
    generalize fold s env = first
    generalize check s scope = outcome
    intro hfirst
    cases hfirst with
    | through hscope => exact (checks_foldAll rest hscope).map _
    | stopped => exact .stopped

end

end Stmt

/-! ## Arguments do not matter -/

namespace FunctionDecl

variable {decl : FunctionDecl}

theorem scoped_bindArguments {args : Arguments} {env : Env}
    (h : decl.bindArguments args = .ok env) : env.Scoped decl.params where
  isSome_iff name := by
    rw [get?_bindArguments h]
    by_cases hmem : name ∈ decl.params
    · simp [hmem, isSome_of_bindArguments h name hmem]
    · simp [hmem]
  closed name e hget := by
    rw [get?_bindArguments h] at hget
    by_cases hmem : name ∈ decl.params
    · rw [if_pos hmem] at hget
      obtain ⟨value, -, rfl⟩ := Option.map_eq_some_iff.1 hget
      rfl
    · rw [if_neg hmem] at hget
      cases hget

theorem scoped_placeholders (decl : FunctionDecl) : decl.placeholders.Scoped decl.params where
  isSome_iff name := by
    rw [get?_placeholders]
    by_cases hmem : name ∈ decl.params <;> simp [hmem]
  closed name e hget := by
    rw [get?_placeholders] at hget
    by_cases hmem : name ∈ decl.params
    · rw [if_pos hmem] at hget
      cases hget
      exact if_pos hmem
    · rw [if_neg hmem] at hget
      cases hget

end FunctionDecl

namespace Program

variable {p : Program} {decl : FunctionDecl}

/-- Folding the body for some arguments stops where folding the whole program from
nothing does. -/
theorem fault_eq_substitute_fault (hdecl : p.function? = some decl) {args : Arguments} {env : Env}
    (henv : decl.bindArguments args = .ok env) :
    (Stmt.foldAll decl.body env).fault = p.substitute.fault := by
  rw [substitute_fault hdecl]
  have hargs := Stmt.checks_foldAll decl.body (FunctionDecl.scoped_bindArguments henv)
  have hsymbolic := Stmt.checks_foldAll decl.body decl.scoped_placeholders
  exact hargs.fault_eq hsymbolic

/-- Labels can be folded for a program that has been classified, so the analysis
goes on to build the graph of the folded function. -/
theorem analyze_of_classify (hdecl : p.function? = some decl) {args : Arguments}
    {r : Classification} (hclassify : p.classify args = .ok r) :
    p.substitute.fault = none ∧ ∀ settings : Settings, settings.highlight = true →
      settings.foldLabels = true → ∃ folded, p.substitute.result.theFunction = .ok folded ∧
        p.analyze settings args = Graph.ofBody folded.body settings.firstId (some r) := by
  have hfunction := hclassify
  rw [classify_of_function? hdecl] at hfunction
  obtain ⟨env, trace, henv, hfold, -, -⟩ := FunctionDecl.classify_eq_ok hfunction
  have hfault : p.substitute.fault = none := by
    rw [← fault_eq_substitute_fault hdecl henv]
    exact hfold
  refine ⟨hfault, fun settings hhighlight hlabels => ?_⟩
  have hfolded := function?_substitute hdecl
  refine ⟨_, by rw [theFunction, hfolded], ?_⟩
  have hpath : p.path settings args = .ok (some r) := by
    rw [path, if_pos hhighlight, hclassify]
    rfl
  rw [analyze, hpath]
  show p.graph settings (some r) = _
  simp only [graph, if_pos hlabels, hfault, theFunction, hfolded]
  rfl

/-- What stops the folding of a function does not depend on its arguments.  For any
two argument vectors that give all parameters a value, folding the body goes
through for both or ends with one and the same fault, which is also that of
folding the program from nothing.  So a program that has been classified for such
arguments is never refused when its labels are to be folded. -/
theorem fault_independent_of_values (hdecl : p.function? = some decl) {args₁ args₂ : Arguments}
    (hargs₁ : ∀ param ∈ decl.params, (args₁.get? param).isSome)
    (hargs₂ : ∀ param ∈ decl.params, (args₂.get? param).isSome) :
    ∃ env₁ env₂, decl.bindArguments args₁ = .ok env₁ ∧ decl.bindArguments args₂ = .ok env₂ ∧
      (Stmt.foldAll decl.body env₁).fault = (Stmt.foldAll decl.body env₂).fault ∧
      (Stmt.foldAll decl.body env₁).fault = p.substitute.fault ∧
      ∀ r, p.classify args₁ = .ok r → p.substitute.fault = none ∧
        ∀ settings : Settings, settings.highlight = true → settings.foldLabels = true →
          ∃ folded, p.substitute.result.theFunction = .ok folded ∧
            p.analyze settings args₁ = Graph.ofBody folded.body settings.firstId (some r) := by
  obtain ⟨env₁, henv₁, -⟩ := FunctionDecl.bindArguments_eq_ok hargs₁
  obtain ⟨env₂, henv₂, -⟩ := FunctionDecl.bindArguments_eq_ok hargs₂
  have hfault₁ := fault_eq_substitute_fault hdecl henv₁
  have hfault₂ := fault_eq_substitute_fault hdecl henv₂
  refine ⟨env₁, env₂, henv₁, henv₂, hfault₁.trans hfault₂.symm, hfault₁, ?_⟩
  intro r hr
  exact analyze_of_classify hdecl hr

/-- A function that computes with a name which only one of its branches binds. -/
private def branchBinds : FunctionDecl where
  name := "f"
  params := ["x"]
  bodyLine := 1
  body :=
    [.declare 2 .letDecl
       [⟨"a", some (.binary 2 .add (.identifier 2 "x") (.literal 2 (.number 1))), 2⟩],
     .expression 3 (.assign 3 .addAssign "a" (.identifier 3 "a")),
     .ifThen 4 (.identifier 4 "a")
       (.expression 4 (.assign 4 .assign "b" (.literal 4 (.number 1)))),
     .expression 5 (.assign 5 .mulAssign "b" (.identifier 5 "a"))]

theorem fault_independent_of_values_branchBinds :
    (∀ param ∈ branchBinds.params,
        ((Arguments.ofPairs [("x", .number 1)]).get? param).isSome) ∧
      (∀ param ∈ branchBinds.params,
        ((Arguments.ofPairs [("x", .text "s")]).get? param).isSome) ∧
      (Program.substitute ⟨[.function 1 "f" ["x"] 1 branchBinds.body]⟩).fault
        = some (.unbound "b" 5) ∧
      (Stmt.foldAll branchBinds.body ⟨[("x", .literal 1 (.number 1))]⟩).fault
        = some (.unbound "b" 5) ∧
      (Stmt.foldAll branchBinds.body ⟨[("x", .literal 1 (.text "s"))]⟩).fault
        = some (.unbound "b" 5) := by
  have hnumber : ∀ param ∈ branchBinds.params,
      ((Arguments.ofPairs [("x", .number 1)]).get? param).isSome := by decide
  have htext : ∀ param ∈ branchBinds.params,
      ((Arguments.ofPairs [("x", .text "s")]).get? param).isSome := by decide
  have hdecl : Program.function? ⟨[.function 1 "f" ["x"] 1 branchBinds.body]⟩ = some branchBinds :=
    rfl
  have hsymbolic : (Program.substitute ⟨[.function 1 "f" ["x"] 1 branchBinds.body]⟩).fault
      = some (.unbound "b" 5) := by decide
  obtain ⟨env₁, env₂, henv₁, henv₂, hsame, hfault, -⟩ :=
    fault_independent_of_values hdecl hnumber htext
  cases henv₁
  cases henv₂
  exact ⟨hnumber, htext, hsymbolic, hfault.trans hsymbolic, hsame.symm.trans (hfault.trans hsymbolic)⟩

end Program

end TraceGraph
