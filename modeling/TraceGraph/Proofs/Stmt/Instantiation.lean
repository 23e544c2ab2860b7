import TraceGraph.Proofs.Stmt.Folding

/-!
# Substitution before the arguments

Folding a function from nothing leaves expressions over its parameters.  If the
arguments are put in afterwards, the same expressions come out as if the body had
been folded with the arguments from the start.  This holds also after a parameter
has been assigned to or declared once more, because a parameter in a folded
expression always means the argument that the function was given.

* `Env.Instantiates`: with the arguments put in, the values of a symbolic
  environment are those of a concrete one.
* `Stmt.instantiate`: puts the arguments into the expressions of a statement.
* `Program.instantiate_substitute`: substitution followed by the arguments is
  folding with the arguments.
-/

namespace TraceGraph

/-! ## Expressions -/

namespace Expr

theorem withLine_foldUnary (line n : Nat) (op : UnaryOp) (operand : Expr) :
    (foldUnary line op operand).withLine n = foldUnary n op operand := by
  unfold foldUnary
  split <;> rfl

theorem withLine_foldBinary (line n : Nat) (op : BinaryOp) (left right : Expr) :
    (foldBinary line op left right).withLine n = foldBinary n op left right := by
  unfold foldBinary
  split <;> rfl

variable {env : Env}

/-- Folding does not look at the line of an expression. -/
theorem fold_withLine (n : Nat) {e v : Expr} (h : e.fold env = .ok v) :
    (e.withLine n).fold env = .ok (v.withLine n) := by
  cases e with
  | literal line value =>
    cases h
    rfl
  | identifier line name =>
    obtain ⟨bound, hbound, rfl⟩ := fold_identifier_eq_ok.1 h
    refine fold_identifier_eq_ok.2 ⟨bound, hbound, ?_⟩
    cases bound <;> rfl
  | unary line op operand =>
    obtain ⟨a, ha, rfl⟩ := fold_unary_eq_ok.1 h
    exact fold_unary_eq_ok.2 ⟨a, ha, (withLine_foldUnary line n op a).symm⟩
  | binary line op left right =>
    obtain ⟨l, r, hl, hr, rfl⟩ := fold_binary_eq_ok.1 h
    exact fold_binary_eq_ok.2 ⟨l, r, hl, hr, (withLine_foldBinary line n op l r).symm⟩
  | assign => cases h
  | update => cases h

/-- An operation may be computed before or after its operand is folded. -/
theorem fold_foldUnary (line : Nat) (op : UnaryOp) {operand a : Expr}
    (h : operand.fold env = .ok a) :
    (foldUnary line op operand).fold env = .ok (foldUnary line op a) := by
  cases hvalue : operand.foldable? with
  | some value =>
    obtain ⟨start, rfl, -⟩ := foldable?_eq_some hvalue
    cases h
    simp only [foldUnary, hvalue, fold]
  | none =>
    simp only [foldUnary, hvalue]
    exact fold_unary_eq_ok.2 ⟨a, h, rfl⟩

theorem fold_foldBinary (line : Nat) (op : BinaryOp) {left right l r : Expr}
    (hl : left.fold env = .ok l) (hr : right.fold env = .ok r) :
    (foldBinary line op left right).fold env = .ok (foldBinary line op l r) := by
  have hkept : (Expr.binary line op left right).fold env = .ok (foldBinary line op l r) :=
    fold_binary_eq_ok.2 ⟨l, r, hl, hr, rfl⟩
  cases hleft : left.foldable? with
  | none =>
    simp only [foldBinary, hleft]
    exact hkept
  | some x =>
    cases hright : right.foldable? with
    | none =>
      simp only [foldBinary, hleft, hright]
      exact hkept
    | some y =>
      obtain ⟨_, rfl, -⟩ := foldable?_eq_some hleft
      obtain ⟨_, rfl, -⟩ := foldable?_eq_some hright
      cases hl
      cases hr
      simp only [foldBinary, hleft, hright, fold]

end Expr

/-! ## Environments -/

/-- Every name that is bound in `symbolic` is bound in `concrete`, to what its
symbolic value becomes in `given`. -/
def Env.Instantiates (given symbolic concrete : Env) : Prop :=
  ∀ name e, symbolic.get? name = some e →
    ∃ v, concrete.get? name = some v ∧ e.fold given = .ok v

namespace Env.Instantiates

variable {given symbolic concrete : Env}

theorem bind (h : given.Instantiates symbolic concrete) (name : String) {e v : Expr}
    (hvalue : e.fold given = .ok v) :
    given.Instantiates (symbolic.bind name e) (concrete.bind name v) := by
  intro other bound hbound
  rw [Env.get?_bind] at hbound ⊢
  by_cases heq : other = name
  · rw [if_pos heq] at hbound ⊢
    cases hbound
    exact ⟨v, rfl, hvalue⟩
  · rw [if_neg heq] at hbound ⊢
    exact h other bound hbound

/-- Folding symbolically and then in `given` is folding concretely. -/
theorem fold (h : given.Instantiates symbolic concrete) {e e' : Expr}
    (hfold : e.fold symbolic = .ok e') :
    ∃ v, e.fold concrete = .ok v ∧ e'.fold given = .ok v := by
  induction e generalizing e' with
  | literal line value =>
    cases hfold
    exact ⟨.literal line value, rfl, rfl⟩
  | identifier line name =>
    obtain ⟨bound, hbound, rfl⟩ := Expr.fold_identifier_eq_ok.1 hfold
    obtain ⟨v, hv, hvalue⟩ := h name bound hbound
    exact ⟨v.withLine line, Expr.fold_identifier_eq_ok.2 ⟨v, hv, rfl⟩,
      Expr.fold_withLine line hvalue⟩
  | unary line op operand ih =>
    obtain ⟨a, ha, rfl⟩ := Expr.fold_unary_eq_ok.1 hfold
    obtain ⟨v, hv, hvalue⟩ := ih ha
    exact ⟨Expr.foldUnary line op v, Expr.fold_unary_eq_ok.2 ⟨v, hv, rfl⟩,
      Expr.fold_foldUnary line op hvalue⟩
  | binary line op left right ihl ihr =>
    obtain ⟨l, r, hl, hr, rfl⟩ := Expr.fold_binary_eq_ok.1 hfold
    obtain ⟨x, hx, hxvalue⟩ := ihl hl
    obtain ⟨y, hy, hyvalue⟩ := ihr hr
    exact ⟨Expr.foldBinary line op x y, Expr.fold_binary_eq_ok.2 ⟨x, y, hx, hy, rfl⟩,
      Expr.fold_foldBinary line op hxvalue hyvalue⟩
  | assign => cases hfold
  | update => cases hfold

end Env.Instantiates

/-! ## Putting in the arguments -/

namespace Stmt

/-- Puts the arguments into the initial values of a declaration. -/
def instantiateDeclarators (given : Env) : List Declarator → Except Fault (List Declarator)
  | [] => .ok []
  | d :: rest =>
    match d.init with
    | none => (instantiateDeclarators given rest).map (d :: ·)
    | some init => do
      let value ← init.fold given
      (instantiateDeclarators given rest).map (⟨d.name, some value, d.line⟩ :: ·)

/-- Puts the arguments into an expression statement.  Of an assignment this changes
the value, and a step by one has no expression to change. -/
def instantiateExpression (given : Env) : Expr → Except Fault Expr
  | .assign line op target value => (value.fold given).map (.assign line op target)
  | .update line op leading target => .ok (.update line op leading target)
  | e => e.fold given

mutual

/-- Puts the arguments into every expression of a statement that folding rewrites.
All of them are folded in the one environment `given`: nothing is bound on the
way, and nothing is left out because a test decides against it. -/
def instantiate (given : Env) : Stmt → Except Fault Stmt
  | .function line name params bodyLine body =>
    (instantiateAll given body).map (.function line name params bodyLine)
  | .block line body => (instantiateAll given body).map (.block line)
  | .expression line expr => (instantiateExpression given expr).map (.expression line)
  | .declare line kind declarators =>
    (instantiateDeclarators given declarators).map (.declare line kind)
  | .ifThen line test consequent => do
    let test ← test.fold given
    (instantiate given consequent).map (.ifThen line test)
  | .ifElse line test consequent alternate => do
    let test ← test.fold given
    let consequent ← instantiate given consequent
    (instantiate given alternate).map (.ifElse line test consequent)
  | .loop line test body => (instantiate given body).map (.loop line test)
  | .exit line none => .ok (.exit line none)
  | .exit line (some result) => (result.fold given).map fun value => .exit line (some value)

/-- Puts the arguments into every expression of a list of statements. -/
def instantiateAll (given : Env) : List Stmt → Except Fault (List Stmt)
  | [] => .ok []
  | s :: rest => do
    let s ← instantiate given s
    (instantiateAll given rest).map (s :: ·)

end

/-- Whether the statement is no nested function, no compound assignment, and no
declaration of a name without a value. -/
def inlines : Stmt → Bool
  | .function .. => false
  | .expression _ (.assign _ op _ _) => op.arithmetic?.isNone
  | .declare _ _ declarators => declarators.all (·.init.isSome)
  | _ => true

/-! ## Two ways of folding -/

/-- With the arguments put in, what has been folded symbolically is what has been
folded concretely. -/
structure Agrees {α : Type} (given : Env) (put : α → Except Fault α)
    (symbolic concrete : Folded α) : Prop where
  fault : concrete.fault = none
  result : put symbolic.result = .ok concrete.result
  env : given.Instantiates symbolic.env concrete.env

variable {given symbolic concrete : Env}

private theorem agrees_foldDeclarators {declarators : List Declarator}
    (hinit : declarators.all (·.init.isSome) = true)
    (henv : given.Instantiates symbolic concrete)
    (h : (foldDeclarators declarators symbolic).fault = none) :
    Agrees given (instantiateDeclarators given) (foldDeclarators declarators symbolic)
      (foldDeclarators declarators concrete) := by
  induction declarators generalizing symbolic concrete with
  | nil => exact ⟨rfl, rfl, henv⟩
  | cons d rest ih =>
    obtain ⟨name, init, line⟩ := d
    rw [List.all_cons, Bool.and_eq_true] at hinit
    cases init with
    | none => cases hinit.1
    | some init =>
      simp only [foldDeclarators] at h ⊢
      cases hfold : init.fold symbolic with
      | error fault =>
        rw [hfold] at h
        cases h
      | ok e =>
        rw [hfold] at h
        obtain ⟨v, hv, hvalue⟩ := henv.fold hfold
        obtain ⟨hfault, hresult, hafter⟩ := ih hinit.2 (henv.bind name hvalue) h
        rw [hv]
        refine ⟨hfault, ?_, hafter⟩
        show (e.fold given >>= fun value => _) = _
        rw [hvalue]
        show (instantiateDeclarators given _).map _ = _
        rw [hresult]
        rfl

private theorem agrees_foldExpression {line : Nat} {expr : Expr}
    (hinlines : inlines (.expression line expr) = true)
    (henv : given.Instantiates symbolic concrete)
    (h : (foldExpression line expr symbolic).fault = none) :
    Agrees given (instantiate given) (foldExpression line expr symbolic)
      (foldExpression line expr concrete) := by
  rcases foldExpression_cases h with
    ⟨start, op, target, value, e, bound, rfl, hfold, hbound, heq⟩ |
    ⟨start, op, leading, target, rfl, heq⟩ | ⟨e, hfold, heq⟩
  · have hop : op.arithmetic? = none := Option.isNone_iff_eq_none.1 hinlines
    have hsame : ∀ (value : Expr) (env : Env), assigned start op target value env = .ok value := by
      intro value env
      rw [assigned, hop]
    rw [hsame] at hbound
    cases hbound
    obtain ⟨v, hv, hvalue⟩ := henv.fold hfold
    rw [heq, foldExpression_assign_done hv (hsame v concrete)]
    refine ⟨rfl, ?_, henv.bind target hvalue⟩
    show ((e.fold given).map _).map _ = _
    rw [hvalue]
    rfl
  · exact ⟨rfl, rfl, henv⟩
  · obtain ⟨v, hv, hvalue⟩ := henv.fold hfold
    rw [heq, foldExpression_value_done hv]
    refine ⟨rfl, ?_, henv⟩
    have hput : instantiateExpression given e = .ok v := by
      cases e with
      | assign => cases hvalue
      | update => cases hvalue
      | _ => exact hvalue
    show (instantiateExpression given e).map _ = _
    rw [hput]
    rfl

private theorem agrees_foldExit {line : Nat} {result : Option Expr}
    (henv : given.Instantiates symbolic concrete)
    (h : (foldExit line result symbolic).fault = none) :
    Agrees given (instantiate given) (foldExit line result symbolic)
      (foldExit line result concrete) := by
  cases result with
  | none => exact ⟨rfl, rfl, henv⟩
  | some result =>
    obtain ⟨e, hfold, heq⟩ := foldExit_some h
    obtain ⟨v, hv, hvalue⟩ := henv.fold hfold
    rw [heq]
    simp only [foldExit, hv]
    refine ⟨rfl, ?_, henv⟩
    show (e.fold given).map _ = _
    rw [hvalue]
    rfl

mutual

/-- If a statement can be folded symbolically, it can be folded concretely, and the
arguments turn the first result into the second. -/
theorem agrees_fold : (s : Stmt) → {symbolic concrete : Env} → s.every inlines = true →
    given.Instantiates symbolic concrete → (fold s symbolic).fault = none →
    Agrees given (instantiate given) (fold s symbolic) (fold s concrete)
  | .function .., _, _, hinlines, _, _ => by
    rw [every, inlines, Bool.false_and] at hinlines
    cases hinlines
  | .block line body, symbolic, concrete, hinlines, henv, h => by
    obtain ⟨hfault, hresult, hafter⟩ := agrees_foldAll body hinlines henv h
    refine ⟨hfault, ?_, hafter⟩
    show (instantiateAll given (foldAll body symbolic).result).map _ = _
    rw [hresult]
    rfl
  | .expression line expr, symbolic, concrete, hinlines, henv, h =>
    agrees_foldExpression hinlines henv h
  | .declare line kind declarators, symbolic, concrete, hinlines, henv, h => by
    obtain ⟨hfault, hresult, hafter⟩ := agrees_foldDeclarators hinlines henv h
    refine ⟨hfault, ?_, hafter⟩
    show (instantiateDeclarators given (foldDeclarators declarators symbolic).result).map _ = _
    rw [hresult]
    rfl
  | .ifThen line test consequent, symbolic, concrete, hinlines, henv, h => by
    obtain ⟨e, hfold, hconsequent, heq⟩ := fold_ifThen h
    obtain ⟨v, hv, hvalue⟩ := henv.fold hfold
    have hbranch := agrees_fold consequent hinlines henv hconsequent
    rw [heq, fold_ifThen_done hv hbranch.fault]
    refine ⟨rfl, ?_, henv⟩
    simp only [Folded.done, instantiate, hvalue, hbranch.result]
    rfl
  | .ifElse line test consequent alternate, symbolic, concrete, hinlines, henv, h => by
    obtain ⟨hinlines₁, hinlines₂⟩ := Bool.and_eq_true_iff.1 hinlines
    obtain ⟨e, hfold, hconsequent, halternate, heq⟩ := fold_ifElse h
    obtain ⟨v, hv, hvalue⟩ := henv.fold hfold
    have hbranch := agrees_fold consequent hinlines₁ henv hconsequent
    have hother := agrees_fold alternate hinlines₂ henv halternate
    rw [heq, fold_ifElse_done hv hbranch.fault hother.fault]
    refine ⟨rfl, ?_, henv⟩
    simp only [Folded.done, instantiate, hvalue, hbranch.result, hother.result]
    rfl
  | .loop line test body, symbolic, concrete, hinlines, henv, h => by
    obtain ⟨e, hfold, hbody, heq⟩ := fold_loop h
    obtain ⟨v, hv, -⟩ := henv.fold hfold
    have hinside := agrees_fold body hinlines henv hbody
    rw [heq, fold_loop_done hv hinside.fault]
    refine ⟨rfl, ?_, henv⟩
    simp only [Folded.done, instantiate, hinside.result]
    rfl
  | .exit line result, symbolic, concrete, _, henv, h => agrees_foldExit henv h

/-- The same for statements one after the other. -/
theorem agrees_foldAll : (body : List Stmt) → {symbolic concrete : Env} →
    everyOf inlines body = true → given.Instantiates symbolic concrete →
    (foldAll body symbolic).fault = none →
    Agrees given (instantiateAll given) (foldAll body symbolic) (foldAll body concrete)
  | [], symbolic, concrete, _, henv, _ => ⟨rfl, rfl, henv⟩
  | s :: rest, symbolic, concrete, hinlines, henv, h => by
    rw [everyOf, Bool.and_eq_true] at hinlines
    obtain ⟨hfirst, hrest, heq⟩ := foldAll_cons h
    have hs := agrees_fold s hinlines.1 henv hfirst
    have hothers := agrees_foldAll rest hinlines.2 hs.env hrest
    rw [heq, foldAll_cons_done hs.fault hothers.fault]
    refine ⟨rfl, ?_, hothers.env⟩
    simp only [Folded.done, instantiateAll, hs.result, hothers.result]
    rfl

end

end Stmt

/-! ## Programs -/

/-- With the arguments put in, the placeholders of the parameters are their
arguments. -/
theorem FunctionDecl.instantiates_placeholders {decl : FunctionDecl} {args : Arguments} {env : Env}
    (h : decl.bindArguments args = .ok env) : env.Instantiates decl.placeholders env := by
  intro name e hget
  rw [get?_placeholders] at hget
  by_cases hmem : name ∈ decl.params
  · rw [if_pos hmem] at hget
    cases hget
    obtain ⟨value, hvalue⟩ := Option.isSome_iff_exists.1 (isSome_of_bindArguments h name hmem)
    have hbound : env.get? name = some (.literal decl.bodyLine value) := by
      rw [get?_bindArguments h, if_pos hmem, hvalue]
      rfl
    exact ⟨_, hbound, Expr.fold_identifier_eq_ok.2 ⟨_, hbound, rfl⟩⟩
  · rw [if_neg hmem] at hget
    cases hget

/-- Let the body of the only function nest no function, assign without computing and
declare every name with a value, and let substitution go through.  Then the body
folds without fault for any arguments of the parameters, and what it folds to is
what substitution leaves, with each expression folded once more where nothing but
the parameters is bound, to their arguments. -/
theorem Program.instantiate_substitute {p : Program} {decl : FunctionDecl}
    (hdecl : p.function? = some decl) (hinlines : Stmt.everyOf Stmt.inlines decl.body = true)
    {args : Arguments} (hargs : ∀ param ∈ decl.params, (args.get? param).isSome)
    (hsubstitute : p.substitute.fault = none) :
    ∃ given folded, decl.bindArguments args = .ok given ∧
      (∀ name, given.get? name
        = if name ∈ decl.params then (args.get? name).map (.literal decl.bodyLine) else none) ∧
      p.substitute.result.function? = some folded ∧
      (Stmt.foldAll decl.body given).fault = none ∧
      Stmt.instantiateAll given folded.body = .ok (Stmt.foldAll decl.body given).result := by
  obtain ⟨given, hgiven, -⟩ := FunctionDecl.bindArguments_eq_ok hargs
  rw [Program.substitute_fault hdecl] at hsubstitute
  obtain ⟨hfault, hresult, -⟩ := Stmt.agrees_foldAll decl.body hinlines
    (FunctionDecl.instantiates_placeholders hgiven) hsubstitute
  exact ⟨given, _, hgiven, FunctionDecl.get?_bindArguments hgiven,
    Program.function?_substitute hdecl, hfault, hresult⟩

/-- A function that assigns to its parameter and then branches on it. -/
private def reassigns : FunctionDecl where
  name := "f"
  params := ["x"]
  bodyLine := 1
  body :=
    [.declare 2 .letDecl
       [⟨"a", some (.binary 2 .add (.identifier 2 "x") (.literal 2 (.number 1))), 2⟩],
     .expression 3 (.assign 3 .assign "x" (.binary 3 .mul (.identifier 3 "a") (.identifier 3 "x"))),
     .ifThen 4 (.binary 4 .greater (.identifier 4 "x") (.identifier 4 "a"))
       (.block 4 [.exit 5 (some (.identifier 5 "x"))])]

theorem Program.instantiate_substitute_reassigns :
    (∀ param ∈ reassigns.params, ((Arguments.ofPairs [("x", .number 3)]).get? param).isSome) ∧
      Stmt.everyOf Stmt.inlines reassigns.body = true ∧
      (Program.substitute ⟨[.function 1 "f" ["x"] 1 reassigns.body]⟩).fault = none ∧
      (Stmt.foldAll reassigns.body ⟨[("x", .literal 1 (.number 3))]⟩).fault = none ∧
      Stmt.instantiateAll ⟨[("x", .literal 1 (.number 3))]⟩
        [.declare 2 .letDecl
           [⟨"a", some (.binary 2 .add (.identifier 2 "x") (.literal 2 (.number 1))), 2⟩],
         .expression 3 (.assign 3 .assign "x" (.binary 3 .mul
           (.binary 3 .add (.identifier 2 "x") (.literal 2 (.number 1))) (.identifier 3 "x"))),
         .ifThen 4 (.binary 4 .greater
             (.binary 4 .mul
               (.binary 3 .add (.identifier 2 "x") (.literal 2 (.number 1))) (.identifier 3 "x"))
             (.binary 4 .add (.identifier 2 "x") (.literal 2 (.number 1))))
           (.block 4 [.exit 5 (some (.binary 5 .mul
             (.binary 3 .add (.identifier 2 "x") (.literal 2 (.number 1))) (.identifier 3 "x")))])]
        = .ok (Stmt.foldAll reassigns.body ⟨[("x", .literal 1 (.number 3))]⟩).result := by
  have hargs : ∀ param ∈ reassigns.params,
      ((Arguments.ofPairs [("x", .number 3)]).get? param).isSome := by decide
  have hinlines : Stmt.everyOf Stmt.inlines reassigns.body = true := by decide
  have hsubstitute : (Program.substitute ⟨[.function 1 "f" ["x"] 1 reassigns.body]⟩).fault = none := by
    decide
  have hdecl : Program.function? ⟨[.function 1 "f" ["x"] 1 reassigns.body]⟩ = some reassigns := rfl
  obtain ⟨given, folded, hgiven, -, hfolded, hfault, hresult⟩ :=
    Program.instantiate_substitute hdecl hinlines hargs hsubstitute
  cases hgiven
  cases hfolded
  exact ⟨hargs, hinlines, hsubstitute, hfault, hresult⟩

end TraceGraph
