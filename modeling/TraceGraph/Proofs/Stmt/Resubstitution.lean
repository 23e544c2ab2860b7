import TraceGraph.Proofs.Expr.Evaluation
import TraceGraph.Proofs.Stmt.Instantiation

/-!
# Substituting twice

Folding a program from nothing leaves expressions over symbols: parameters, and
names that are declared without a value.  As long as no symbol is ever given a
value, it stays bound to itself wherever it is bound, and a second substitution has
nothing left to do.

* `Env.Symbolic` is the invariant: symbols are bound to themselves, and whatever is
  bound is an expression over symbols that folding leaves as it is.
* `Stmt.fold_again` and `Stmt.foldAll_again`: folding the result of folding is the
  same folding, with the same bindings on the way.
* `Program.substitute_idempotent`: a second substitution goes through and changes
  nothing.
-/

namespace TraceGraph

/-! ## Symbols and targets -/

/-- The names that are assigned to anywhere in an expression. -/
def Expr.targets : Expr → List String
  | .literal .. | .identifier .. | .update .. => []
  | .unary _ _ operand => operand.targets
  | .binary _ _ left right => left.targets ++ right.targets
  | .assign _ _ target value => target :: value.targets

namespace Stmt

mutual

/-- The parameters of functions and the names that are declared without a value,
anywhere in a statement. -/
def symbols : Stmt → List String
  | .function _ _ params _ body => params ++ symbolsOf body
  | .block _ body => symbolsOf body
  | .declare _ _ declarators => (declarators.filter (·.init.isNone)).map Declarator.name
  | .ifThen _ _ consequent => symbols consequent
  | .ifElse _ _ consequent alternate => symbols consequent ++ symbols alternate
  | .loop _ _ body => symbols body
  | .expression .. | .exit .. => []

/-- The symbols of all statements of a list. -/
def symbolsOf : List Stmt → List String
  | [] => []
  | s :: rest => symbols s ++ symbolsOf rest

end

mutual

/-- The names that are assigned to or declared with a value, anywhere in a
statement. -/
def targets : Stmt → List String
  | .function _ _ _ _ body => targetsOf body
  | .block _ body => targetsOf body
  | .expression _ expr => expr.targets
  | .declare _ _ declarators =>
    declarators.flatMap fun d => d.init.elim [] fun init => d.name :: init.targets
  | .ifThen _ test consequent => test.targets ++ targets consequent
  | .ifElse _ test consequent alternate =>
    test.targets ++ (targets consequent ++ targets alternate)
  | .loop _ test body => test.targets ++ targets body
  | .exit _ result => result.elim [] Expr.targets

/-- The targets of all statements of a list. -/
def targetsOf : List Stmt → List String
  | [] => []
  | s :: rest => targets s ++ targetsOf rest

end

end Stmt

/-! ## Expressions that folding leaves as they are -/

namespace Expr

/-- Folding looks at nothing but what the names of the expression are bound to, and
not at the lines of that. -/
theorem fold_congr {env env' : Env} {e : Expr}
    (h : ∀ name ∈ e.reads, ∀ line,
      (env.get? name).map (withLine line) = (env'.get? name).map (withLine line)) :
    e.fold env = e.fold env' := by
  induction e with
  | literal => rfl
  | identifier line name =>
    have hname := h name (by simp [reads]) line
    rw [fold, fold]
    cases hget : env.get? name with
    | none =>
      rw [hget] at hname
      rw [Option.map_eq_none_iff.1 hname.symm]
    | some bound =>
      rw [hget] at hname
      obtain ⟨bound', hbound', heq⟩ := Option.map_eq_some_iff.1 hname.symm
      rw [hbound']
      exact congrArg Except.ok heq.symm
  | unary line op operand ih =>
    rw [fold, fold, ih h]
  | binary line op left right ihl ihr =>
    rw [reads] at h
    rw [fold, fold, ihl fun n hn => h n (List.mem_append_left _ hn),
      ihr fun n hn => h n (List.mem_append_right _ hn)]
  | assign => rfl
  | update => rfl

/-- If an expression can be folded, all its names are bound. -/
theorem bound_of_fold {env : Env} {e v : Expr} (h : e.fold env = .ok v) :
    ∀ name ∈ e.reads, ∃ bound, env.get? name = some bound := by
  induction e generalizing v with
  | literal => exact nofun
  | identifier line name =>
    obtain ⟨bound, hget, -⟩ := fold_identifier_eq_ok.1 h
    intro other hother
    rw [List.mem_singleton.1 hother]
    exact ⟨bound, hget⟩
  | unary line op operand ih =>
    obtain ⟨a, ha, -⟩ := fold_unary_eq_ok.1 h
    exact ih ha
  | binary line op left right ihl ihr =>
    obtain ⟨l, r, hl, hr, -⟩ := fold_binary_eq_ok.1 h
    intro name hname
    rcases List.mem_append.1 hname with hname | hname
    · exact ihl hl name hname
    · exact ihr hr name hname
  | assign => cases h
  | update => cases h

theorem reads_withLine (n : Nat) (e : Expr) : (e.withLine n).reads = e.reads := by
  cases e <;> rfl

theorem reads_foldUnary {line : Nat} {op : UnaryOp} {operand : Expr} {name : String}
    (h : name ∈ (foldUnary line op operand).reads) : name ∈ operand.reads := by
  unfold foldUnary at h
  split at h
  · cases h
  · exact h

theorem reads_foldBinary {line : Nat} {op : BinaryOp} {left right : Expr} {name : String}
    (h : name ∈ (foldBinary line op left right).reads) :
    name ∈ left.reads ∨ name ∈ right.reads := by
  unfold foldBinary at h
  split at h
  · cases h
  · exact List.mem_append.1 h

end Expr

namespace Env

variable {symbols : List String} {env : Env}

/-- The expression mentions symbols only, and folding leaves it as it is. -/
structure Settles (symbols : List String) (env : Env) (e : Expr) : Prop where
  reads : ∀ name ∈ e.reads, name ∈ symbols
  fold : e.fold env = .ok e

/-- Symbols are bound to themselves, and whatever is bound is settled. -/
structure Symbolic (symbols : List String) (env : Env) : Prop where
  own : ∀ name ∈ symbols, ∀ e, env.get? name = some e → ∃ line, e = .identifier line name
  settled : ∀ name e, env.get? name = some e → env.Settles symbols e

theorem symbolic_empty (symbols : List String) : empty.Symbolic symbols where
  own _ _ _ hget := by cases hget
  settled _ _ hget := by cases hget

namespace Symbolic

/-- What an expression folds to is settled. -/
theorem settles (h : env.Symbolic symbols) {e v : Expr} (hfold : e.fold env = .ok v) :
    env.Settles symbols v := by
  induction e generalizing v with
  | literal line value =>
    cases hfold
    exact ⟨nofun, rfl⟩
  | identifier line name =>
    obtain ⟨bound, hget, rfl⟩ := Expr.fold_identifier_eq_ok.1 hfold
    obtain ⟨hreads, hbound⟩ := h.settled name bound hget
    refine ⟨?_, Expr.fold_withLine line hbound⟩
    rw [Expr.reads_withLine]
    exact hreads
  | unary line op operand ih =>
    obtain ⟨a, ha, rfl⟩ := Expr.fold_unary_eq_ok.1 hfold
    obtain ⟨hreads, hsame⟩ := ih ha
    exact ⟨fun n hn => hreads n (Expr.reads_foldUnary hn), Expr.fold_foldUnary line op hsame⟩
  | binary line op left right ihl ihr =>
    obtain ⟨l, r, hl, hr, rfl⟩ := Expr.fold_binary_eq_ok.1 hfold
    obtain ⟨hreadsl, hsamel⟩ := ihl hl
    obtain ⟨hreadsr, hsamer⟩ := ihr hr
    refine ⟨fun n hn => ?_, Expr.fold_foldBinary line op hsamel hsamer⟩
    rcases Expr.reads_foldBinary hn with hn | hn
    · exact hreadsl n hn
    · exact hreadsr n hn
  | assign => cases hfold
  | update => cases hfold

/-- A settled expression does not notice a new binding.  If it mentions the name at
all, the name is a symbol and was bound to itself before. -/
theorem settles_bind (h : env.Symbolic symbols) {name : String} {value e : Expr}
    (hown : name ∈ symbols → ∃ line, value = .identifier line name)
    (he : env.Settles symbols e) : (env.bind name value).Settles symbols e := by
  refine ⟨he.reads, (Expr.fold_congr fun other hother line => ?_).trans he.fold⟩
  by_cases heq : other = name
  · subst heq
    have hmem := he.reads other hother
    obtain ⟨bound, hget⟩ := Expr.bound_of_fold he.fold other hother
    obtain ⟨old, rfl⟩ := h.own other hmem bound hget
    obtain ⟨new, rfl⟩ := hown hmem
    rw [get?_bind_self, hget]
    rfl
  · rw [get?_bind_of_ne _ _ heq]

theorem bind (h : env.Symbolic symbols) {name : String} {value : Expr}
    (hown : name ∈ symbols → ∃ line, value = .identifier line name)
    (hvalue : (env.bind name value).Settles symbols value) :
    (env.bind name value).Symbolic symbols where
  own other hother e hget := by
    rw [get?_bind] at hget
    split at hget
    · rename_i heq
      cases hget
      rw [heq] at hother ⊢
      exact hown hother
    · exact h.own other hother e hget
  settled other e hget := by
    rw [get?_bind] at hget
    split at hget
    · cases hget
      exact hvalue
    · exact h.settles_bind hown (h.settled other e hget)

/-- Giving a value to a name that is no symbol. -/
theorem bind_target (h : env.Symbolic symbols) {name : String} (hname : name ∉ symbols)
    {value : Expr} (hvalue : env.Settles symbols value) :
    (env.bind name value).Symbolic symbols := by
  have hown : name ∈ symbols → ∃ line, value = .identifier line name :=
    fun hmem => absurd hmem hname
  exact h.bind hown (h.settles_bind hown hvalue)

theorem bindPlaceholder (h : env.Symbolic symbols) {name : String} (hname : name ∈ symbols)
    (line : Nat) : (env.bindPlaceholder line name).Symbolic symbols := by
  refine h.bind (fun _ => ⟨line, rfl⟩) ⟨fun other hother => ?_, ?_⟩
  · rw [List.mem_singleton.1 hother]
    exact hname
  · exact Expr.fold_identifier_eq_ok.2 ⟨_, get?_bind_self _ _ _, rfl⟩

theorem foldl_bindPlaceholder (h : env.Symbolic symbols) {params : List String}
    (hparams : ∀ param ∈ params, param ∈ symbols) (line : Nat) :
    (params.foldl (·.bindPlaceholder line ·) env).Symbolic symbols := by
  induction params generalizing env with
  | nil => exact h
  | cons param params ih =>
    exact ih (h.bindPlaceholder (hparams param List.mem_cons_self) line)
      fun other hother => hparams other (List.mem_cons_of_mem _ hother)

end Symbolic

end Env

/-! ## Folding twice -/

namespace Stmt

variable {symbols : List String} {env : Env}

private theorem foldDeclarators_again (declarators : List Declarator)
    (hsymbols : ∀ name ∈ (declarators.filter (·.init.isNone)).map Declarator.name, name ∈ symbols)
    (htargets : ∀ name ∈ declarators.flatMap fun d =>
      d.init.elim [] fun init => d.name :: init.targets, name ∉ symbols)
    (henv : env.Symbolic symbols) (h : (foldDeclarators declarators env).fault = none) :
    foldDeclarators (foldDeclarators declarators env).result env = foldDeclarators declarators env ∧
      (foldDeclarators declarators env).env.Symbolic symbols := by
  induction declarators generalizing env with
  | nil => exact ⟨rfl, henv⟩
  | cons d rest ih =>
    obtain ⟨name, init, line⟩ := d
    rw [List.flatMap_cons] at htargets
    cases init with
    | none =>
      have hname : name ∈ symbols := hsymbols name (by simp)
      obtain ⟨hagain, hafter⟩ := ih (fun n hn => hsymbols n (by simp_all))
        (fun n hn => htargets n (List.mem_append_right _ hn)) (henv.bindPlaceholder hname line) h
      refine ⟨?_, hafter⟩
      simp only [foldDeclarators, Folded.map, hagain]
    | some init =>
      have hname : name ∉ symbols := htargets name (by simp)
      simp only [foldDeclarators] at h ⊢
      cases hfold : init.fold env with
      | error fault =>
        simp only [hfold] at h
        cases h
      | ok value =>
        simp only [hfold] at h ⊢
        have hvalue := henv.settles hfold
        obtain ⟨hagain, hafter⟩ := ih (fun n hn => hsymbols n (by simpa using hn))
          (fun n hn => htargets n (List.mem_append_right _ hn)) (henv.bind_target hname hvalue) h
        refine ⟨?_, hafter⟩
        simp only [Folded.map, foldDeclarators, hvalue.fold, hagain]

private theorem foldExpression_again {line : Nat} {expr : Expr}
    (htargets : ∀ name ∈ expr.targets, name ∉ symbols) (henv : env.Symbolic symbols)
    (h : (foldExpression line expr env).fault = none) :
    fold (foldExpression line expr env).result env = foldExpression line expr env ∧
      (foldExpression line expr env).env.Symbolic symbols := by
  rcases foldExpression_cases h with
    ⟨start, op, target, value, v, bound, rfl, hfold, hbound, heq⟩ | ⟨_, _, _, _, rfl, heq⟩ |
    ⟨v, hfold, heq⟩
  · have hv := henv.settles hfold
    have hsettles : env.Settles symbols bound := by
      unfold assigned at hbound
      split at hbound
      · cases hbound
        exact hv
      · exact henv.settles hbound
    rw [heq]
    exact ⟨foldExpression_assign_done hv.fold hbound,
      henv.bind_target (htargets target (by simp [Expr.targets])) hsettles⟩
  · exact ⟨heq, henv⟩
  · rw [heq]
    exact ⟨foldExpression_value_done (henv.settles hfold).fold, henv⟩

mutual

/-- Folding a folded statement is folding the statement. -/
theorem fold_again : (s : Stmt) → {env : Env} → (∀ name ∈ s.symbols, name ∈ symbols) →
    (∀ name ∈ s.targets, name ∉ symbols) → env.Symbolic symbols → (fold s env).fault = none →
    fold (fold s env).result env = fold s env ∧ (fold s env).env.Symbolic symbols
  | .function line name params bodyLine body, env, hsymbols, htargets, henv, h => by
    rw [Stmt.symbols] at hsymbols
    have hparams := henv.foldl_bindPlaceholder
      (fun n hn => hsymbols n (List.mem_append_left _ hn)) bodyLine
    obtain ⟨hagain, hafter⟩ := foldAll_again body
      (fun n hn => hsymbols n (List.mem_append_right _ hn)) htargets hparams h
    refine ⟨?_, hafter⟩
    simp only [fold, Folded.map, hagain]
  | .block line body, env, hsymbols, htargets, henv, h => by
    obtain ⟨hagain, hafter⟩ := foldAll_again body hsymbols htargets henv h
    refine ⟨?_, hafter⟩
    simp only [fold, Folded.map, hagain]
  | .expression line expr, env, _, htargets, henv, h => foldExpression_again htargets henv h
  | .declare line kind declarators, env, hsymbols, htargets, henv, h => by
    obtain ⟨hagain, hafter⟩ := foldDeclarators_again declarators hsymbols htargets henv h
    refine ⟨?_, hafter⟩
    simp only [fold, Folded.map, hagain]
  | .ifThen line test consequent, env, hsymbols, htargets, henv, h => by
    obtain ⟨value, htest, hconsequent, heq⟩ := fold_ifThen h
    rw [targets] at htargets
    obtain ⟨hagain, -⟩ := fold_again consequent hsymbols
      (fun n hn => htargets n (List.mem_append_right _ hn)) henv hconsequent
    rw [heq]
    refine ⟨?_, henv⟩
    show fold (.ifThen line value (fold consequent env).result) env = _
    rw [fold_ifThen_done (henv.settles htest).fold (by rw [hagain, hconsequent]), hagain]
  | .ifElse line test consequent alternate, env, hsymbols, htargets, henv, h => by
    obtain ⟨value, htest, hconsequent, halternate, heq⟩ := fold_ifElse h
    rw [Stmt.symbols] at hsymbols
    rw [targets] at htargets
    obtain ⟨hfirst, -⟩ := fold_again consequent (fun n hn => hsymbols n (by simp [hn]))
      (fun n hn => htargets n (by simp [hn])) henv hconsequent
    obtain ⟨hother, -⟩ := fold_again alternate (fun n hn => hsymbols n (by simp [hn]))
      (fun n hn => htargets n (by simp [hn])) henv halternate
    rw [heq]
    refine ⟨?_, henv⟩
    show fold (.ifElse line value (fold consequent env).result (fold alternate env).result) env = _
    rw [fold_ifElse_done (henv.settles htest).fold (by rw [hfirst, hconsequent])
      (by rw [hother, halternate]), hfirst, hother]
  | .loop line test body, env, hsymbols, htargets, henv, h => by
    obtain ⟨value, htest, hbody, heq⟩ := fold_loop h
    rw [targets] at htargets
    obtain ⟨hagain, -⟩ := fold_again body hsymbols
      (fun n hn => htargets n (List.mem_append_right _ hn)) henv hbody
    rw [heq]
    refine ⟨?_, henv⟩
    -- the test has not been rewritten, so it folds as it did before
    show fold (.loop line test (fold body env).result) env = _
    rw [fold_loop_done htest (by rw [hagain, hbody]), hagain]
  | .exit line none, env, _, _, henv, _ => ⟨rfl, henv⟩
  | .exit line (some result), env, _, _, henv, h => by
    obtain ⟨v, hfold, heq⟩ := foldExit_some h
    show fold (foldExit line (some result) env).result env = foldExit line (some result) env ∧
      (foldExit line (some result) env).env.Symbolic symbols
    rw [heq]
    refine ⟨?_, henv⟩
    show foldExit line (some v) env = _
    simp only [foldExit, (henv.settles hfold).fold]

/-- Folding folded statements is folding the statements. -/
theorem foldAll_again : (body : List Stmt) → {env : Env} →
    (∀ name ∈ symbolsOf body, name ∈ symbols) →
    (∀ name ∈ targetsOf body, name ∉ symbols) → env.Symbolic symbols →
    (foldAll body env).fault = none →
    foldAll (foldAll body env).result env = foldAll body env ∧
      (foldAll body env).env.Symbolic symbols
  | [], env, _, _, henv, _ => ⟨rfl, henv⟩
  | s :: rest, env, hsymbols, htargets, henv, h => by
    obtain ⟨hfirst, hrest, heq⟩ := foldAll_cons h
    rw [symbolsOf] at hsymbols
    rw [targetsOf] at htargets
    obtain ⟨hagain, hafter⟩ := fold_again s (fun n hn => hsymbols n (List.mem_append_left _ hn))
      (fun n hn => htargets n (List.mem_append_left _ hn)) henv hfirst
    obtain ⟨hothers, hlast⟩ := foldAll_again rest
      (fun n hn => hsymbols n (List.mem_append_right _ hn))
      (fun n hn => htargets n (List.mem_append_right _ hn)) hafter hrest
    rw [heq]
    refine ⟨?_, hlast⟩
    show foldAll ((fold s env).result :: (foldAll rest (fold s env).env).result) env = _
    rw [foldAll_cons_done (by rw [hagain, hfirst]) (by rw [hagain, hothers, hrest]), hagain,
      hothers]

end

end Stmt

/-! ## Programs -/

namespace Program

/-- If no parameter and no name that is declared without a value is also assigned to
or declared with a value, then a substitution that goes through can be repeated.  The
second one goes through as well and changes nothing, not even a line. -/
theorem substitute_idempotent {p : Program}
    (hsymbols : ∀ name ∈ Stmt.symbolsOf p.body, name ∉ Stmt.targetsOf p.body)
    (h : p.substitute.fault = none) :
    p.substitute.result.substitute.fault = none ∧
      p.substitute.result.substitute.result = p.substitute.result := by
  obtain ⟨hagain, -⟩ := Stmt.foldAll_again p.body (fun _ hn => hn)
    (fun n htarget hsymbol => hsymbols n hsymbol htarget) (Env.symbolic_empty _) h
  have hsame : p.substitute.result.substitute = p.substitute :=
    congrArg (Folded.map Program.mk) hagain
  rw [hsame]
  exact ⟨h, rfl⟩

/-- A function with a name that never gets a value, a compound assignment, a loop and
a sum that is not a number. -/
private def keepsSymbols : Program where
  body :=
    [.function 1 "f" ["x"] 1
       [.declare 2 .letDecl
          [⟨"a", some (.binary 2 .add (.identifier 2 "x")
             (.binary 2 .div (.literal 2 (.number 0)) (.literal 2 (.number 0)))), 2⟩,
           ⟨"u", none, 2⟩],
        .expression 3 (.assign 3 .addAssign "a" (.identifier 3 "u")),
        .loop 4 (.binary 4 .less (.identifier 4 "a") (.identifier 4 "x"))
          (.block 4 [.expression 5 (.assign 5 .assign "a" (.identifier 5 "x"))]),
        .ifThen 6 (.identifier 6 "a") (.exit 6 (some (.identifier 6 "a")))]]

theorem substitute_idempotent_keepsSymbols :
    (∀ name ∈ Stmt.symbolsOf keepsSymbols.body, name ∉ Stmt.targetsOf keepsSymbols.body) ∧
      keepsSymbols.substitute.fault = none ∧
      keepsSymbols.substitute.result.substitute.fault = none ∧
      keepsSymbols.substitute.result.substitute.result = keepsSymbols.substitute.result := by
  have hsymbols : ∀ name ∈ Stmt.symbolsOf keepsSymbols.body,
      name ∉ Stmt.targetsOf keepsSymbols.body := by decide
  have hfault : keepsSymbols.substitute.fault = none := by decide
  exact ⟨hsymbols, hfault, substitute_idempotent hsymbols hfault⟩

end Program

end TraceGraph
