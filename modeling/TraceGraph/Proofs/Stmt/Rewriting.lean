import TraceGraph.Proofs.Stmt.Outline

/-!
# What folding rewrites, and how far it gets

Folding goes through the expressions of a list of statements in source order.  Most of
them it replaces by what they fold to.  The test of a loop and the arithmetic of a
compound assignment are only looked at.  The first expression that cannot be folded
stops it, and whatever comes later stays as it is.

The relation `Stmt.Rewrites` holds the statements before and after against each other
and lists their expressions as sites.  Everything that is not a site is the same on both
sides.  How far folding got among the sites is for `Swept` to say.

* `Site`: an expression that is replaced or looked at, with the bindings in force there.
* `Stmt.Rewrites` and `Stmt.RewritesAll`: two statements that differ in their sites only.
* `Swept`: sites of which the first ones have been folded, up to one that could not be.
* `Stmt.foldAll_rewrites`: folding sweeps over the sites of the statements.
-/

namespace TraceGraph

/-! ## Sites -/

/-- An expression that folding comes to, with the bindings in force there. -/
inductive Site where
  /-- An expression that folding may replace, before and after. -/
  | replace (env : Env) (before after : Expr)
  /-- An expression that is folded for its faults and its value only. -/
  | check (env : Env) (expr : Expr)

namespace Site

/-- The expression has been folded, and what it folds to has taken its place. -/
def Passed : Site → Prop
  | .replace env before after => before.fold env = .ok after
  | .check env expr => ∃ value, expr.fold env = .ok value

/-- The expression is still there. -/
def Untouched : Site → Prop
  | .replace _ before after => after = before
  | .check .. => True

/-- The expression cannot be folded, because of the fault. -/
def Fails (fault : Fault) : Site → Prop
  | .replace env before _ => before.fold env = .error fault
  | .check env expr => expr.fold env = .error fault

/-- What is there now starts on the line that the expression started on. -/
def KeepsLine : Site → Prop
  | .replace _ before after => after.line = before.line
  | .check .. => True

theorem Passed.keepsLine {site : Site} (h : site.Passed) : site.KeepsLine := by
  cases site with
  | replace env before after => exact Expr.line_fold h
  | check => trivial

theorem Untouched.keepsLine {site : Site} (h : site.Untouched) : site.KeepsLine := by
  cases site with
  | replace env before after => exact congrArg Expr.line h
  | check => trivial

end Site

/-- The sites have been folded one after the other, all of them or up to the first one
that could not be. -/
inductive Swept : Option Fault → List Site → Prop
  | through {sites : List Site} (hpassed : ∀ site ∈ sites, site.Passed) : Swept none sites
  | stopped {fault : Fault} {done rest : List Site} {site : Site}
      (hpassed : ∀ site ∈ done, site.Passed) (hfails : site.Fails fault)
      (hrest : ∀ other ∈ site :: rest, other.Untouched) :
      Swept (some fault) (done ++ site :: rest)

namespace Swept

variable {sites more : List Site} {fault : Fault} {outcome : Option Fault}

theorem nil : Swept none [] :=
  .through nofun

/-- Nothing has been folded. -/
theorem failed {site : Site} (hfails : site.Fails fault)
    (hrest : ∀ other ∈ site :: sites, other.Untouched) : Swept (some fault) (site :: sites) := by
  have h : Swept (some fault) ([] ++ site :: sites) := .stopped nofun hfails hrest
  exact h

/-- Sites that have been folded come before. -/
theorem after (hpassed : ∀ site ∈ sites, site.Passed) (h : Swept outcome more) :
    Swept outcome (sites ++ more) := by
  cases h with
  | through hmore =>
    exact .through fun site hsite => (List.mem_append.1 hsite).elim (hpassed site) (hmore site)
  | stopped hdone hfails hrest =>
    rw [← List.append_assoc]
    refine .stopped (fun site hsite => ?_) hfails hrest
    exact (List.mem_append.1 hsite).elim (hpassed site) (hdone site)

theorem cons {site : Site} (hpassed : site.Passed) (h : Swept outcome more) :
    Swept outcome (site :: more) := by
  have hsingle : ∀ other ∈ [site], other.Passed := by
    intro other hother
    rw [List.mem_singleton.1 hother]
    exact hpassed
  exact after hsingle h

/-- Sites that have not been reached come after. -/
theorem before (h : Swept (some fault) sites) (hmore : ∀ site ∈ more, site.Untouched) :
    Swept (some fault) (sites ++ more) := by
  cases h with
  | stopped hdone hfails hrest =>
    rw [List.append_assoc, List.cons_append]
    refine .stopped hdone hfails fun site hsite => ?_
    rw [← List.cons_append] at hsite
    exact (List.mem_append.1 hsite).elim (hrest site) (hmore site)

/-- If nothing stopped it, everything has been folded. -/
theorem passed (h : Swept none sites) : ∀ site ∈ sites, site.Passed := by
  cases h with
  | through hpassed => exact hpassed

theorem keepsLine (h : Swept outcome sites) : ∀ site ∈ sites, site.KeepsLine := by
  cases h with
  | through hpassed => exact fun site hsite => (hpassed site hsite).keepsLine
  | stopped hpassed hfails hrest =>
    intro site hsite
    rcases List.mem_append.1 hsite with hsite | hsite
    · exact (hpassed site hsite).keepsLine
    · exact (hrest site hsite).keepsLine

end Swept

/-! ## Statements that differ in their sites -/

/-- Whether the expression stores into a name.  As a statement, it is not replaced as a
whole. -/
def Expr.isStore : Expr → Bool
  | .assign .. | .update .. => true
  | .literal .. | .identifier .. | .unary .. | .binary .. => false

namespace Stmt

/-- Two lists of declarators that differ in their initial values only.  Each initial
value sees the names before it. -/
inductive RewritesDeclarators : Env → List Site → List Declarator → List Declarator → Prop
  | nil {env : Env} : RewritesDeclarators env [] [] []
  | unset {env : Env} {sites : List Site} {name : String} {line : Nat}
      {rest rest' : List Declarator}
      (hrest : RewritesDeclarators (env.bindPlaceholder line name) sites rest rest') :
      RewritesDeclarators env sites (⟨name, none, line⟩ :: rest) (⟨name, none, line⟩ :: rest')
  | init {env : Env} {sites : List Site} {name : String} {line : Nat} {init value : Expr}
      {rest rest' : List Declarator}
      (hrest : RewritesDeclarators (env.bind name value) sites rest rest') :
      RewritesDeclarators env (.replace env init value :: sites)
        (⟨name, some init, line⟩ :: rest) (⟨name, some value, line⟩ :: rest')

mutual

/-- Two statements that differ in their sites only, which are listed in source order.
Lines, names, operators, the tests of loops and steps by one are the same in both. -/
inductive Rewrites : Env → List Site → Stmt → Stmt → Prop
  | function {env : Env} {sites : List Site} {line : Nat} {name : String} {params : List String}
      {bodyLine : Nat} {body body' : List Stmt}
      (hbody : RewritesAll (params.foldl (·.bindPlaceholder bodyLine ·) env) sites body body') :
      Rewrites env sites (.function line name params bodyLine body)
        (.function line name params bodyLine body')
  | block {env : Env} {sites : List Site} {line : Nat} {body body' : List Stmt}
      (hbody : RewritesAll env sites body body') :
      Rewrites env sites (.block line body) (.block line body')
  | assign {env : Env} {line start : Nat} {op : AssignOp} {target : String}
      {value value' : Expr} (hop : op.arithmetic? = none) :
      Rewrites env [.replace env value value'] (.expression line (.assign start op target value))
        (.expression line (.assign start op target value'))
  /-- A compound assignment goes on to compute with its value. -/
  | compound {env : Env} {line start : Nat} {op : AssignOp} {arithmetic : BinaryOp}
      {target : String} {value value' : Expr} (hop : op.arithmetic? = some arithmetic) :
      Rewrites env
        [.replace env value value',
         .check env (.binary start arithmetic (.identifier start target) value')]
        (.expression line (.assign start op target value))
        (.expression line (.assign start op target value'))
  | update {env : Env} {line start : Nat} {op : UpdateOp} {leading : Bool} {target : String} :
      Rewrites env [] (.expression line (.update start op leading target))
        (.expression line (.update start op leading target))
  | value {env : Env} {line : Nat} {expr expr' : Expr} (hstore : expr.isStore = false) :
      Rewrites env [.replace env expr expr'] (.expression line expr) (.expression line expr')
  | declare {env : Env} {sites : List Site} {line : Nat} {kind : DeclKind}
      {declarators declarators' : List Declarator}
      (hdeclarators : RewritesDeclarators env sites declarators declarators') :
      Rewrites env sites (.declare line kind declarators) (.declare line kind declarators')
  | ifThen {env : Env} {sites : List Site} {line : Nat} {test test' : Expr}
      {consequent consequent' : Stmt} (hconsequent : Rewrites env sites consequent consequent') :
      Rewrites env (.replace env test test' :: sites) (.ifThen line test consequent)
        (.ifThen line test' consequent')
  | ifElse {env : Env} {first second : List Site} {line : Nat} {test test' : Expr}
      {consequent consequent' alternate alternate' : Stmt}
      (hconsequent : Rewrites env first consequent consequent')
      (halternate : Rewrites env second alternate alternate') :
      Rewrites env (.replace env test test' :: (first ++ second))
        (.ifElse line test consequent alternate) (.ifElse line test' consequent' alternate')
  | loop {env : Env} {sites : List Site} {line : Nat} {test : Expr} {body body' : Stmt}
      (hbody : Rewrites env sites body body') :
      Rewrites env (.check env test :: sites) (.loop line test body) (.loop line test body')
  | exit {env : Env} {line : Nat} :
      Rewrites env [] (.exit line none) (.exit line none)
  | exitWith {env : Env} {line : Nat} {result result' : Expr} :
      Rewrites env [.replace env result result'] (.exit line (some result))
        (.exit line (some result'))

/-- Two lists of statements that differ in their sites only.  Each statement sees what
the ones before it have bound. -/
inductive RewritesAll : Env → List Site → List Stmt → List Stmt → Prop
  | nil {env : Env} : RewritesAll env [] [] []
  | cons {env : Env} {first sites : List Site} {s s' : Stmt} {rest rest' : List Stmt}
      (hfirst : Rewrites env first s s') (hrest : RewritesAll (fold s env).env sites rest rest') :
      RewritesAll env (first ++ sites) (s :: rest) (s' :: rest')

end

/-! ## Statements that have not been reached -/

private theorem untouched_append {first second : List Site}
    (hfirst : ∀ site ∈ first, site.Untouched) (hsecond : ∀ site ∈ second, site.Untouched) :
    ∀ site ∈ first ++ second, site.Untouched :=
  fun site hsite => (List.mem_append.1 hsite).elim (hfirst site) (hsecond site)

private theorem untouched_cons {site : Site} {sites : List Site} (hsite : site.Untouched)
    (hsites : ∀ other ∈ sites, other.Untouched) : ∀ other ∈ site :: sites, other.Untouched := by
  intro other hother
  rcases List.mem_cons.1 hother with rfl | hother
  · exact hsite
  · exact hsites other hother

private theorem declarators_untouched (declarators : List Declarator) (env : Env) :
    ∃ sites, RewritesDeclarators env sites declarators declarators ∧
      ∀ site ∈ sites, site.Untouched := by
  induction declarators generalizing env with
  | nil => exact ⟨[], .nil, nofun⟩
  | cons d rest ih =>
    obtain ⟨name, init, line⟩ := d
    cases init with
    | none =>
      obtain ⟨sites, hrest, hsites⟩ := ih (env.bindPlaceholder line name)
      exact ⟨sites, .unset hrest, hsites⟩
    | some init =>
      obtain ⟨sites, hrest, hsites⟩ := ih (env.bind name init)
      exact ⟨_, .init hrest, untouched_cons rfl hsites⟩

private theorem expression_untouched (line : Nat) (expr : Expr) (env : Env) :
    ∃ sites, Rewrites env sites (.expression line expr) (.expression line expr) ∧
      ∀ site ∈ sites, site.Untouched := by
  cases expr with
  | assign start op target value =>
    cases hop : op.arithmetic? with
    | none => exact ⟨_, .assign hop, untouched_cons rfl nofun⟩
    | some arithmetic =>
      exact ⟨_, .compound hop, untouched_cons rfl (untouched_cons trivial nofun)⟩
  | update start op leading target => exact ⟨_, .update, nofun⟩
  | _ => exact ⟨_, .value rfl, untouched_cons rfl nofun⟩

mutual

/-- A statement that stays as it is has sites, none of which has been touched. -/
theorem rewrites_untouched : (s : Stmt) → (env : Env) →
    ∃ sites, Rewrites env sites s s ∧ ∀ site ∈ sites, site.Untouched
  | .function _ _ params bodyLine body, env => by
    obtain ⟨sites, hbody, hsites⟩ :=
      rewritesAll_untouched body (params.foldl (·.bindPlaceholder bodyLine ·) env)
    exact ⟨sites, .function hbody, hsites⟩
  | .block _ body, env => by
    obtain ⟨sites, hbody, hsites⟩ := rewritesAll_untouched body env
    exact ⟨sites, .block hbody, hsites⟩
  | .expression line expr, env => expression_untouched line expr env
  | .declare _ _ declarators, env => by
    obtain ⟨sites, hdeclarators, hsites⟩ := declarators_untouched declarators env
    exact ⟨sites, .declare hdeclarators, hsites⟩
  | .ifThen _ _ consequent, env => by
    obtain ⟨sites, hconsequent, hsites⟩ := rewrites_untouched consequent env
    exact ⟨_, .ifThen hconsequent, untouched_cons rfl hsites⟩
  | .ifElse _ _ consequent alternate, env => by
    obtain ⟨first, hconsequent, hfirst⟩ := rewrites_untouched consequent env
    obtain ⟨second, halternate, hsecond⟩ := rewrites_untouched alternate env
    exact ⟨_, .ifElse hconsequent halternate,
      untouched_cons rfl (untouched_append hfirst hsecond)⟩
  | .loop _ _ body, env => by
    obtain ⟨sites, hbody, hsites⟩ := rewrites_untouched body env
    exact ⟨_, .loop hbody, untouched_cons trivial hsites⟩
  | .exit _ none, _ => ⟨_, .exit, nofun⟩
  | .exit _ (some _), _ => ⟨_, .exitWith, untouched_cons rfl nofun⟩

/-- Statements that stay as they are have sites, none of which has been touched. -/
theorem rewritesAll_untouched : (body : List Stmt) → (env : Env) →
    ∃ sites, RewritesAll env sites body body ∧ ∀ site ∈ sites, site.Untouched
  | [], _ => ⟨_, .nil, nofun⟩
  | s :: rest, env => by
    obtain ⟨first, hs, hfirst⟩ := rewrites_untouched s env
    obtain ⟨sites, hrest, hsites⟩ := rewritesAll_untouched rest (fold s env).env
    exact ⟨_, .cons hs hrest, untouched_append hfirst hsites⟩

end

/-! ## Folding sweeps over the sites -/

private theorem foldDeclarators_sweeps (declarators : List Declarator) (env : Env) :
    ∃ sites,
      RewritesDeclarators env sites declarators (foldDeclarators declarators env).result ∧
        Swept (foldDeclarators declarators env).fault sites := by
  induction declarators generalizing env with
  | nil => exact ⟨[], .nil, .nil⟩
  | cons d rest ih =>
    obtain ⟨name, init, line⟩ := d
    cases init with
    | none =>
      obtain ⟨sites, hrest, hswept⟩ := ih (env.bindPlaceholder line name)
      exact ⟨sites, .unset hrest, hswept⟩
    | some init =>
      simp only [foldDeclarators]
      cases hfold : init.fold env with
      | error fault =>
        obtain ⟨sites, hrest, hsites⟩ := declarators_untouched rest (env.bind name init)
        exact ⟨_, .init hrest, .failed hfold (untouched_cons rfl hsites)⟩
      | ok value =>
        obtain ⟨sites, hrest, hswept⟩ := ih (env.bind name value)
        exact ⟨_, .init hrest, .cons hfold hswept⟩

private theorem foldAssign_sweeps (line start : Nat) (op : AssignOp) (target : String)
    (value : Expr) (env : Env) :
    ∃ sites,
      Rewrites env sites (.expression line (.assign start op target value))
          (foldExpression line (.assign start op target value) env).result ∧
        Swept (foldExpression line (.assign start op target value) env).fault sites := by
  simp only [foldExpression, assigned]
  cases hvalue : value.fold env with
  | error fault =>
    cases hop : op.arithmetic? with
    | none => exact ⟨_, .assign hop, .failed hvalue (untouched_cons rfl nofun)⟩
    | some arithmetic =>
      exact ⟨_, .compound hop, .failed hvalue (untouched_cons rfl (untouched_cons trivial nofun))⟩
  | ok v =>
    cases hop : op.arithmetic? with
    | none => exact ⟨_, .assign hop, .cons hvalue .nil⟩
    | some arithmetic =>
      dsimp only
      cases hbound : (Expr.binary start arithmetic (.identifier start target) v).fold env with
      | error fault =>
        -- the value has been replaced by now, although the statement fails
        exact ⟨_, .compound hop, .cons hvalue (.failed hbound (untouched_cons trivial nofun))⟩
      | ok bound => exact ⟨_, .compound hop, .cons hvalue (.cons ⟨bound, hbound⟩ .nil)⟩

private theorem foldExpression_sweeps (line : Nat) (expr : Expr) (env : Env) :
    ∃ sites, Rewrites env sites (.expression line expr) (foldExpression line expr env).result ∧
      Swept (foldExpression line expr env).fault sites := by
  unfold foldExpression
  split
  · exact foldAssign_sweeps _ _ _ _ _ _
  · exact ⟨_, .update, .nil⟩
  · rename_i hassign hupdate
    have hstore : expr.isStore = false := by
      cases expr with
      | assign start op target value => exact absurd rfl (hassign start op target value)
      | update start op leading target => exact absurd rfl (hupdate start op leading target)
      | _ => rfl
    cases hfold : expr.fold env with
    | error fault => exact ⟨_, .value hstore, .failed hfold (untouched_cons rfl nofun)⟩
    | ok value => exact ⟨_, .value hstore, .cons hfold .nil⟩

private theorem foldExit_sweeps (line : Nat) (result : Option Expr) (env : Env) :
    ∃ sites, Rewrites env sites (.exit line result) (foldExit line result env).result ∧
      Swept (foldExit line result env).fault sites := by
  cases result with
  | none => exact ⟨_, .exit, .nil⟩
  | some expr =>
    simp only [foldExit]
    cases hfold : expr.fold env with
    | error fault => exact ⟨_, .exitWith, .failed hfold (untouched_cons rfl nofun)⟩
    | ok value => exact ⟨_, .exitWith, .cons hfold .nil⟩

mutual

/-- Folding a statement sweeps over its sites and changes nothing else. -/
theorem fold_sweeps : (s : Stmt) → (env : Env) →
    ∃ sites, Rewrites env sites s (fold s env).result ∧ Swept (fold s env).fault sites
  | .function _ _ params bodyLine body, env => by
    obtain ⟨sites, hbody, hswept⟩ :=
      foldAll_sweeps body (params.foldl (·.bindPlaceholder bodyLine ·) env)
    exact ⟨sites, .function hbody, hswept⟩
  | .block _ body, env => by
    obtain ⟨sites, hbody, hswept⟩ := foldAll_sweeps body env
    exact ⟨sites, .block hbody, hswept⟩
  | .expression line expr, env => foldExpression_sweeps line expr env
  | .declare _ _ declarators, env => by
    obtain ⟨sites, hdeclarators, hswept⟩ := foldDeclarators_sweeps declarators env
    exact ⟨sites, .declare hdeclarators, hswept⟩
  | .ifThen _ test consequent, env => by
    rw [fold]
    cases htest : test.fold env with
    | error fault =>
      obtain ⟨sites, hconsequent, hsites⟩ := rewrites_untouched consequent env
      exact ⟨_, .ifThen hconsequent, .failed htest (untouched_cons rfl hsites)⟩
    | ok value =>
      obtain ⟨sites, hconsequent, hswept⟩ := fold_sweeps consequent env
      exact ⟨_, .ifThen hconsequent, .cons htest hswept⟩
  | .ifElse _ test consequent alternate, env => by
    rw [fold]
    cases htest : test.fold env with
    | error fault =>
      obtain ⟨first, hconsequent, hfirst⟩ := rewrites_untouched consequent env
      obtain ⟨second, halternate, hsecond⟩ := rewrites_untouched alternate env
      exact ⟨_, .ifElse hconsequent halternate,
        .failed htest (untouched_cons rfl (untouched_append hfirst hsecond))⟩
    | ok value =>
      obtain ⟨first, hconsequent, hfirst⟩ := fold_sweeps consequent env
      dsimp only
      cases hfault : (fold consequent env).fault with
      | some fault =>
        -- folding stops inside the consequent, and never comes to the alternative
        rw [hfault] at hfirst
        obtain ⟨second, halternate, hsecond⟩ := rewrites_untouched alternate env
        exact ⟨_, .ifElse hconsequent halternate, .cons htest (hfirst.before hsecond)⟩
      | none =>
        rw [hfault] at hfirst
        obtain ⟨second, halternate, hsecond⟩ := fold_sweeps alternate env
        exact ⟨_, .ifElse hconsequent halternate, .cons htest (hsecond.after hfirst.passed)⟩
  | .loop _ test body, env => by
    rw [fold]
    cases htest : test.fold env with
    | error fault =>
      obtain ⟨sites, hbody, hsites⟩ := rewrites_untouched body env
      exact ⟨_, .loop hbody, .failed htest (untouched_cons trivial hsites)⟩
    | ok value =>
      obtain ⟨sites, hbody, hswept⟩ := fold_sweeps body env
      exact ⟨_, .loop hbody, .cons ⟨value, htest⟩ hswept⟩
  | .exit line result, env => foldExit_sweeps line result env

/-- Folding statements sweeps over their sites and changes nothing else. -/
theorem foldAll_sweeps : (body : List Stmt) → (env : Env) →
    ∃ sites, RewritesAll env sites body (foldAll body env).result ∧
      Swept (foldAll body env).fault sites
  | [], _ => ⟨_, .nil, .nil⟩
  | s :: rest, env => by
    obtain ⟨first, hs, hfirst⟩ := fold_sweeps s env
    rw [foldAll]
    cases hfault : (fold s env).fault with
    | some fault =>
      -- bindings for the rest are of no account, since none of it is folded
      rw [hfault] at hfirst
      obtain ⟨sites, hrest, hsites⟩ := rewritesAll_untouched rest (fold s env).env
      exact ⟨_, .cons hs hrest, hfirst.before hsites⟩
    | none =>
      rw [hfault] at hfirst
      obtain ⟨sites, hrest, hswept⟩ := foldAll_sweeps rest (fold s env).env
      exact ⟨_, .cons hs hrest, hswept.after hfirst.passed⟩

end

/-- Folding statements, whether it goes through or not, changes nothing but the
expressions at their sites, and these keep their lines.  In source order, the first of
the sites hold what their expressions fold to, and the others hold the expressions that
were there before.  If folding goes through, there are no others.  If it stops, the
first one of them is where the fault comes from. -/
theorem foldAll_rewrites (body : List Stmt) (env : Env) :
    ∃ done rest, RewritesAll env (done ++ rest) body (foldAll body env).result ∧
      (∀ site ∈ done, site.Passed) ∧ (∀ site ∈ rest, site.Untouched) ∧
      (∀ site ∈ done ++ rest, site.KeepsLine) ∧
      match (foldAll body env).fault with
      | none => rest = []
      | some fault => ∃ site ∈ rest.head?, site.Fails fault := by
  obtain ⟨sites, hrewrites, hswept⟩ := foldAll_sweeps body env
  have hlines : ∀ site ∈ sites, site.KeepsLine := hswept.keepsLine
  revert hswept
  generalize (foldAll body env).fault = outcome
  intro hswept
  cases hswept with
  | through hpassed =>
    rw [← List.append_nil sites] at hrewrites hlines
    exact ⟨sites, [], hrewrites, hpassed, nofun, hlines, rfl⟩
  | stopped hpassed hfails hrest =>
    exact ⟨_, _, hrewrites, hpassed, hrest, hlines, _, rfl, hfails⟩

end Stmt

end TraceGraph
