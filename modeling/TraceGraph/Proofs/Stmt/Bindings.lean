import TraceGraph.Proofs.Stmt.Folding

/-!
# What folding binds

Whatever a statement does to an environment, it does by two kinds of bindings: a name
is bound to itself, or to an expression that has just been folded in the environment
as it is.  So a property of environments that both kinds keep is kept by folding any
statements, also where a fault stops it.

* `Env.Stable`: a property that both kinds of bindings keep.
* `Stmt.env_fold` and `Stmt.env_foldAll`: folding keeps it.
* `Expr.Kept`: a property of expressions that folding keeps, so that all names stay bound
  to expressions that have it.
* `Stmt.binders`: the names that a statement binds outside branches and loops, in turn.
* `Stmt.binds_foldAll`: folding binds these names and no others, and a first part of them
  where a fault stops it.
-/

namespace TraceGraph

/-- The property is kept by binding a name to itself, and by binding a name to an
expression that has been folded. -/
structure Env.Stable (inv : Env → Prop) : Prop where
  placeholder : ∀ {env : Env} (line : Nat) (name : String), inv env →
    inv (env.bindPlaceholder line name)
  value : ∀ {env : Env} {e v : Expr} (name : String), inv env → e.fold env = .ok v →
    inv (env.bind name v)

theorem Env.Stable.placeholders {inv : Env → Prop} (hinv : Env.Stable inv) (line : Nat)
    (params : List String) {env : Env} (h : inv env) :
    inv (params.foldl (·.bindPlaceholder line ·) env) := by
  induction params generalizing env with
  | nil => exact h
  | cons param params ih => exact ih (hinv.placeholder line param h)

namespace Stmt

/-- What an assignment binds its target to has been folded. -/
theorem exists_fold_of_assigned {start : Nat} {op : AssignOp} {target : String}
    {value v bound : Expr} {env : Env} (hvalue : value.fold env = .ok v)
    (hbound : assigned start op target v env = .ok bound) :
    ∃ e : Expr, e.fold env = .ok bound := by
  unfold assigned at hbound
  split at hbound
  · cases hbound
    exact ⟨value, hvalue⟩
  · exact ⟨_, hbound⟩

section

variable {line : Nat} {test : Expr} {consequent alternate body : Stmt} {env : Env}

theorem env_fold_ifThen : (fold (.ifThen line test consequent) env).env = env := by
  rw [fold]
  split <;> rfl

theorem env_fold_ifElse : (fold (.ifElse line test consequent alternate) env).env = env := by
  rw [fold]
  split
  · rfl
  · dsimp only
    split <;> rfl

theorem env_fold_loop : (fold (.loop line test body) env).env = env := by
  rw [fold]
  split <;> rfl

theorem env_foldExit {result : Option Expr} : (foldExit line result env).env = env := by
  unfold foldExit
  split
  · rfl
  · split <;> rfl

end

variable {inv : Env → Prop}

private theorem env_foldDeclarators (hinv : Env.Stable inv) (declarators : List Declarator)
    {env : Env} (h : inv env) : inv (foldDeclarators declarators env).env := by
  induction declarators generalizing env with
  | nil => exact h
  | cons d rest ih =>
    rw [foldDeclarators]
    split
    · exact ih (hinv.placeholder d.line d.name h)
    · split
      · exact h
      · rename_i hvalue
        exact ih (hinv.value d.name h hvalue)

private theorem env_foldExpression (hinv : Env.Stable inv) (line : Nat) (expr : Expr)
    {env : Env} (h : inv env) : inv (foldExpression line expr env).env := by
  unfold foldExpression
  split
  · rename_i start op target value
    split
    · exact h
    · rename_i v hvalue
      dsimp only
      split
      · exact h
      · rename_i bound hbound
        obtain ⟨e, he⟩ := exists_fold_of_assigned hvalue hbound
        exact hinv.value target h he
  · exact h
  · split <;> exact h

mutual

/-- Folding a statement keeps every property that bindings keep. -/
theorem env_fold (hinv : Env.Stable inv) : (s : Stmt) → {env : Env} → inv env →
    inv (fold s env).env
  | .function _ _ params bodyLine body, _, h =>
    env_foldAll hinv body (hinv.placeholders bodyLine params h)
  | .block _ body, _, h => env_foldAll hinv body h
  | .expression line expr, _, h => env_foldExpression hinv line expr h
  | .declare _ _ declarators, _, h => env_foldDeclarators hinv declarators h
  | .ifThen .., _, h => by
    rw [env_fold_ifThen]
    exact h
  | .ifElse .., _, h => by
    rw [env_fold_ifElse]
    exact h
  | .loop .., _, h => by
    rw [env_fold_loop]
    exact h
  | .exit line result, env, h => by
    show inv (foldExit line result env).env
    rw [env_foldExit]
    exact h

/-- Folding statements one after the other keeps every property that bindings keep. -/
theorem env_foldAll (hinv : Env.Stable inv) : (body : List Stmt) → {env : Env} → inv env →
    inv (foldAll body env).env
  | [], _, h => h
  | s :: rest, _, h => by
    have hfirst := env_fold hinv s h
    rw [foldAll]
    split
    · exact hfirst
    · exact env_foldAll hinv rest hfirst

end

end Stmt

/-! ## Properties of what is bound -/

/-- All names are bound to expressions with a property. -/
def Env.Binds (env : Env) (ok : Expr → Bool) : Prop :=
  ∀ name bound, env.get? name = some bound → ok bound = true

theorem Env.Binds.bind {env : Env} {ok : Expr → Bool} (h : env.Binds ok) (name : String)
    {value : Expr} (hvalue : ok value = true) : (env.bind name value).Binds ok := by
  intro other bound hget
  rw [Env.get?_bind] at hget
  split at hget
  · cases hget
    exact hvalue
  · exact h other bound hget

/-- Whatever folding puts together from expressions with the property has it. -/
structure Expr.Kept (ok : Expr → Bool) : Prop where
  literal : ∀ line value, ok (.literal line value) = true
  identifier : ∀ line name, ok (.identifier line name) = true
  withLine : ∀ n e, ok (e.withLine n) = ok e
  unary : ∀ line op {operand : Expr}, ok operand = true → ok (foldUnary line op operand) = true
  binary : ∀ line op {left right : Expr}, ok left = true → ok right = true →
    ok (foldBinary line op left right) = true

namespace Expr.Kept

variable {ok : Expr → Bool}

/-- What is folded has the property, if everything that names are bound to has it. -/
theorem fold (hok : Kept ok) {env : Env} (henv : env.Binds ok) {e v : Expr}
    (h : e.fold env = .ok v) : ok v = true := by
  induction e generalizing v with
  | literal line value =>
    cases h
    exact hok.literal line value
  | identifier line name =>
    obtain ⟨bound, hget, rfl⟩ := fold_identifier_eq_ok.1 h
    rw [hok.withLine]
    exact henv name bound hget
  | unary line op operand ih =>
    obtain ⟨a, ha, rfl⟩ := fold_unary_eq_ok.1 h
    exact hok.unary line op (ih ha)
  | binary line op left right ihl ihr =>
    obtain ⟨l, r, hl, hr, rfl⟩ := fold_binary_eq_ok.1 h
    exact hok.binary line op (ihl hl) (ihr hr)
  | assign => cases h
  | update => cases h

theorem stable (hok : Kept ok) : Env.Stable (·.Binds ok) where
  placeholder line name h := h.bind name (hok.identifier line name)
  value name h hfold := h.bind name (hok.fold h hfold)

end Expr.Kept

/-! ## The names that are bound -/

/-- Binds names one after the other. -/
def Env.bindAll (env : Env) (bindings : List (String × Expr)) : Env :=
  bindings.foldl (fun env binding => env.bind binding.1 binding.2) env

theorem Env.log_bindAll (env : Env) (bindings : List (String × Expr)) :
    (env.bindAll bindings).log = bindings.reverse ++ env.log := by
  induction bindings generalizing env with
  | nil => rfl
  | cons binding rest ih =>
    rw [Env.bindAll, List.foldl_cons, ← Env.bindAll, ih, Env.bind, List.reverse_cons,
      List.append_assoc, List.singleton_append]

/-- The second environment is the first one after bindings of the names, in this order. -/
def Env.Extends (env : Env) (names : List String) (after : Env) : Prop :=
  ∃ bindings : List (String × Expr), bindings.map Prod.fst = names ∧ env.bindAll bindings = after

namespace Env.Extends

variable {env middle after : Env} {names later : List String}

theorem refl (env : Env) : env.Extends [] env :=
  ⟨[], rfl, rfl⟩

theorem bind (env : Env) (name : String) (value : Expr) :
    env.Extends [name] (env.bind name value) :=
  ⟨[(name, value)], rfl, rfl⟩

theorem trans (h : env.Extends names middle) (hlater : middle.Extends later after) :
    env.Extends (names ++ later) after := by
  obtain ⟨bindings, rfl, rfl⟩ := h
  obtain ⟨newer, rfl, rfl⟩ := hlater
  exact ⟨bindings ++ newer, List.map_append, List.foldl_append⟩

theorem placeholders (line : Nat) (params : List String) (env : Env) :
    env.Extends params (params.foldl (·.bindPlaceholder line ·) env) := by
  induction params generalizing env with
  | nil => exact refl env
  | cons param params ih => exact (bind env param _).trans (ih _)

theorem log_suffix (h : env.Extends names after) : env.log <:+ after.log := by
  obtain ⟨bindings, -, rfl⟩ := h
  exact ⟨bindings.reverse, (Env.log_bindAll env bindings).symm⟩

theorem eq_of_nil (h : env.Extends [] after) : after = env := by
  obtain ⟨bindings, hnames, rfl⟩ := h
  rw [List.map_eq_nil_iff.1 hnames]
  rfl

end Env.Extends

/-- The outcome has bound the names in turn, as far as it got. -/
def Folded.Binds {α : Type} (x : Folded α) (env : Env) (names : List String) : Prop :=
  ∃ made, env.Extends made x.env ∧ made <+: names ∧ (x.fault = none → made = names)

namespace Folded.Binds

variable {α β : Type} {x : Folded α} {env before : Env} {names : List String}

theorem done (result : α) (h : before.Extends names env) :
    (Folded.done result env).Binds before names :=
  ⟨names, h, List.prefix_refl names, fun _ => rfl⟩

theorem stopped (result : α) (env : Env) (fault : Fault) (names : List String) :
    (Folded.stopped result env fault).Binds env names :=
  ⟨[], .refl env, List.nil_prefix, nofun⟩

theorem of_env_eq (h : x.env = env) : x.Binds env [] :=
  ⟨[], h ▸ .refl _, List.prefix_refl [], fun _ => rfl⟩

theorem map (h : x.Binds env names) (f : α → β) : (x.map f).Binds env names := h

/-- What is bound afterwards comes after what was bound before. -/
theorem after {first : List String} (hfirst : before.Extends first env)
    (h : x.Binds env names) : x.Binds before (first ++ names) := by
  obtain ⟨made, hmade, hprefix, hall⟩ := h
  refine ⟨first ++ made, hfirst.trans hmade, ?_, fun hdone => by rw [hall hdone]⟩
  exact (List.prefix_append_right_inj first).2 hprefix

/-- Nothing is bound if there is nothing to bind. -/
theorem env_eq (h : x.Binds env []) : x.env = env := by
  obtain ⟨made, hmade, hprefix, -⟩ := h
  rw [List.prefix_nil.1 hprefix] at hmade
  exact hmade.eq_of_nil

end Folded.Binds

namespace Stmt

mutual

/-- The names that a statement binds for what comes after it, in the order of the bindings.
What the bodies of conditionals and loops bind is not among them. -/
def binders : Stmt → List String
  | .function _ _ params _ body => params ++ bindersOf body
  | .block _ body => bindersOf body
  | .expression _ (.assign _ _ target _) => [target]
  | .expression .. => []
  | .declare _ _ declarators => declarators.map Declarator.name
  | .ifThen .. | .ifElse .. | .loop .. | .exit .. => []

/-- The names that the statements of a list bind for what comes after them. -/
def bindersOf : List Stmt → List String
  | [] => []
  | s :: rest => binders s ++ bindersOf rest

end

private theorem binds_foldDeclarators (declarators : List Declarator) (env : Env) :
    (foldDeclarators declarators env).Binds env (declarators.map Declarator.name) := by
  induction declarators generalizing env with
  | nil => exact .done [] (.refl env)
  | cons d rest ih =>
    rw [foldDeclarators]
    split
    · exact .after (.bind env d.name _) ((ih _).map _)
    · split
      · exact .stopped _ env _ _
      · exact .after (.bind env d.name _) ((ih _).map _)

private theorem binds_foldExpression (line : Nat) (expr : Expr) (env : Env) :
    (foldExpression line expr env).Binds env (binders (.expression line expr)) := by
  unfold foldExpression
  split
  · split
    · exact .stopped _ env _ _
    · dsimp only
      split
      · exact .stopped _ env _ _
      · rw [binders]
        exact .done _ (.bind env _ _)
  · exact .done _ (.refl env)
  · rename_i hassign _
    rw [binders]
    · split
      · exact .stopped _ env _ _
      · exact .done _ (.refl env)
    · exact hassign

mutual

/-- Folding a statement binds its names in turn. -/
theorem binds_fold : (s : Stmt) → (env : Env) → (fold s env).Binds env s.binders
  | .function _ _ params bodyLine body, env => by
    rw [fold, binders]
    exact .after (.placeholders bodyLine params env) ((binds_foldAll body _).map _)
  | .block _ body, env => by
    rw [fold, binders]
    exact (binds_foldAll body env).map _
  | .expression line expr, env => by
    rw [fold]
    exact binds_foldExpression line expr env
  | .declare _ _ declarators, env => by
    rw [fold, binders]
    exact (binds_foldDeclarators declarators env).map _
  | .ifThen .., _ => by
    rw [binders]
    exact .of_env_eq env_fold_ifThen
  | .ifElse .., _ => by
    rw [binders]
    exact .of_env_eq env_fold_ifElse
  | .loop .., _ => by
    rw [binders]
    exact .of_env_eq env_fold_loop
  | .exit .., _ => by
    rw [fold, binders]
    exact .of_env_eq env_foldExit

/-- Folding statements one after the other binds their names in turn, all of them unless a
fault stops it. -/
theorem binds_foldAll : (body : List Stmt) → (env : Env) →
    (foldAll body env).Binds env (bindersOf body)
  | [], env => .done [] (.refl env)
  | s :: rest, env => by
    obtain ⟨made, hmade, hprefix, hall⟩ := binds_fold s env
    rw [foldAll, bindersOf]
    split
    · exact ⟨made, hmade, hprefix.trans (List.prefix_append _ _), nofun⟩
    · rename_i hdone
      rw [hall hdone] at hmade
      exact .after hmade ((binds_foldAll rest _).map _)

end

end Stmt

end TraceGraph
