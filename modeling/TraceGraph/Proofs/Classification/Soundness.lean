import TraceGraph.Proofs.Stmt.StoreRun

/-!
# The traced path is the path that a run takes

Classifying a function never runs it.  Every branch is folded in a copy of the
environment, and what a branch binds is forgotten after it.  A run on one store
forgets nothing.  The two still take the same branches, provided that no name written
in a branch is read after the conditional.

* `Store.Mirrors` is the invariant.  The store holds the values that the environment
  stands for, for all names but the stale ones: those that some branch has written
  since they were bound.
* `Stmt.exec_of_trace` and `Stmt.execAll_of_trace` carry it through statements.
* `Program.classify_eq_exec`: on programs without loops, steps by one and
  declarations without a value, a classification is that of the run.
-/

namespace TraceGraph

/-! ## The store and the environment -/

/-- The store holds what the environment stands for: each binding of a name that is
not stale has a value of its own, without looking at any name, and the store holds
it. -/
def Store.Mirrors (ops : Operators) (store : Store) (env : Env) (stale : List String) : Prop :=
  ∀ name bound, name ∉ stale → env.get? name = some bound →
    ∃ v, bound.evaluate ops .empty = some v ∧ store name = some v

namespace Store.Mirrors

variable {ops : Operators} {store after : Store} {env : Env} {stale : List String}

/-- Binding a name and storing the value of what it is bound to keeps the store a
mirror. -/
theorem bind (h : store.Mirrors ops env stale) {name : String} {bound : Expr} {v : Literal}
    (hv : bound.evaluate ops .empty = some v) :
    (store.set name v).Mirrors ops (env.bind name bound) stale := by
  intro other bound' hother hget
  rw [Env.get?_bind] at hget
  by_cases heq : other = name
  · rw [if_pos heq] at hget
    cases hget
    rw [heq]
    exact ⟨v, hv, set_self _ _ _⟩
  · rw [if_neg heq] at hget
    rw [set_of_ne _ _ heq]
    exact h other bound' hother hget

/-- Names that are written behind the back of the environment become stale. -/
theorem outdate (h : store.Mirrors ops env stale) {written : List String}
    (hkept : ∀ name, name ∉ written → after name = store name) :
    after.Mirrors ops env (stale ++ written) := by
  intro name bound hname hget
  rw [List.mem_append, not_or] at hname
  rw [hkept name hname.2]
  exact h name bound hname.1 hget

/-- An expression folds to one that has a value without looking at any name, and the
store gives the expression the same value. -/
theorem evaluate (h : store.Mirrors ops env stale) {e e' : Expr}
    (hfresh : ∀ name ∈ e.reads, name ∉ stale) (hfold : e.fold env = .ok e') :
    ∃ v, e'.evaluate ops .empty = some v ∧ e.evaluate ops store = some v := by
  induction e generalizing e' with
  | literal line value =>
    cases hfold
    exact ⟨value, rfl, rfl⟩
  | identifier line name =>
    obtain ⟨bound, hget, rfl⟩ := Expr.fold_identifier_eq_ok.1 hfold
    obtain ⟨v, hv, hstore⟩ := h name bound (hfresh name (by simp [Expr.reads])) hget
    exact ⟨v, by rw [Expr.evaluate_withLine, hv], hstore⟩
  | unary line op operand ih =>
    obtain ⟨a, ha, rfl⟩ := Expr.fold_unary_eq_ok.1 hfold
    obtain ⟨v, hv, hoperand⟩ := ih hfresh ha
    refine ⟨ops.unary op v, ?_, ?_⟩
    · rw [Expr.evaluate_foldUnary, Expr.evaluate, hv]
      rfl
    · rw [Expr.evaluate, hoperand]
      rfl
  | binary line op left right ihl ihr =>
    obtain ⟨l, r, hl, hr, rfl⟩ := Expr.fold_binary_eq_ok.1 hfold
    rw [Expr.reads] at hfresh
    obtain ⟨vl, hvl, hleft⟩ := ihl (fun n hn => hfresh n (List.mem_append_left _ hn)) hl
    obtain ⟨vr, hvr, hright⟩ := ihr (fun n hn => hfresh n (List.mem_append_right _ hn)) hr
    refine ⟨ops.binary op vl vr, ?_, Expr.evaluate_binary hleft hright⟩
    rw [Expr.evaluate_foldBinary]
    exact Expr.evaluate_binary hvl hvr
  | assign => cases hfold
  | update => cases hfold

/-- What decides a folded test is the truth of its value. -/
theorem test (h : store.Mirrors ops env stale) {e e' : Expr} {holds : Bool}
    (hfresh : ∀ name ∈ e.reads, name ∉ stale) (hfold : e.fold env = .ok e')
    (hholds : Stmt.testHolds e' = .ok holds) :
    ∃ v, e.evaluate ops store = some v ∧ v.truthy = holds := by
  obtain ⟨v, hv, hstore⟩ := h.evaluate hfresh hfold
  refine ⟨v, hstore, ?_⟩
  cases e' with
  | literal line value =>
    cases hv
    cases hholds
    rfl
  | _ => cases hholds

/-- Folding a declaration and storing its values end in a store that is a mirror
again. -/
theorem declarators (h : store.Mirrors ops env stale) {ds : List Declarator}
    (hinit : ∀ d ∈ ds, d.init.isSome = true)
    (hfresh : ∀ name ∈ ds.flatMap fun d => d.init.elim [] Expr.reads, name ∉ stale)
    (hfold : (Stmt.foldDeclarators ds env).fault = none) :
    ∃ after, Stmt.storeDeclarators ops ds store = some after ∧
      after.Mirrors ops (Stmt.foldDeclarators ds env).env stale := by
  induction ds generalizing store env with
  | nil => exact ⟨store, rfl, h⟩
  | cons d rest ih =>
    obtain ⟨init, hd⟩ := Option.isSome_iff_exists.1 (hinit d List.mem_cons_self)
    rw [List.flatMap_cons, hd] at hfresh
    rw [Stmt.foldDeclarators, hd] at hfold ⊢
    cases hvalue : init.fold env with
    | error fault =>
      simp only [hvalue] at hfold
      cases hfold
    | ok value =>
      simp only [hvalue] at hfold ⊢
      obtain ⟨v, hv, hstore⟩ := h.evaluate
        (fun n hn => hfresh n (List.mem_append_left _ hn)) hvalue
      obtain ⟨after, hafter, hmirrors⟩ := ih (h.bind hv)
        (fun d' hd' => hinit d' (List.mem_cons_of_mem _ hd'))
        (fun n hn => hfresh n (List.mem_append_right _ hn)) hfold
      refine ⟨after, ?_, hmirrors⟩
      rw [Stmt.storeDeclarators, hd, Option.bind_eq_bind, Option.bind_some, hstore]
      exact hafter

/-- What an assignment binds its target to has the value that the run stores.  A
compound assignment folds its value twice, the second time without a name left in
it. -/
theorem assigned (h : store.Mirrors ops env stale) {start : Nat} {op : AssignOp}
    {target : String} {value bound : Expr} {v : Literal}
    (hfresh : op.arithmetic?.isSome = true → target ∉ stale)
    (hv : value.evaluate ops .empty = some v)
    (hbound : Stmt.assigned start op target value env = .ok bound) :
    ∃ result, bound.evaluate ops .empty = some result ∧
      Stmt.stored ops op target v store = some result := by
  unfold Stmt.assigned at hbound
  unfold Stmt.stored
  cases hop : op.arithmetic? with
  | none =>
    simp only [hop] at hbound
    cases hbound
    exact ⟨v, hv, rfl⟩
  | some arithmetic =>
    simp only [hop] at hbound
    obtain ⟨hreads, hall⟩ := Expr.evaluate_of_empty hv
    have htarget : target ∉ stale := hfresh (by rw [hop]; rfl)
    obtain ⟨result, hresult, hstore⟩ := h.evaluate (by simpa [Expr.reads, hreads]) hbound
    refine ⟨result, hresult, ?_⟩
    cases hheld : store target with
    | none =>
      rw [Expr.evaluate, Expr.evaluate, hheld] at hstore
      cases hstore
    | some held =>
      have hleft : (Expr.identifier start target).evaluate ops store = some held := hheld
      rw [← hstore, Expr.evaluate_binary hleft (hall store)]
      rfl

/-- Folding an expression statement and running it end in a store that is a mirror
again. -/
theorem expression (h : store.Mirrors ops env stale) {line : Nat} {expr : Expr}
    (hok : Stmt.traceable (.expression line expr) = true)
    (hfresh : ∀ name ∈ expr.reads, name ∉ stale)
    (hfold : (Stmt.foldExpression line expr env).fault = none) :
    ∃ after, Stmt.storeExpression ops expr store = some after ∧
      after.Mirrors ops (Stmt.foldExpression line expr env).env stale := by
  rcases Stmt.foldExpression_cases hfold with
    ⟨start, op, target, value, e, bound, rfl, he, hbound, heq⟩ | ⟨_, _, _, _, rfl, -⟩ |
    ⟨e, he, heq⟩
  · rw [Expr.reads] at hfresh
    obtain ⟨v, hv, hvalue⟩ := h.evaluate (fun n hn => hfresh n (by split <;> simp [hn])) he
    obtain ⟨result, hresult, hstored⟩ := h.assigned
      (fun hop => hfresh target (by simp [hop])) hv hbound
    refine ⟨store.set target result, ?_, ?_⟩
    · simp only [Stmt.storeExpression, hvalue, Option.bind_eq_bind, Option.bind_some, hstored]
      rfl
    · rw [heq]
      exact h.bind hresult
  · cases hok
  · obtain ⟨v, -, hvalue⟩ := h.evaluate hfresh he
    refine ⟨store, ?_, ?_⟩
    · unfold Stmt.storeExpression
      split
      · cases he
      · rw [hvalue]
        rfl
    · rw [heq]
      exact h

end Store.Mirrors

/-! ## Runs that make the marks of a trace -/

namespace Stmt

/-- The run makes the marks of the trace, returns when it does, and unless it has
returned it leaves a store that mirrors the environment. -/
def Realizes (ops : Operators) (run : Option StoreRun) (trace : Trace) (env : Env)
    (stale : List String) : Prop :=
  ∃ store, run = some ⟨trace.marks, store, trace.returned⟩ ∧
    (trace.returned = false → store.Mirrors ops env stale)

section

variable {line : Nat} (folded : Stmt)

private theorem trace_expression {expr : Expr} :
    trace (.expression line expr) folded = .ok ⟨[.executed line], false⟩ := by
  cases folded <;> rfl

private theorem trace_declare {kind : DeclKind} {ds : List Declarator} :
    trace (.declare line kind ds) folded = .ok ⟨[.executed line], false⟩ := by
  cases folded <;> rfl

private theorem trace_exit {result : Option Expr} :
    trace (.exit line result) folded = .ok ⟨[.executed line], true⟩ := by
  cases folded <;> rfl

private theorem trace_function {name : String} {params : List String} {bodyLine : Nat}
    {body : List Stmt} : trace (.function line name params bodyLine body) folded
      = .error (.unsupported line (.nestedFunction none)) := by
  cases folded <;> rfl

end

variable {ops : Operators}

mutual

/-- Tracing a folded statement makes the marks of its run. -/
theorem exec_of_trace : (s : Stmt) → {env : Env} → {store : Store} → {stale : List String} →
    {t : Trace} → every traceable s = true → branchesUnread s = true →
    (∀ name ∈ s.reads, name ∉ stale) → store.Mirrors ops env stale →
    (fold s env).fault = none → trace s (fold s env).result = .ok t →
    Realizes ops (exec ops s store) t (fold s env).env (stale ++ s.branchWrites)
  | .ifThen line test consequent, env, store, stale, t, hok, hunread, hfresh, hmirrors, hfold,
      htrace => by
    obtain ⟨value, htest, hconsequent, heq⟩ := fold_ifThen hfold
    rw [heq] at htrace ⊢
    simp only [Folded.done, trace] at htrace ⊢
    obtain ⟨holds, hholds, htrace⟩ := bind_eq_ok_iff.1 htrace
    rw [reads] at hfresh
    obtain ⟨v, hv, rfl⟩ := hmirrors.test
      (fun n hn => hfresh n (List.mem_append_left _ hn)) htest hholds
    rw [every, Bool.and_eq_true] at hok
    rw [exec, hv, Option.bind_eq_bind, Option.bind_some]
    cases htruthy : v.truthy with
    | false =>
      rw [htruthy] at htrace
      cases htrace
      exact ⟨store, rfl, fun _ => hmirrors.outdate fun _ _ => rfl⟩
    | true =>
      rw [htruthy] at htrace
      obtain ⟨taken, htaken, htrace⟩ := bind_eq_ok_iff.1 htrace
      cases htrace
      obtain ⟨after, hexec, -⟩ := exec_of_trace consequent hok.2 hunread
        (fun n hn => hfresh n (List.mem_append_right _ hn)) hmirrors hconsequent htaken
      -- folding forgets what the branch has bound and the store keeps it, so the mirror
      -- after the branch comes from the one before it
      refine ⟨after, ?_, fun _ => hmirrors.outdate fun n hn => ?_⟩
      · rw [if_pos rfl, hexec]
        rfl
      · exact store_of_exec consequent store hexec hn
  | .ifElse line test consequent alternate, env, store, stale, t, hok, hunread, hfresh, hmirrors,
      hfold, htrace => by
    obtain ⟨value, htest, hconsequent, halternate, heq⟩ := fold_ifElse hfold
    rw [heq] at htrace ⊢
    simp only [Folded.done, trace] at htrace ⊢
    obtain ⟨holds, hholds, htrace⟩ := bind_eq_ok_iff.1 htrace
    rw [reads] at hfresh
    obtain ⟨v, hv, rfl⟩ := hmirrors.test
      (fun n hn => hfresh n (List.mem_append_left _ hn)) htest hholds
    rw [every, Bool.and_eq_true, Bool.and_eq_true] at hok
    rw [branchesUnread, Bool.and_eq_true] at hunread
    rw [exec, hv, Option.bind_eq_bind, Option.bind_some, branchWrites]
    cases htruthy : v.truthy with
    | false =>
      rw [htruthy] at htrace
      obtain ⟨taken, htaken, htrace⟩ := bind_eq_ok_iff.1 htrace
      cases htrace
      obtain ⟨after, hexec, -⟩ := exec_of_trace alternate hok.2 hunread.2
        (fun n hn => hfresh n (by simp [hn])) hmirrors halternate htaken
      refine ⟨after, ?_, fun _ => hmirrors.outdate fun n hn => ?_⟩
      · simp [hexec, Trace.after]
      · exact store_of_exec alternate store hexec fun h => hn (List.mem_append_right _ h)
    | true =>
      rw [htruthy] at htrace
      obtain ⟨taken, htaken, htrace⟩ := bind_eq_ok_iff.1 htrace
      cases htrace
      obtain ⟨after, hexec, -⟩ := exec_of_trace consequent hok.1.2 hunread.1
        (fun n hn => hfresh n (by simp [hn])) hmirrors hconsequent htaken
      refine ⟨after, ?_, fun _ => hmirrors.outdate fun n hn => ?_⟩
      · rw [if_pos rfl, hexec]
        rfl
      · exact store_of_exec consequent store hexec fun h => hn (List.mem_append_left _ h)
  | .block line body, env, store, stale, t, hok, hunread, hfresh, hmirrors, hfold, htrace => by
    rw [every, Bool.and_eq_true] at hok
    exact execAll_of_trace body hok.2 hunread hfresh hmirrors hfold htrace
  | .expression line expr, env, store, stale, t, hok, _, hfresh, hmirrors, hfold, htrace => by
    rw [trace_expression] at htrace
    cases htrace
    obtain ⟨after, hafter, hmirrors⟩ := hmirrors.expression hok hfresh hfold
    refine ⟨after, ?_, fun _ => hmirrors.outdate fun _ _ => rfl⟩
    rw [exec, hafter]
    rfl
  | .declare line kind ds, env, store, stale, t, hok, _, hfresh, hmirrors, hfold, htrace => by
    rw [trace_declare] at htrace
    cases htrace
    have hinit : ∀ d ∈ ds, d.init.isSome = true := List.all_eq_true.1 hok
    obtain ⟨after, hafter, hmirrors⟩ := hmirrors.declarators hinit hfresh hfold
    refine ⟨after, ?_, fun _ => hmirrors.outdate fun _ _ => rfl⟩
    rw [exec, hafter]
    rfl
  | .exit line result, env, store, stale, t, _, _, hfresh, hmirrors, hfold, htrace => by
    rw [trace_exit] at htrace
    cases htrace
    refine ⟨store, ?_, fun h => by cases h⟩
    cases result with
    | none => rfl
    | some expr =>
      obtain ⟨e, he, -⟩ := foldExit_some hfold
      obtain ⟨v, -, hv⟩ := hmirrors.evaluate hfresh he
      rw [exec, hv]
      rfl
  | .loop line test body, env, store, stale, t, hok, _, _, _, _, _ => by
    cases hok
  | .function line name params bodyLine body, env, store, stale, t, _, _, _, _, _, htrace => by
    rw [trace_function] at htrace
    cases htrace

/-- Tracing a folded list of statements makes the marks of its run. -/
theorem execAll_of_trace : (body : List Stmt) → {env : Env} → {store : Store} →
    {stale : List String} → {t : Trace} → everyOf traceable body = true →
    branchesUnreadOf body = true → (∀ name ∈ readsOf body, name ∉ stale) →
    store.Mirrors ops env stale → (foldAll body env).fault = none →
    traceAll body (foldAll body env).result = .ok t →
    Realizes ops (execAll ops body store) t (foldAll body env).env (stale ++ branchWritesOf body)
  | [], env, store, stale, t, _, _, _, hmirrors, _, htrace => by
    cases htrace
    exact ⟨store, rfl, fun _ => hmirrors.outdate fun _ _ => rfl⟩
  | s :: rest, env, store, stale, t, hok, hunread, hfresh, hmirrors, hfold, htrace => by
    obtain ⟨hfirst, hrest, heq⟩ := foldAll_cons hfold
    rw [heq] at htrace ⊢
    simp only [Folded.done, traceAll] at htrace ⊢
    obtain ⟨first, hfirstTrace, htrace⟩ := bind_eq_ok_iff.1 htrace
    rw [everyOf, Bool.and_eq_true] at hok
    rw [branchesUnreadOf, Bool.and_eq_true, Bool.and_eq_true, decide_eq_true_iff] at hunread
    obtain ⟨⟨hunreadRest, hunreadFirst⟩, hunreadOthers⟩ := hunread
    rw [readsOf] at hfresh
    obtain ⟨after, hexec, hafter⟩ := exec_of_trace s hok.1 hunreadFirst
      (fun n hn => hfresh n (List.mem_append_left _ hn)) hmirrors hfirst hfirstTrace
    rw [execAll, hexec, Option.bind_eq_bind, Option.bind_some]
    cases hreturned : first.returned with
    | true =>
      rw [hreturned] at htrace
      cases htrace
      exact ⟨after, rfl, fun h => by cases h⟩
    | false =>
      rw [hreturned] at htrace
      obtain ⟨others, hothers, htrace⟩ := bind_eq_ok_iff.1 htrace
      cases htrace
      -- nothing that the rest reads has become stale
      have hfreshRest : ∀ name ∈ readsOf rest, name ∉ stale ++ s.branchWrites := by
        intro name hname hstale
        rcases List.mem_append.1 hstale with hold | hnew
        · exact hfresh name (List.mem_append_right _ hname) hold
        · exact hunreadRest name hnew hname
      obtain ⟨last, hlast, hmirrorsLast⟩ := execAll_of_trace rest hok.2 hunreadOthers hfreshRest
        (hafter hreturned) hrest hothers
      refine ⟨last, ?_, ?_⟩
      · rw [if_neg Bool.false_ne_true, hlast]
        rfl
      · rw [branchWritesOf, ← List.append_assoc]
        exact hmirrorsLast

end

end Stmt

/-! ## Programs -/

/-- The store in which the parameters have their arguments and no other name has a
value. -/
def FunctionDecl.argumentStore (decl : FunctionDecl) (args : Arguments) : Store :=
  fun name => if name ∈ decl.params then args.get? name else none

theorem FunctionDecl.mirrors_argumentStore {decl : FunctionDecl} {args : Arguments} {env : Env}
    (ops : Operators) (h : decl.bindArguments args = .ok env) :
    (decl.argumentStore args).Mirrors ops env [] := by
  intro name bound _ hget
  rw [get?_bindArguments h] at hget
  unfold argumentStore
  by_cases hmem : name ∈ decl.params
  · rw [if_pos hmem] at hget ⊢
    obtain ⟨value, hvalue, rfl⟩ := Option.map_eq_some_iff.1 hget
    exact ⟨value, rfl, hvalue⟩
  · rw [if_neg hmem] at hget
    cases hget

/-- If a function has no loop, no step by one and no declaration without a value, and
reads no name after a conditional that a branch of it writes, then a classification
holds the lines of a run with the parameters stored.  This is so whatever the
operators do to values that folding does not compute with. -/
theorem Program.classify_eq_exec {p : Program} {decl : FunctionDecl}
    (hdecl : p.function? = some decl) (hok : Stmt.everyOf Stmt.traceable decl.body = true)
    (hunread : Stmt.branchesUnreadOf decl.body = true) (ops : Operators) {args : Arguments}
    {r : Classification} (h : p.classify args = .ok r) :
    ∃ run, Stmt.execAll ops decl.body (decl.argumentStore args) = some run ∧
      r = .ofMarks run.marks := by
  rw [classify_of_function? hdecl] at h
  obtain ⟨env, trace, hbind, hfold, htrace, rfl⟩ := FunctionDecl.classify_eq_ok h
  obtain ⟨store, hexec, -⟩ := Stmt.execAll_of_trace decl.body hok hunread (fun _ _ h => by cases h)
    (decl.mirrors_argumentStore ops hbind) hfold htrace
  exact ⟨_, hexec, rfl⟩

/-- Two texts are joined.  On all other values the operators do what folding does. -/
private def joining : Operators where
  unary := UnaryOp.apply
  binary op left right :=
    match op, left, right with
    | .add, .text l, .text r => .text (l ++ r)
    | op, left, right => op.apply left right
  unary_eq _ _ _ := rfl
  binary_eq op left right hleft _ := by
    cases left with
    | text => cases hleft
    | number => cases op <;> rfl
    | bool => cases op <;> rfl

/-- A function that joins texts, which folding leaves as they stand, and that writes a
name in both branches of a conditional without reading it after them. -/
private def joinsTexts : FunctionDecl where
  name := "f"
  params := ["x", "s"]
  bodyLine := 1
  body :=
    [.declare 2 .letDecl
       [⟨"t", some (.binary 2 .add (.identifier 2 "s") (.literal 2 (.text "!"))), 2⟩],
     .expression 3 (.assign 3 .addAssign "t" (.identifier 3 "s")),
     .ifElse 4 (.binary 4 .greater (.identifier 4 "x") (.literal 4 (.number 1)))
       (.block 4 [.declare 5 .letDecl [⟨"u", some (.identifier 5 "t"), 5⟩]])
       (.expression 6 (.assign 6 .assign "u" (.identifier 6 "x"))),
     .ifThen 7 (.identifier 7 "x") (.block 7 [.exit 8 (some (.identifier 8 "t"))]),
     .expression 9 (.assign 9 .assign "t" (.identifier 9 "x"))]

theorem Program.classify_eq_exec_joinsTexts :
    Stmt.everyOf Stmt.traceable joinsTexts.body = true ∧
      Stmt.branchesUnreadOf joinsTexts.body = true ∧
      ∃ run, Stmt.execAll joining joinsTexts.body
          (joinsTexts.argumentStore (.ofPairs [("x", .number 2), ("s", .text "a")])) = some run ∧
        ⟨.ofList [2, 3, 4, 5, 7, 8], .ofList [6, 9]⟩ = Classification.ofMarks run.marks := by
  have hok : Stmt.everyOf Stmt.traceable joinsTexts.body = true := by decide
  have hunread : Stmt.branchesUnreadOf joinsTexts.body = true := by decide
  have hdecl : Program.function? ⟨[.function 1 "f" ["x", "s"] 1 joinsTexts.body]⟩
      = some joinsTexts := rfl
  have hclassify : Program.classify ⟨[.function 1 "f" ["x", "s"] 1 joinsTexts.body]⟩
      (.ofPairs [("x", .number 2), ("s", .text "a")])
        = .ok ⟨.ofList [2, 3, 4, 5, 7, 8], .ofList [6, 9]⟩ := rfl
  exact ⟨hok, hunread, Program.classify_eq_exec hdecl hok hunread joining hclassify⟩

end TraceGraph
