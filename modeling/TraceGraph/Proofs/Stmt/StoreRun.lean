import TraceGraph.Proofs.Expr.Evaluation

/-!
# Running statements on a store

The plain meaning of a body without loops: names have values in one store, an
assignment changes the store for everything that comes after it, also from within a
branch, and a test is decided by its value.  Lines are marked as they are in
`Stmt.trace`.

* `Stmt.exec` and `Stmt.execAll`: the run.
* `Stmt.reads`, `Stmt.writes` and `Stmt.branchWrites`: the names that a statement
  reads, those that it writes, and those that it writes in a branch.
* `Stmt.store_of_exec`: a run leaves every name alone that the statement does not
  write.
-/

namespace TraceGraph

/-- How far a run has come: the marks that it made, the store that it has reached,
and whether it has returned. -/
structure StoreRun where
  marks : List LineMark
  store : Store
  returned : Bool

namespace Stmt

/-! ## The run -/

section

variable (ops : Operators)

/-- Stores the initial values of a declaration, one name after the other. -/
def storeDeclarators : List Declarator → Store → Option Store
  | [], store => some store
  | d :: rest, store => do
    let init ← d.init
    let value ← init.evaluate ops store
    storeDeclarators rest (store.set d.name value)

/-- The value that an assignment stores.  A compound assignment computes with what
the target holds. -/
def stored (op : AssignOp) (target : String) (value : Literal) (store : Store) : Option Literal :=
  match op.arithmetic? with
  | none => some value
  | some arithmetic => (store target).map fun held => ops.binary arithmetic held value

/-- Runs an expression statement.  Only an assignment changes the store. -/
def storeExpression (expr : Expr) (store : Store) : Option Store :=
  match expr with
  | .assign _ op target value => do
    let value ← value.evaluate ops store
    let result ← stored ops op target value store
    return store.set target result
  | _ => (expr.evaluate ops store).map fun _ => store

mutual

/-- Runs a statement.  There is no run through a loop, and none through a function
inside the body. -/
def exec : Stmt → Store → Option StoreRun
  | .ifThen line test consequent, store => do
    let value ← test.evaluate ops store
    if value.truthy then
      let taken ← exec consequent store
      return ⟨.executed test.line :: .executed consequent.line :: taken.marks, taken.store,
        taken.returned⟩
    else
      return ⟨.executed test.line :: (consequent.skip ++ [.skipped line]), store, false⟩
  | .ifElse _ test consequent alternate, store => do
    let value ← test.evaluate ops store
    if value.truthy then
      let taken ← exec consequent store
      return ⟨.executed test.line :: .executed consequent.line
        :: (taken.marks ++ alternate.skipChain), taken.store, taken.returned⟩
    else
      -- a further link of the chain marks its own test, any other alternative its line
      let entry := if alternate.isConditional then [] else [.executed alternate.line]
      let taken ← exec alternate store
      return ⟨.executed test.line :: (consequent.skip ++ entry ++ taken.marks), taken.store,
        taken.returned⟩
  | .block _ body, store => execAll body store
  | .expression line expr, store => do
    let after ← storeExpression ops expr store
    return ⟨[.executed line], after, false⟩
  | .declare line _ declarators, store => do
    let after ← storeDeclarators ops declarators store
    return ⟨[.executed line], after, false⟩
  | .exit line none, store => some ⟨[.executed line], store, true⟩
  | .exit line (some result), store => do
    let _ ← result.evaluate ops store
    return ⟨[.executed line], store, true⟩
  | .loop .., _ => none
  | .function .., _ => none

/-- Runs statements one after the other.  After a return the others are skipped. -/
def execAll : List Stmt → Store → Option StoreRun
  | [], store => some ⟨[], store, false⟩
  | s :: rest, store => do
    let first ← exec s store
    if first.returned then
      return ⟨first.marks ++ rest.flatMap skip, first.store, true⟩
    else
      let others ← execAll rest first.store
      return ⟨first.marks ++ others.marks, others.store, others.returned⟩

end

end

/-! ## Names that are read and written -/

mutual

/-- The names that a statement reads.  A function inside the body does nothing where
it stands. -/
def reads : Stmt → List String
  | .function .. => []
  | .block _ body => readsOf body
  | .expression _ expr => expr.reads
  | .declare _ _ declarators => declarators.flatMap fun d => d.init.elim [] Expr.reads
  | .ifThen _ test consequent => test.reads ++ reads consequent
  | .ifElse _ test consequent alternate => test.reads ++ (reads consequent ++ reads alternate)
  | .loop _ test body => test.reads ++ reads body
  | .exit _ result => result.elim [] Expr.reads

/-- The names that the statements of a list read. -/
def readsOf : List Stmt → List String
  | [] => []
  | s :: rest => reads s ++ readsOf rest

end

mutual

/-- The names that a statement declares or assigns. -/
def writes : Stmt → List String
  | .function .. => []
  | .block _ body => writesOf body
  | .expression _ expr => expr.writes
  | .declare _ _ declarators => declarators.flatMap fun d => d.name :: d.init.elim [] Expr.writes
  | .ifThen _ test consequent => test.writes ++ writes consequent
  | .ifElse _ test consequent alternate => test.writes ++ (writes consequent ++ writes alternate)
  | .loop _ test body => test.writes ++ writes body
  | .exit _ result => result.elim [] Expr.writes

/-- The names that the statements of a list declare or assign. -/
def writesOf : List Stmt → List String
  | [] => []
  | s :: rest => writes s ++ writesOf rest

end

mutual

/-- The names that a statement declares or assigns inside a branch of a
conditional. -/
def branchWrites : Stmt → List String
  | .block _ body => branchWritesOf body
  | .ifThen _ _ consequent => writes consequent
  | .ifElse _ _ consequent alternate => writes consequent ++ writes alternate
  | .loop _ _ body => branchWrites body
  | _ => []

/-- The names that the statements of a list declare or assign inside a branch. -/
def branchWritesOf : List Stmt → List String
  | [] => []
  | s :: rest => branchWrites s ++ branchWritesOf rest

end

mutual

/-- Whether no name that is written in a branch of a conditional is read after the
conditional, as far as the lists inside the statement tell. -/
def branchesUnread : Stmt → Bool
  | .block _ body => branchesUnreadOf body
  | .ifThen _ _ consequent => branchesUnread consequent
  | .ifElse _ _ consequent alternate => branchesUnread consequent && branchesUnread alternate
  | .loop _ _ body => branchesUnread body
  | _ => true

/-- Whether no name that is written in a branch of a conditional is read in a
statement after the conditional, neither in the list that the conditional stands in
nor in a list around it. -/
def branchesUnreadOf : List Stmt → Bool
  | [] => true
  | s :: rest =>
    decide (∀ name ∈ s.branchWrites, name ∉ readsOf rest) && branchesUnread s
      && branchesUnreadOf rest

end

/-- Whether a statement, apart from those nested in it, has a run: it is no loop and
no step by one, and it declares no name without a value.  A step by one inside a
value never folds. -/
def traceable : Stmt → Bool
  | .expression _ (.update ..) => false
  | .declare _ _ declarators => declarators.all fun d => d.init.isSome
  | .loop .. => false
  | _ => true

/-! ## What a run leaves alone -/

section

variable {ops : Operators} {store : Store} {name : String}

theorem storeDeclarators_other {declarators : List Declarator} {after : Store}
    (h : storeDeclarators ops declarators store = some after)
    (hname : name ∉ declarators.flatMap fun d => d.name :: d.init.elim [] Expr.writes) :
    after name = store name := by
  induction declarators generalizing store with
  | nil =>
    cases h
    rfl
  | cons d rest ih =>
    obtain ⟨init, -, h⟩ := Option.bind_eq_some_iff.1 h
    obtain ⟨value, -, h⟩ := Option.bind_eq_some_iff.1 h
    rw [List.flatMap_cons, List.mem_append, not_or, List.mem_cons, not_or] at hname
    rw [ih h hname.2, Store.set_of_ne _ _ hname.1.1]

theorem storeExpression_other {expr : Expr} {after : Store}
    (h : storeExpression ops expr store = some after) (hname : name ∉ expr.writes) :
    after name = store name := by
  unfold storeExpression at h
  split at h
  · rename_i start op target value
    obtain ⟨v, -, h⟩ := Option.bind_eq_some_iff.1 h
    obtain ⟨result, -, h⟩ := Option.bind_eq_some_iff.1 h
    cases h
    rw [Expr.writes, List.mem_cons, not_or] at hname
    exact Store.set_of_ne _ _ hname.1
  · obtain ⟨v, -, rfl⟩ := Option.map_eq_some_iff.1 h
    rfl

mutual

/-- A run leaves every name alone that the statement does not write. -/
theorem store_of_exec : (s : Stmt) → (store : Store) → {out : StoreRun} →
    exec ops s store = some out → name ∉ s.writes → out.store name = store name
  | .ifThen line test consequent, store, out, h, hname => by
    rw [exec] at h
    obtain ⟨value, -, h⟩ := Option.bind_eq_some_iff.1 h
    rw [writes, List.mem_append, not_or] at hname
    split at h
    · obtain ⟨taken, htaken, h⟩ := Option.bind_eq_some_iff.1 h
      have hkept := store_of_exec consequent store htaken hname.2
      cases h
      exact hkept
    · cases h
      rfl
  | .ifElse line test consequent alternate, store, out, h, hname => by
    rw [exec] at h
    obtain ⟨value, -, h⟩ := Option.bind_eq_some_iff.1 h
    rw [writes, List.mem_append, not_or, List.mem_append, not_or] at hname
    split at h
    · obtain ⟨taken, htaken, h⟩ := Option.bind_eq_some_iff.1 h
      have hkept := store_of_exec consequent store htaken hname.2.1
      cases h
      exact hkept
    · obtain ⟨taken, htaken, h⟩ := Option.bind_eq_some_iff.1 h
      have hkept := store_of_exec alternate store htaken hname.2.2
      cases h
      exact hkept
  | .block line body, store, out, h, hname => store_of_execAll body store h hname
  | .expression line expr, store, out, h, hname => by
    rw [exec] at h
    obtain ⟨after, hafter, h⟩ := Option.bind_eq_some_iff.1 h
    cases h
    exact storeExpression_other hafter hname
  | .declare line kind declarators, store, out, h, hname => by
    rw [exec] at h
    obtain ⟨after, hafter, h⟩ := Option.bind_eq_some_iff.1 h
    cases h
    exact storeDeclarators_other hafter hname
  | .exit line none, store, out, h, _ => by
    cases h
    rfl
  | .exit line (some result), store, out, h, _ => by
    rw [exec] at h
    obtain ⟨value, -, h⟩ := Option.bind_eq_some_iff.1 h
    cases h
    rfl
  | .loop .., store, out, h, _ => by cases h
  | .function .., store, out, h, _ => by cases h

/-- A run through a list leaves every name alone that no statement of it writes. -/
theorem store_of_execAll : (body : List Stmt) → (store : Store) → {out : StoreRun} →
    execAll ops body store = some out → name ∉ writesOf body → out.store name = store name
  | [], store, out, h, _ => by
    cases h
    rfl
  | s :: rest, store, out, h, hname => by
    rw [execAll] at h
    obtain ⟨first, hfirst, h⟩ := Option.bind_eq_some_iff.1 h
    rw [writesOf, List.mem_append, not_or] at hname
    have hkept := store_of_exec s store hfirst hname.1
    split at h
    · cases h
      exact hkept
    · obtain ⟨others, hothers, h⟩ := Option.bind_eq_some_iff.1 h
      cases h
      exact (store_of_execAll rest first.store hothers hname.2).trans hkept

end

end

end Stmt

end TraceGraph
