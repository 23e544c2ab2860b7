import TraceGraph.Expr.Fold
import TraceGraph.Stmt

/-!
# Folding statements

Statements are folded in source order.  Declarations and assignments bind names
along straight-line code, while the bodies of conditionals and loops work on the
environment as it was before them and leave no bindings behind.  The test of a
loop changes from one round to the next, so it is only checked for bindings.

When a fault occurs, what has been folded up to there stays folded.  `Folded`
therefore holds a result beside the fault.
-/

namespace TraceGraph

/-- What folding has done, as far as it got, and the fault that stopped it. -/
structure Folded (α : Type) where
  result : α
  env : Env
  fault : Option Fault

namespace Folded

variable {α β : Type}

/-- Folding that went through. -/
def done (result : α) (env : Env) : Folded α := ⟨result, env, none⟩

/-- Folding that was stopped. -/
def stopped (result : α) (env : Env) (fault : Fault) : Folded α := ⟨result, env, some fault⟩

/-- The same outcome with another result. -/
def map (f : α → β) (x : Folded α) : Folded β := ⟨f x.result, x.env, x.fault⟩

/-- The same outcome, without the bindings that were made. -/
def leaving (env : Env) (x : Folded α) : Folded α := ⟨x.result, env, x.fault⟩

end Folded

namespace Stmt

/-- Folds the initial values of a declaration and binds its names. -/
def foldDeclarators : List Declarator → Env → Folded (List Declarator)
  | [], env => .done [] env
  | d :: rest, env =>
    match d.init with
    | none => (foldDeclarators rest (env.bindPlaceholder d.line d.name)).map (d :: ·)
    | some init =>
      match init.fold env with
      | .error fault => .stopped (d :: rest) env fault
      | .ok value =>
        (foldDeclarators rest (env.bind d.name value)).map (⟨d.name, some value, d.line⟩ :: ·)

/-- The expression that an assignment binds its target to.  A compound
assignment computes with what the target is bound to. -/
def assigned (line : Nat) (op : AssignOp) (target : String) (value : Expr) (env : Env) :
    Except Fault Expr :=
  match op.arithmetic? with
  | none => .ok value
  | some arithmetic => (Expr.binary line arithmetic (.identifier line target) value).fold env

/-- Folds an expression statement.  An assignment binds its target once its
value has been folded, and a step by one is left as it is. -/
def foldExpression (line : Nat) (expr : Expr) (env : Env) : Folded Stmt :=
  match expr with
  | .assign start op target value =>
    match value.fold env with
    | .error fault => .stopped (.expression line expr) env fault
    | .ok value =>
      let s := .expression line (.assign start op target value)
      match assigned start op target value env with
      | .error fault => .stopped s env fault
      | .ok bound => .done s (env.bind target bound)
  | .update .. => .done (.expression line expr) env
  | _ =>
    match expr.fold env with
    | .error fault => .stopped (.expression line expr) env fault
    | .ok value => .done (.expression line value) env

/-- Folds the result of a return. -/
def foldExit (line : Nat) (result : Option Expr) (env : Env) : Folded Stmt :=
  match result with
  | none => .done (.exit line none) env
  | some expr =>
    match expr.fold env with
    | .error fault => .stopped (.exit line (some expr)) env fault
    | .ok value => .done (.exit line (some value)) env

mutual

/-- Folds a statement. -/
def fold : Stmt → Env → Folded Stmt
  | .function line name params bodyLine body, env =>
    (foldAll body (params.foldl (·.bindPlaceholder bodyLine ·) env)).map
      (.function line name params bodyLine)
  | .block line body, env => (foldAll body env).map (.block line)
  | .expression line expr, env => foldExpression line expr env
  | .declare line kind declarators, env =>
    (foldDeclarators declarators env).map (.declare line kind)
  | .ifThen line test consequent, env =>
    match test.fold env with
    | .error fault => .stopped (.ifThen line test consequent) env fault
    | .ok test => ((fold consequent env).map (.ifThen line test)).leaving env
  | .ifElse line test consequent alternate, env =>
    match test.fold env with
    | .error fault => .stopped (.ifElse line test consequent alternate) env fault
    | .ok test =>
      let first := fold consequent env
      match first.fault with
      | some fault => .stopped (.ifElse line test first.result alternate) env fault
      | none => ((fold alternate env).map (.ifElse line test first.result)).leaving env
  | .loop line test body, env =>
    match test.fold env with
    | .error fault => .stopped (.loop line test body) env fault
    | .ok _ => ((fold body env).map (.loop line test)).leaving env
  | .exit line result, env => foldExit line result env

/-- Folds statements one after the other. -/
def foldAll : List Stmt → Env → Folded (List Stmt)
  | [], env => .done [] env
  | s :: rest, env =>
    let first := fold s env
    match first.fault with
    | some fault => .stopped (first.result :: rest) first.env fault
    | none => (foldAll rest first.env).map (first.result :: ·)

end

end Stmt

/-- Folds a whole program from nothing, so that parameters stay symbolic. -/
def Program.substitute (program : Program) : Folded Program :=
  (Stmt.foldAll program.body .empty).map Program.mk

end TraceGraph
