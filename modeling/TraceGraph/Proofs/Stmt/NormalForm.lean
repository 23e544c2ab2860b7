import TraceGraph.Proofs.Expr.Evaluation
import TraceGraph.Proofs.Stmt.Bindings
import TraceGraph.Proofs.Stmt.Relined

/-!
# Normal forms of folding

A folded expression has nothing left that folding could compute without knowing more
about names.  So folding it once more can only change the names in it, and it changes
nothing exactly where each of them is bound to itself.  That need not be so: a name
that stood for an unknown value can have been bound to something else since.

* `Expr.normal`: nothing is left to compute.
* `Expr.kept_normal`: what is folded is in normal form.
* `Expr.fold_eq_self` and `Expr.boundToSelf_of_fold`: when a normal form folds to
  itself.
* `Env.Reachable.normal`: all bindings that folding makes are in normal form.
* `Env.Reachable.fixed_iff`: among such bindings, when folding is done with one pass.
-/

namespace TraceGraph

/-! ## Folding up to lines -/

namespace Expr

theorem foldable?_mapLines (f : Nat → Nat) (e : Expr) :
    (e.mapLines f).foldable? = e.foldable? := by
  cases e <;> rfl

theorem eraseLines_withLine (n : Nat) (e : Expr) : (e.withLine n).eraseLines = e.eraseLines := by
  cases e <;> rfl

theorem foldable?_eq_of_eraseLines {e e' : Expr} (h : e.eraseLines = e'.eraseLines) :
    e.foldable? = e'.foldable? := by
  rw [← foldable?_mapLines (fun _ => 0) e, ← foldable?_mapLines (fun _ => 0) e']
  exact congrArg foldable? h

/-! ## Normal forms -/

/-- Whether neither an assignment nor a step by one occurs in the expression, nor an
operator that could be computed. -/
def normal : Expr → Bool
  | .literal .. | .identifier .. => true
  | .unary _ _ operand => operand.normal && operand.foldable?.isNone
  | .binary _ _ left right =>
    left.normal && right.normal && (left.foldable?.isNone || right.foldable?.isNone)
  | .assign .. | .update .. => false

/-- Folding leaves nothing to compute. -/
theorem kept_normal : Kept normal where
  literal _ _ := rfl
  identifier _ _ := rfl
  withLine _ e := by cases e <;> rfl
  unary line op operand h := by
    cases hvalue : operand.foldable? with
    | some value => simp only [foldUnary, hvalue, normal]
    | none => simp only [foldUnary, hvalue, normal, h, Option.isNone_none, Bool.and_self]
  binary line op left right hleft hright := by
    cases hl : left.foldable? with
    | none => simp [foldBinary, normal, hl, hleft, hright]
    | some l =>
      cases hr : right.foldable? with
      | none => simp [foldBinary, normal, hl, hr, hleft, hright]
      | some r => simp only [foldBinary, hl, hr, normal]

end Expr

/-- All names are bound to normal forms. -/
def Env.Normal (env : Env) : Prop :=
  env.Binds Expr.normal

/-- The name is bound to itself, so its value is not known. -/
def Env.BoundToSelf (env : Env) (name : String) : Prop :=
  ∃ line, env.get? name = some (.identifier line name)

namespace Expr

variable {env : Env}

/-- A normal form folds to itself where each name in it is bound to itself. -/
theorem fold_eq_self {e : Expr} (hnormal : e.normal = true)
    (hself : ∀ name ∈ e.reads, env.BoundToSelf name) : e.fold env = .ok e := by
  induction e with
  | literal => rfl
  | identifier line name =>
    obtain ⟨line', hget⟩ := hself name List.mem_cons_self
    exact fold_identifier_eq_ok.2 ⟨_, hget, rfl⟩
  | unary line op operand ih =>
    rw [normal, Bool.and_eq_true, Option.isNone_iff_eq_none] at hnormal
    refine fold_unary_eq_ok.2 ⟨operand, ih hnormal.1 hself, ?_⟩
    simp only [foldUnary, hnormal.2]
  | binary line op left right ihl ihr =>
    rw [normal, Bool.and_eq_true, Bool.and_eq_true, Bool.or_eq_true] at hnormal
    obtain ⟨⟨hleft, hright⟩, hopen⟩ := hnormal
    refine fold_binary_eq_ok.2 ⟨left, right,
      ihl hleft fun name hname => hself name (List.mem_append_left _ hname),
      ihr hright fun name hname => hself name (List.mem_append_right _ hname), ?_⟩
    unfold foldBinary
    split
    · rename_i hl hr
      simp [hl, hr] at hopen
    · rfl
  | assign => cases hnormal
  | update => cases hnormal

/-- An operator that is still there after folding has not been computed. -/
private theorem operand_of_foldUnary {line line' : Nat} {op : UnaryOp} {operand a : Expr}
    (h : (foldUnary line op a).eraseLines = (Expr.unary line' op operand).eraseLines) :
    a.eraseLines = operand.eraseLines := by
  unfold foldUnary at h
  split at h
  · cases h
  · exact (Expr.unary.inj h).2.2

theorem operands_of_foldBinary {line line' : Nat} {op : BinaryOp} {left right l r : Expr}
    (h : (foldBinary line op l r).eraseLines = (Expr.binary line' op left right).eraseLines) :
    l.eraseLines = left.eraseLines ∧ r.eraseLines = right.eraseLines := by
  unfold foldBinary at h
  split at h
  · cases h
  · exact (Expr.binary.inj h).2.2

/-- If folding changes at most lines, each name is bound to itself. -/
theorem boundToSelf_of_fold {e v : Expr} (h : e.fold env = .ok v)
    (hsame : v.eraseLines = e.eraseLines) : ∀ name ∈ e.reads, env.BoundToSelf name := by
  induction e generalizing v with
  | literal => exact fun _ hname => absurd hname List.not_mem_nil
  | identifier line name =>
    obtain ⟨bound, hget, rfl⟩ := fold_identifier_eq_ok.1 h
    rw [eraseLines_withLine] at hsame
    intro other hother
    rw [List.mem_singleton.1 hother]
    cases bound with
    | identifier line' bound =>
      cases hsame
      exact ⟨line', hget⟩
    | _ => cases hsame
  | unary line op operand ih =>
    obtain ⟨a, ha, rfl⟩ := fold_unary_eq_ok.1 h
    exact ih ha (operand_of_foldUnary hsame)
  | binary line op left right ihl ihr =>
    obtain ⟨l, r, hl, hr, rfl⟩ := fold_binary_eq_ok.1 h
    obtain ⟨hleft, hright⟩ := operands_of_foldBinary hsame
    intro name hname
    rcases List.mem_append.1 hname with hname | hname
    · exact ihl hl hleft name hname
    · exact ihr hr hright name hname
  | assign => cases h
  | update => cases h

/-- Folding a normal form changes at most lines exactly if each name in it is bound to
itself. -/
theorem eraseLines_fold_iff {e v : Expr} (hnormal : e.normal = true) (h : e.fold env = .ok v) :
    v.eraseLines = e.eraseLines ↔ ∀ name ∈ e.reads, env.BoundToSelf name := by
  refine ⟨boundToSelf_of_fold h, fun hself => ?_⟩
  rw [fold_eq_self hnormal hself] at h
  cases h
  rfl

end Expr

/-! ## Bindings that folding makes -/

namespace Env

/-- Every name is bound to a known value or to itself. -/
def Initial (env : Env) : Prop :=
  ∀ name bound, env.get? name = some bound →
    (∃ line value, bound = .literal line value) ∨ ∃ line, bound = .identifier line name

theorem initial_empty : empty.Initial := by
  intro name bound hget
  cases hget

theorem Initial.bindPlaceholder {env : Env} (h : env.Initial) (line : Nat) (name : String) :
    (env.bindPlaceholder line name).Initial := by
  intro other bound hget
  rw [Env.bindPlaceholder, get?_bind] at hget
  split at hget
  · rename_i hother
    cases hget
    exact .inr ⟨line, by rw [hother]⟩
  · exact h other bound hget

/-- The bindings that folding some statements leaves, from known values and names
bound to themselves. -/
def Reachable (env : Env) : Prop :=
  ∃ (start : Env) (body : List Stmt), start.Initial ∧ (Stmt.foldAll body start).env = env

/-- Everything that folding binds is in normal form. -/
theorem Reachable.normal {env : Env} (h : env.Reachable) : env.Normal := by
  obtain ⟨start, body, hstart, rfl⟩ := h
  refine Stmt.env_foldAll Expr.kept_normal.stable body fun name bound hget => ?_
  rcases hstart name bound hget with ⟨line, value, rfl⟩ | ⟨line, rfl⟩
  · rfl
  · rfl

/-- Among bindings that folding has made, what is folded is in normal form, as
everything that is bound.  Folding it again gives the very same expression, lines
included, if each name in it is bound to itself, and only then. -/
theorem Reachable.fixed_iff {env : Env} (h : env.Reachable) :
    env.Normal ∧ ∀ e v : Expr, e.fold env = .ok v →
      v.normal = true ∧ (v.fold env = .ok v ↔ ∀ name ∈ v.reads, env.BoundToSelf name) := by
  refine ⟨h.normal, fun e v hfold => ?_⟩
  have hnormal := Expr.kept_normal.fold h.normal hfold
  refine ⟨hnormal, fun hagain => ?_, Expr.fold_eq_self hnormal⟩
  exact Expr.boundToSelf_of_fold hagain rfl

/-- Two names are bound to themselves, a third one keeps the sum of both, and one of
the two is given a value. -/
private def keptSum : Env :=
  (Stmt.foldAll
    [.declare 2 .letDecl
       [⟨"a", some (.binary 2 .add (.identifier 2 "x") (.identifier 2 "b")), 2⟩],
     .expression 3 (.assign 3 .assign "b" (.literal 3 (.bool true)))]
    ((empty.bindPlaceholder 1 "x").bindPlaceholder 1 "b")).env

private theorem reachable_keptSum : keptSum.Reachable :=
  ⟨_, _, (initial_empty.bindPlaceholder 1 "x").bindPlaceholder 1 "b", rfl⟩

/-- The negation of the unknown name is settled after one pass.  The sum is not, since
the name in it has got a value meanwhile. -/
theorem Reachable.fixed_iff_keptSum :
    keptSum.Reachable ∧
      (Expr.unary 4 .not (.identifier 4 "x")).fold keptSum
        = .ok (.unary 4 .not (.identifier 4 "x")) ∧
      (Expr.unary 4 .not (.identifier 4 "x")).normal = true ∧
      ∃ sum, (Expr.identifier 5 "a").fold keptSum = .ok sum ∧ sum.normal = true ∧
        sum.fold keptSum ≠ .ok sum := by
  obtain ⟨-, hfolded⟩ := reachable_keptSum.fixed_iff
  obtain ⟨hnormal, hsettled⟩ := hfolded (.unary 4 .not (.identifier 4 "x")) _ rfl
  obtain ⟨hsum, hopen⟩ := hfolded (.identifier 5 "a") _ rfl
  refine ⟨reachable_keptSum, hsettled.2 fun name hname => ?_, hnormal, _, rfl, hsum, ?_⟩
  · rw [List.mem_singleton.1 hname]
    exact ⟨1, rfl⟩
  · intro hagain
    obtain ⟨_, hb⟩ := hopen.1 hagain "b" (by decide)
    cases hb

end Env

end TraceGraph
