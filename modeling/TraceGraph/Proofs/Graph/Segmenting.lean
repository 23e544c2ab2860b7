import TraceGraph.Graph.Segment

/-!
# How bodies fall into segments

Statements are plain, or they are conditionals, loops or returns.  A body is cut
before and after every statement that is not plain, and ends with its first
return.

* `Stmt.chain_induction`: induction along a chain of conditionals.
* `Segment.ofBody_plain`: a plain statement opens a run that goes on as long as
  there are plain statements, and takes in a return that comes next.
-/

namespace TraceGraph

/-! ## Kinds of statements -/

namespace Stmt

/-- Whether a statement neither branches nor ends the body. -/
def isPlain : Stmt → Bool
  | .ifThen .. | .ifElse .. | .loop .. | .exit .. => false
  | .expression .. | .declare .. | .block .. | .function .. => true

theorem isPlain_of_not {s : Stmt} (hexit : ∀ line result, s ≠ .exit line result)
    (hloop : ∀ line test body, s ≠ .loop line test body) (hlink : ¬ s.isConditional) :
    s.isPlain := by
  cases s with
  | ifThen => exact absurd rfl hlink
  | ifElse => exact absurd rfl hlink
  | loop line test body => exact absurd rfl (hloop line test body)
  | exit line result => exact absurd rfl (hexit line result)
  | _ => rfl

/-- Induction along a chain of conditionals.  A conditional after `else` carries the
chain on, and any other statement ends it. -/
theorem chain_induction {motive : Stmt → Prop}
    (ifThen : ∀ line test consequent, motive (.ifThen line test consequent))
    (ifElse : ∀ line test consequent alternate, motive alternate →
      motive (.ifElse line test consequent alternate))
    (otherwise : ∀ s, s.isConditional = false → motive s) : ∀ s, motive s
  | .ifThen line test consequent => ifThen line test consequent
  | .ifElse line test consequent alternate =>
    ifElse line test consequent alternate (chain_induction ifThen ifElse otherwise alternate)
  | .expression .. | .declare .. | .block .. | .loop .. | .exit .. | .function .. =>
    otherwise _ rfl

end Stmt

/-! ## Runs -/

/-- The return that comes first in a body, if one does. -/
def leadingReturn? : List Stmt → Option Stmt
  | .exit line result :: _ => some (.exit line result)
  | _ => none

namespace Segment

theorem ofBody_cons_plain {s : Stmt} (h : s.isPlain) (rest : List Stmt) :
    ofBody (s :: rest) = prepend s (ofBody rest) := by
  cases s with
  | ifThen => cases h
  | ifElse => cases h
  | loop => cases h
  | exit => cases h
  | _ => rfl

theorem ofBody_eq_nil {body : List Stmt} : ofBody body = [] ↔ body = [] := by
  fun_cases ofBody body with
  | case6 s rest =>
    simp only [prepend]
    split <;> simp
  | _ => simp

/-- A plain statement opens a run, which ends before the first statement that is
not plain, or with it if it is a return. -/
theorem ofBody_plain {s : Stmt} (h : s.isPlain) (rest : List Stmt) :
    ofBody (s :: rest) = match leadingReturn? (rest.dropWhile Stmt.isPlain) with
      | some last => [.run (s :: rest.takeWhile Stmt.isPlain ++ [last])]
      | none =>
        .run (s :: rest.takeWhile Stmt.isPlain) :: ofBody (rest.dropWhile Stmt.isPlain) := by
  rw [ofBody_cons_plain h]
  induction rest generalizing s with
  | nil => rfl
  | cons first rest ih =>
    by_cases hfirst : first.isPlain
    · rw [List.takeWhile_cons_of_pos hfirst, List.dropWhile_cons_of_pos hfirst,
        ofBody_cons_plain hfirst, ih hfirst]
      cases leadingReturn? (rest.dropWhile Stmt.isPlain) with
      | none => rfl
      | some last => rfl
    · rw [List.takeWhile_cons_of_neg hfirst, List.dropWhile_cons_of_neg hfirst]
      cases first with
      | exit => rfl
      | ifThen => rfl
      | ifElse => rfl
      | loop => rfl
      | _ => exact absurd rfl hfirst

end Segment

end TraceGraph
