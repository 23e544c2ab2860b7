import Mathlib.Data.List.Nodup
import TraceGraph.Stmt.Lines

/-!
# One statement per line

Reports about a run name lines.  They tell statements apart if no two statements
start on one line and if braces keep out of the way.  Blocks do not count as
statements here: a block only passes on what is in it.

* `Stmt.statements`: a statement with everything nested in it.
* `Stmt.LaidOut`: a body is laid out with one statement per line.
* `Stmt.LaidOut.eq_of_line_eq`: a line of such a body belongs to one statement.
* `Stmt.leaves`: the statements without parts, outside of loops.
-/

namespace TraceGraph.Stmt

/-! ## Parts of a statement -/

/-- The test of a conditional or a loop. -/
def test? : Stmt → Option Expr
  | .ifThen _ test _ | .ifElse _ test _ _ | .loop _ test _ => some test
  | .function .. | .block .. | .expression .. | .declare .. | .exit .. => none

/-- The line where a run meets the statement: where its test starts, if it has one. -/
def entryLine (s : Stmt) : Nat :=
  (s.test?.map Expr.line).getD s.line

/-- The bodies that a conditional chooses from, or that a loop repeats. -/
def branches : Stmt → List Stmt
  | .ifThen _ _ consequent => [consequent]
  | .ifElse _ _ consequent alternate => [consequent, alternate]
  | .loop _ _ body => [body]
  | .function .. | .block .. | .expression .. | .declare .. | .exit .. => []

/-- The links of an else-if chain, from the given one on. -/
def links : Stmt → List Stmt
  | .ifThen line test consequent => [.ifThen line test consequent]
  | .ifElse line test consequent alternate =>
    .ifElse line test consequent alternate :: alternate.links
  | .function .. | .block .. | .expression .. | .declare .. | .loop .. | .exit .. => []

mutual

/-- The statement and every statement nested in it, in source order.  A block only
passes on its statements. -/
def statements : Stmt → List Stmt
  | .function line name params bodyLine body =>
    .function line name params bodyLine body :: statementsOf body
  | .block _ body => statementsOf body
  | .expression line expr => [.expression line expr]
  | .declare line kind declarators => [.declare line kind declarators]
  | .ifThen line test consequent => .ifThen line test consequent :: statements consequent
  | .ifElse line test consequent alternate =>
    .ifElse line test consequent alternate :: (statements consequent ++ statements alternate)
  | .loop line test body => .loop line test body :: statements body
  | .exit line result => [.exit line result]

/-- The statements of a list with everything nested in them. -/
def statementsOf : List Stmt → List Stmt
  | [] => []
  | s :: rest => statements s ++ statementsOf rest

end

mutual

/-- The expressions, declarations and returns in a statement, at any depth but not in
the body of a loop. -/
def leaves : Stmt → List Stmt
  | .function _ _ _ _ body => leavesOf body
  | .block _ body => leavesOf body
  | .expression line expr => [.expression line expr]
  | .declare line kind declarators => [.declare line kind declarators]
  | .ifThen _ _ consequent => leaves consequent
  | .ifElse _ _ consequent alternate => leaves consequent ++ leaves alternate
  | .loop _ _ _ => []
  | .exit line result => [.exit line result]

/-- The expressions, declarations and returns in statements. -/
def leavesOf : List Stmt → List Stmt
  | [] => []
  | s :: rest => leaves s ++ leavesOf rest

end

/-! ## Lines -/

theorem entryLine_of_test? {s : Stmt} {test : Expr} (h : s.test? = some test) :
    s.entryLine = test.line := by
  rw [entryLine, h]
  rfl

theorem entryLine_of_not_test? {s : Stmt} (h : s.test? = none) : s.entryLine = s.line := by
  rw [entryLine, h]
  rfl

theorem self_mem_statements {s : Stmt} (h : s.isBlock = false) : s ∈ s.statements := by
  cases s with
  | block => cases h
  | _ => exact List.mem_cons_self

mutual

theorem lines_eq_map : (s : Stmt) → s.lines = s.statements.map line
  | .function _ _ _ _ body => congrArg (_ :: ·) (linesOf_eq_map body)
  | .block _ body => linesOf_eq_map body
  | .expression .. | .declare .. | .exit .. => rfl
  | .ifThen _ _ consequent => congrArg (_ :: ·) (lines_eq_map consequent)
  | .ifElse _ _ consequent alternate => by
    rw [lines, lines_eq_map consequent, lines_eq_map alternate, ← List.map_append]
    rfl
  | .loop _ _ body => congrArg (_ :: ·) (lines_eq_map body)

theorem linesOf_eq_map : (body : List Stmt) → linesOf body = (statementsOf body).map line
  | [] => rfl
  | s :: rest => by
    rw [linesOf, lines_eq_map s, linesOf_eq_map rest, ← List.map_append]
    rfl

end

theorem line_mem_lines {s t : Stmt} (h : t ∈ s.statements) : t.line ∈ s.lines := by
  rw [lines_eq_map]
  exact List.mem_map_of_mem h

theorem line_mem_linesOf {body : List Stmt} {s : Stmt} (h : s ∈ statementsOf body) :
    s.line ∈ linesOf body := by
  rw [linesOf_eq_map]
  exact List.mem_map_of_mem h

theorem mem_linesOf {body : List Stmt} {n : Nat} :
    n ∈ linesOf body ↔ ∃ s ∈ statementsOf body, s.line = n := by
  rw [linesOf_eq_map, List.mem_map]

theorem statements_subset_statementsOf {body : List Stmt} {s : Stmt} (h : s ∈ body) :
    s.statements ⊆ statementsOf body := by
  induction body with
  | nil => cases h
  | cons first rest ih =>
    rw [statementsOf]
    rcases List.mem_cons.1 h with rfl | h
    · exact List.subset_append_left _ _
    · exact List.Subset.trans (ih h) (List.subset_append_right _ _)

mutual

theorem of_mem_leaves : (s : Stmt) → {t : Stmt} → t ∈ s.leaves →
    t ∈ s.statements ∧ t.test? = none
  | .function _ _ _ _ body, _, h => (of_mem_leavesOf body h).imp_left (List.mem_cons_of_mem _)
  | .block _ body, _, h => of_mem_leavesOf body h
  | .expression .., _, h | .declare .., _, h | .exit .., _, h => by
    cases List.mem_singleton.1 h
    exact ⟨List.mem_cons_self, rfl⟩
  | .ifThen _ _ consequent, _, h => (of_mem_leaves consequent h).imp_left (List.mem_cons_of_mem _)
  | .ifElse _ _ consequent alternate, _, h => by
    refine And.imp_left (List.mem_cons_of_mem _) ?_
    rcases List.mem_append.1 h with h | h
    · exact (of_mem_leaves consequent h).imp_left (List.mem_append_left _)
    · exact (of_mem_leaves alternate h).imp_left (List.mem_append_right _)

theorem of_mem_leavesOf : (body : List Stmt) → {t : Stmt} → t ∈ leavesOf body →
    t ∈ statementsOf body ∧ t.test? = none
  | s :: rest, _, h => by
    rcases List.mem_append.1 h with h | h
    · exact (of_mem_leaves s h).imp_left (List.mem_append_left _)
    · exact (of_mem_leavesOf rest h).imp_left (List.mem_append_right _)

end

/-! ## Layout -/

/-- A body is laid out with one statement per line.  Tests start where their
statements do, and where the block of a conditional or a loop opens, no statement
starts but the one that the block belongs to. -/
structure LaidOut (body : List Stmt) : Prop where
  distinct : (linesOf body).Nodup
  tests : ∀ s ∈ statementsOf body, ∀ test ∈ s.test?, test.line = s.line
  braces : ∀ s ∈ statementsOf body, ∀ b ∈ s.branches, b.isBlock →
    b.line ∈ linesOf body → b.line = s.line

instance (body : List Stmt) : Decidable (LaidOut body) :=
  decidable_of_iff
    ((linesOf body).Nodup ∧
      (∀ s ∈ statementsOf body, ∀ test ∈ s.test?, test.line = s.line) ∧
      ∀ s ∈ statementsOf body, ∀ b ∈ s.branches, b.isBlock →
        b.line ∈ linesOf body → b.line = s.line)
    ⟨fun ⟨distinct, tests, braces⟩ => ⟨distinct, tests, braces⟩,
      fun ⟨distinct, tests, braces⟩ => ⟨distinct, tests, braces⟩⟩

namespace LaidOut

variable {body : List Stmt}

/-- A line belongs to one statement. -/
theorem eq_of_line_eq (h : LaidOut body) {s t : Stmt} (hs : s ∈ statementsOf body)
    (ht : t ∈ statementsOf body) (hline : s.line = t.line) : s = t := by
  have hnodup := h.distinct
  rw [linesOf_eq_map] at hnodup
  exact List.inj_on_of_nodup_map hnodup hs ht hline

theorem entryLine_eq (h : LaidOut body) {s : Stmt} (hs : s ∈ statementsOf body) :
    s.entryLine = s.line := by
  cases htest : s.test? with
  | none => exact entryLine_of_not_test? htest
  | some test => rw [entryLine_of_test? htest, h.tests s hs test htest]

end LaidOut

end TraceGraph.Stmt
