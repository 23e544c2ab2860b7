import TraceGraph.Graph.Label
import TraceGraph.Proofs.Graph.Segmenting
import TraceGraph.Stmt.Lines
import TraceGraph.Stmt.Printer

/-!
# Structured execution

What a body does, as long as all that is known of its tests are their answers.
The bodies of conditionals and loops are not looked into: each is one event.  The
answers are used up one after the other, and an execution that needs one more
waits at its test.

* `Stmt.choose`: the way through a chain of conditionals.
* `execute`: the events of a body, and how it ends.

Nothing here knows about graphs other than the shapes of their nodes.
-/

namespace TraceGraph

/-! ## Events -/

/-- What is seen of an execution when it passes a point of the body. -/
structure Event where
  shape : NodeShape
  label : String
  line : Option Nat
deriving DecidableEq, Repr

namespace Event

/-- Statements that run one after the other. -/
def run (stmts : List Stmt) : Event :=
  ⟨.block, Label.clean (String.intercalate "\n" (stmts.map Stmt.render)),
    stmts.head?.map Stmt.line⟩

/-- The body of a conditional or a loop, as a whole. -/
def body (s : Stmt) : Event :=
  ⟨.block, Label.clean s.render, some s.firstLine⟩

/-- A test that takes an answer. -/
def decision (test : Expr) : Event :=
  ⟨.decision, Label.clean test.render, some test.line⟩

/-- The start of a loop, at its first and every further round. -/
def round (line : Nat) : Event :=
  ⟨.junction, "NULL", some line⟩

/-- The end of a chain of conditionals. -/
def merge : Event :=
  ⟨.junction, "", none⟩

/-- The end of a body that ends with a loop. -/
def exit : Event :=
  ⟨.junction, "exit", none⟩

end Event

/-! ## Executions -/

/-- How an execution ends. -/
inductive Ending where
  /-- A test needs one more answer. -/
  | waiting
  /-- The body is over, and these answers were not needed. -/
  | over (unused : List Bool)
deriving DecidableEq, Repr

/-- The events of an execution, and its ending. -/
structure Execution where
  events : List Event
  ending : Ending
deriving DecidableEq, Repr

/-- The execution with events before it. -/
def Execution.after (rest : Execution) (events : List Event) : Execution :=
  ⟨events ++ rest.events, rest.ending⟩

theorem Execution.after_append (rest : Execution) (events events' : List Event) :
    rest.after (events ++ events') = (rest.after events').after events := by
  simp [after]

/-- The events of a chain of conditionals up to where its branches meet again, and
the answers that are left there, or nothing if there are too few.  A statement
that is no conditional is what comes after the last `else`. -/
def Stmt.choose : Stmt → List Bool → List Event × Option (List Bool)
  | .ifThen _ test consequent, answers =>
    match answers with
    | [] => ([.decision test], none)
    | true :: answers => ([.decision test, .body consequent], some answers)
    | false :: answers => ([.decision test], some answers)
  | .ifElse _ test consequent alternate, answers =>
    match answers with
    | [] => ([.decision test], none)
    | true :: answers => ([.decision test, .body consequent], some answers)
    | false :: answers =>
      let (events, left) := alternate.choose answers
      (.decision test :: events, left)
  | otherwise, answers => ([.body otherwise], some answers)

theorem Stmt.choose_otherwise {s : Stmt} (h : s.isConditional = false) (answers : List Bool) :
    s.choose answers = ([.body s], some answers) := by
  cases s with
  | ifThen => cases h
  | ifElse => cases h
  | _ => rfl

/-- A chain does not make up answers. -/
theorem Stmt.length_choose_le {s : Stmt} {answers left : List Bool} {events : List Event}
    (h : s.choose answers = (events, some left)) : left.length ≤ answers.length := by
  induction s using chain_induction generalizing answers events with
  | ifThen line test consequent =>
    cases answers with
    | nil => cases h
    | cons answer answers =>
      cases answer <;> cases h <;> simp
  | ifElse line test consequent alternate ih =>
    cases answers with
    | nil => cases h
    | cons answer answers =>
      cases answer with
      | true =>
        cases h
        simp
      | false =>
        have hleft : (alternate.choose answers).2 = some left := congrArg Prod.snd h
        exact Nat.le_succ_of_le (ih (Prod.ext rfl hleft))
  | otherwise s hs =>
    rw [choose_otherwise hs] at h
    cases h
    exact Nat.le_refl _

/-- The execution of a body. -/
def execute (body : List Stmt) (answers : List Bool) : Execution :=
  match body with
  | [] => ⟨[], .over answers⟩
  | .exit line result :: _ => ⟨[.run [.exit line result]], .over answers⟩
  | .loop line test inner :: rest =>
    match answers with
    | [] => ⟨[.round line, .decision test], .waiting⟩
    | true :: answers =>
      (execute (.loop line test inner :: rest) answers).after
        [.round line, .decision test, .body inner]
    | false :: answers =>
      if rest.isEmpty then ⟨[.round line, .decision test, .exit], .over answers⟩
      else (execute rest answers).after [.round line, .decision test]
  | s :: rest =>
    if s.isConditional then
      match _h : s.choose answers with
      | (events, none) => ⟨events, .waiting⟩
      | (events, some answers) => (execute rest answers).after (events ++ [.merge])
    else
      let plain := s :: rest.takeWhile Stmt.isPlain
      let others := rest.dropWhile Stmt.isPlain
      match leadingReturn? others with
      | some last => ⟨[.run (plain ++ [last])], .over answers⟩
      | none => (execute others answers).after [.run plain]
termination_by answers.length + body.length
decreasing_by
  · simp only [List.length_cons]
    omega
  · simp only [List.length_cons]
    omega
  · have hle := Stmt.length_choose_le _h
    simp only [List.length_cons]
    omega
  · have hle : (rest.dropWhile Stmt.isPlain).length ≤ rest.length :=
      (List.dropWhile_suffix Stmt.isPlain).length_le
    simp only [List.length_cons]
    omega

end TraceGraph
