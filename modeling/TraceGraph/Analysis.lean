import TraceGraph.Graph.Builder
import TraceGraph.Settings
import TraceGraph.Stmt.Parser

/-!
# Analyses

An analysis reads a source text, runs its function on arguments if the path is to
be highlighted, folds it if the labels are to show folded source, and builds its
graph.  The first of these steps that fails decides the fault.

Besides its result, an analysis gives notices for the one who asked for it.
-/

namespace TraceGraph

/-- Something worth telling about an analysis that went through. -/
inductive Notice where
  /-- An argument is no parameter of the function. -/
  | ignoredArgument (name function : String)
  | builtGraph (nodes edges : Nat)
deriving DecidableEq, Repr

/-- Whether the notice warns of something. -/
def Notice.isWarning : Notice → Bool
  | .ignoredArgument .. => true
  | .builtGraph .. => false

/-- The notice in words. -/
def Notice.message : Notice → String
  | .ignoredArgument name function =>
    "Ignoring argument `" ++ name ++ "`: not a parameter of `" ++ function ++ "`"
  | .builtGraph nodes edges =>
    "Built graph with " ++ toString nodes ++ " nodes and " ++ toString edges ++ " edges"

/-- A result with the notices about it. -/
structure Noted (α : Type) where
  value : α
  notices : List Notice

namespace Program

/-- The notices about the arguments of a run. -/
def argumentNotices (program : Program) (args : Arguments) : List Notice :=
  match program.function? with
  | some decl => (decl.ignoredArguments args).map (.ignoredArgument · decl.name)
  | none => []

/-- The graph of the only function, with labels from the source as it was
written or folded. -/
def graph (program : Program) (settings : Settings) (path : Option Classification) :
    Except Fault Graph := do
  if settings.foldLabels then
    let folded := program.substitute
    match folded.fault with
    | some fault => .error fault
    | none => Graph.ofBody (← folded.result.theFunction).body settings.firstId path
  else Graph.ofBody (← program.theFunction).body settings.firstId path

/-- The path to highlight, if there is to be one. -/
def path (program : Program) (settings : Settings) (args : Arguments) :
    Except Fault (Option Classification) :=
  if settings.highlight then (program.classify args).map some else .ok none

/-- The graph with the path taken for the arguments, where it is asked for. -/
def analyze (program : Program) (settings : Settings) (args : Arguments) : Except Fault Graph := do
  program.graph settings (← program.path settings args)

end Program

/-- The notice about a graph. -/
def Graph.notice (graph : Graph) : Notice :=
  .builtGraph graph.nodes.length graph.edges.length

/-- Builds the graph of a source text and, where it is asked for, highlights the
path that the arguments take. -/
def analyze (settings : Settings) (source : String) (args : Arguments) :
    Except Fault (Noted Graph) := do
  let program ← Program.parse source
  let graph ← program.analyze settings args
  let warnings := if settings.highlight then program.argumentNotices args else []
  return ⟨graph, warnings ++ [graph.notice]⟩

/-- Builds the graph of a source text without running it. -/
def analyzeUncolored (settings : Settings) (source : String) : Except Fault (Noted Graph) := do
  let graph ← (← Program.parse source).graph settings none
  return ⟨graph, [graph.notice]⟩

/-- The lines of a source text that the arguments execute and skip. -/
def classifyLines (source : String) (args : Arguments) : Except Fault (Noted Classification) := do
  let program ← Program.parse source
  return ⟨← program.classify args, program.argumentNotices args⟩

end TraceGraph
