import TraceGraph.CommandLine.Words

/-!
# The program

Reads the files that a command line names, and writes the outcome.  Everything
that is decided about a request is decided by `Request.run`.
-/

namespace TraceGraph

/-- The contents of a file, if it can be read. -/
def readContents? (file : String) : IO (Option String) := do
  try return some (← IO.FS.readFile file) catch _ => return none

/-- The contents of the files that a request names. -/
def readFiles (request : Request) : IO (String → Option String) := do
  let files := request.input :: request.config.toList
  let contents ← files.mapM fun file => return (file, ← readContents? file)
  return fun file => (contents.lookup file).join

/-- The notice with its level. -/
def Notice.record (notice : Notice) : String :=
  (if notice.isWarning then "[WARN] " else "[INFO] ") ++ notice.message

/-- Writes the outcome of a request. -/
def answer (request : Request) : IO UInt32 := do
  match request.run (← readFiles request) with
  | .error failure =>
    IO.eprintln ("Error: " ++ failure.message)
    return 1
  | .ok outcome =>
    for notice in outcome.notices do
      IO.eprintln notice.record
    match request.output with
    | some file => IO.FS.writeFile file outcome.value
    | none => IO.println outcome.value
    return 0

/-- How the program is called. -/
def usage : String :=
  "usage: tracegraph INPUT [--args JSON] [--output FILE] [--format json|dot|lines]"
    ++ " [--fold-labels] [--first-id N] [--config FILE] [--debug]"

end TraceGraph

def main (words : List String) : IO UInt32 := do
  match TraceGraph.Request.ofWords? words with
  | some request => TraceGraph.answer request
  | none =>
    IO.eprintln TraceGraph.usage
    return 1
