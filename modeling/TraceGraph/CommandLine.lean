import TraceGraph.Analysis
import TraceGraph.Graph.Document
import TraceGraph.Graph.Dot

/-!
# The command line

A request names a source file and how to look at it.  `Request.run` decides the
outcome from the request and the contents of the files that it names.  Settings
come first, then arguments, the source, and the format, and the first of them
that fails decides the failure.
-/

namespace TraceGraph

/-- What the command line asks for. -/
structure Request where
  /-- The source file. -/
  input : String
  /-- The arguments as JSON.  Giving some also asks for highlighting. -/
  args : Option String := none
  /-- The file to write to, instead of standard output. -/
  output : Option String := none
  /-- The output format. -/
  format : String := "json"
  foldLabels : Bool := false
  firstId : Option Nat := none
  /-- A file with settings. -/
  config : Option String := none
deriving DecidableEq, Repr

/-- Why a request fails. -/
inductive Failure where
  | unreadableConfig (file : String)
  | invalidConfig (file : String)
  | unreadableArguments
  | unreadableSource (file : String)
  | unknownFormat (name : String)
  | fault (cause : Fault)
deriving DecidableEq, Repr

/-- The failure in words. -/
def Failure.message : Failure → String
  | .unreadableConfig file => "Failed to read config file: " ++ Text.quoted file
  | .invalidConfig file => "Invalid config file: " ++ Text.quoted file
  | .unreadableArguments => "Failed to parse --args"
  | .unreadableSource file => "Failed to read file: " ++ Text.quoted file
  | .unknownFormat name => "Unknown output format: " ++ name
  | .fault cause => cause.message

namespace Request

/-- Lets a fault of the analysis be the failure of the request. -/
def orFault {α : Type} : Except Fault α → Except Failure α
  | .ok value => .ok value
  | .error fault => .error (.fault fault)

/-- The settings of a request: those of the file, overridden by the request
itself. -/
def settings (request : Request) (read : String → Option String) : Except Failure Settings := do
  let base ← match request.config with
    | none => .ok {}
    | some file =>
      match read file with
      | none => .error (.unreadableConfig file)
      | some text =>
        match Settings.parse? text with
        | none => .error (.invalidConfig file)
        | some settings => .ok settings
  return {
    firstId := request.firstId.getD base.firstId
    foldLabels := request.foldLabels || base.foldLabels
    highlight := request.args.isSome || base.highlight
  }

/-- The arguments of a request. -/
def arguments (request : Request) : Except Failure Arguments :=
  match request.args with
  | none => .ok .empty
  | some text =>
    match Arguments.parse text with
    | .ok args => .ok args
    | .error _ => .error .unreadableArguments

/-- The source of a request. -/
def source (request : Request) (read : String → Option String) : Except Failure String :=
  match read request.input with
  | some text => .ok text
  | none => .error (.unreadableSource request.input)

/-- The text that answers a request, given the contents of files, with the
notices about it. -/
def run (request : Request) (read : String → Option String) : Except Failure (Noted String) := do
  let settings ← request.settings read
  let args ← request.arguments
  let source ← request.source read
  match request.format with
  | "json" =>
    let graph ← orFault (analyze settings source args)
    return ⟨graph.value.document, graph.notices⟩
  | "dot" =>
    let graph ← orFault (analyze settings source args)
    return ⟨graph.value.dot, graph.notices⟩
  | "lines" =>
    let lines ← orFault (classifyLines source args)
    return ⟨lines.value.document, lines.notices⟩
  | other => .error (.unknownFormat other)

end Request

end TraceGraph
