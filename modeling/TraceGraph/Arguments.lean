import TraceGraph.Fault
import TraceGraph.Json.Reader
import TraceGraph.Json.Writer

/-!
# Argument vectors

The values of parameters for one run, in the order of their names.  They are
usually given as a JSON object of numbers, booleans and texts.
-/

namespace TraceGraph

/-- Values of parameters by name. -/
structure Arguments where
  entries : NameTable Literal
deriving DecidableEq, Repr, Inhabited

namespace Arguments

/-- No values. -/
def empty : Arguments := ⟨[]⟩

/-- Gives a parameter a value, in place of the one that it had. -/
def set (args : Arguments) (name : String) (value : Literal) : Arguments :=
  ⟨args.entries.put name value⟩

/-- The arguments of a list of pairs.  Of two pairs with one name the later one
counts. -/
def ofPairs (pairs : List (String × Literal)) : Arguments :=
  ⟨.ofPairs pairs⟩

/-- The value of a parameter. -/
def get? (args : Arguments) (name : String) : Option Literal :=
  args.entries.lookup name

/-- The names that have a value, in order. -/
def names (args : Arguments) : List String :=
  args.entries.map Prod.fst

/-- The value that a field of the object stands for. -/
def ofField (name : String) (value : Json) : Except Fault Literal :=
  match value with
  | .int n => .ok (.number (Float.ofInt n))
  | .double x => .ok (.number x)
  | .bool b => .ok (.bool b)
  | .str s => .ok (.text s)
  | .null | .array _ | .object _ =>
    .error (.badArguments (.unsupportedValue name value.sorted.compact))

/-- The arguments that a JSON text gives.  Fields are looked at in the order of
their names. -/
def parse (text : String) : Except Fault Arguments :=
  match Json.parse? text with
  | none => .error (.badArguments .notJson)
  | some (.object fields) => do
    let entries ← (NameTable.ofPairs fields).mapM fun (name, value) => do
      return (name, ← ofField name value)
    return ⟨entries⟩
  | some _ => .error (.badArguments .notAnObject)

end Arguments

end TraceGraph
