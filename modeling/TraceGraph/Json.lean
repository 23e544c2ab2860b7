import TraceGraph.NameTable

/-!
# JSON values

Whole numbers that fit into 64 bits are kept apart from doubles, since they are
written differently.  The fields of an object are kept as they were read.
`sorted` gives the form in which objects are written: in the order of names, with
the last of several fields of one name.
-/

namespace TraceGraph

/-- A JSON value. -/
inductive Json where
  | null
  | bool (value : Bool)
  | int (value : Int)
  | double (value : Float)
  | str (value : String)
  | array (items : List Json)
  | object (fields : List (String × Json))
deriving Repr, Inhabited

namespace Json

mutual

/-- The value with the fields of all objects in order, each name once. -/
def sorted : Json → Json
  | .array items => .array (sortedItems items)
  | .object fields => .object (NameTable.ofPairs (sortedFields fields))
  | value => value

/-- The items, each of them sorted. -/
def sortedItems : List Json → List Json
  | [] => []
  | item :: rest => sorted item :: sortedItems rest

/-- The fields as they are, the value of each of them sorted. -/
def sortedFields : List (String × Json) → List (String × Json)
  | [] => []
  | (name, value) :: rest => (name, sorted value) :: sortedFields rest

end

end Json

end TraceGraph
