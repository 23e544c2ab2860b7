import TraceGraph.Json.Reader

/-!
# Settings

What one analysis is asked to do.  Settings are read from a JSON object with
known names, or from an array with the values in a fixed order.  Whatever is left
out has its default.
-/

namespace TraceGraph

/-- What an analysis is asked to do. -/
structure Settings where
  /-- The first number given to a node. -/
  firstId : Nat := 1
  /-- Whether labels show the folded source. -/
  foldLabels : Bool := false
  /-- Whether the nodes on the path taken are highlighted. -/
  highlight : Bool := false
deriving DecidableEq, Repr, Inhabited

namespace Settings

/-- One more than the greatest number of a node. -/
def idLimit : Nat := 0x100000000

/-- The names of the settings, in the order that an array gives them in. -/
def fieldNames : List String :=
  ["first_id", "fold_labels", "highlight"]

/-- Sets one field. -/
def set? (settings : Settings) (field : String × Json) : Option Settings :=
  match field with
  | ("first_id", .int n) =>
    if 0 ≤ n ∧ n < idLimit then some { settings with firstId := n.toNat } else none
  | ("fold_labels", .bool b) => some { settings with foldLabels := b }
  | ("highlight", .bool b) => some { settings with highlight := b }
  | _ => none

/-- The settings that a JSON value gives.  No name may occur twice. -/
def ofJson? : Json → Option Settings
  | .object fields =>
    if (fields.map Prod.fst).Nodup then fields.foldlM set? {} else none
  | .array items =>
    if items.length ≤ fieldNames.length then (fieldNames.zip items).foldlM set? {} else none
  | _ => none

/-- The settings that a JSON text gives. -/
def parse? (text : String) : Option Settings :=
  (Json.parse? text).bind ofJson?

end Settings

end TraceGraph
