import TraceGraph.Classification
import TraceGraph.Graph
import TraceGraph.Json.Writer

/-!
# Graphs and classifications as JSON documents

A document has its fields in the order of their names.
-/

namespace TraceGraph

/-- The outline that a shape is drawn with. -/
def NodeShape.outline : NodeShape → String
  | .block => "box"
  | .decision => "diamond"
  | .junction => "ellipse"

/-- The text beside an edge of a kind. -/
def EdgeKind.label : EdgeKind → String
  | .always => ""
  | .onTrue => "T"
  | .onFalse => "F"

/-- The fill of a node in a document. -/
def Node.background (node : Node) : String :=
  if node.highlighted then "MediumSeaGreen" else "white"

/-- A node of a document. -/
def Node.toJson (node : Node) : Json :=
  .object
    [("color", .object [("background", .str node.background), ("border", .str "black")]),
     ("id", .int node.id.signed),
     ("label", .str node.label),
     ("line", (node.line.map fun line : Nat => Json.int line).getD .null),
     ("shape", .str node.shape.outline)]

/-- An edge of a document. -/
def Edge.toJson (edge : Edge) : Json :=
  .object
    [("arrows", .str "to"),
     ("color", .str "black"),
     ("from", .int edge.source.signed),
     ("label", .str edge.kind.label),
     ("to", .int edge.target.signed)]

/-- The document of a graph. -/
def Graph.toJson (graph : Graph) : Json :=
  .object
    [("edges", .array (graph.edges.map Edge.toJson)),
     ("nodes", .array (graph.nodes.map Node.toJson))]

/-- A set of lines in a document. -/
def LineSet.toJson (set : LineSet) : Json :=
  .array (set.lines.map fun line : Nat => Json.int line)

/-- The document of a classification. -/
def Classification.toJson (c : Classification) : Json :=
  .object [("executed", c.executed.toJson), ("skipped", c.skipped.toJson)]

/-- The graph as the text of a document. -/
def Graph.document (graph : Graph) : String :=
  graph.toJson.pretty

/-- The classification as the text of a document. -/
def Classification.document (c : Classification) : String :=
  c.toJson.pretty

end TraceGraph
