import TraceGraph.Graph.Document
import TraceGraph.Graph.Indexed
import TraceGraph.Text.Quoted

/-!
# Graphs in the DOT language

Nodes are named by their position, because a negative number is no name there.
Texts are written in printable ASCII.
-/

namespace TraceGraph

namespace Dot

/-- One character of a text between quotes. -/
def quotedChar (c : Char) : List Char :=
  if c == '\t' then ['\\', 't']
  else if c == '\r' then ['\\', 'r']
  else if c == '\n' then ['\\', 'n']
  else if c == '\'' || c == '"' || c == '\\' then ['\\', c]
  else if 0x20 ≤ c.toNat && c.toNat ≤ 0x7E then [c]
  else Text.codePointEscape c

/-- A text between quotes. -/
def quoted (s : String) : String :=
  String.ofList ('"' :: (s.toList.flatMap quotedChar ++ ['"']))

/-- A property in brackets. -/
def property (name value : String) : String :=
  "[" ++ name ++ "=" ++ quoted value ++ "]"

/-- The name of the node at a position. -/
def nodeName (position : Nat) : String :=
  "N" ++ toString position

/-- The fill of a node. -/
def color (node : Node) : String :=
  if node.highlighted then "palegreen" else "white"

/-- The line of a node. -/
def nodeLine (node : Node) (position : Nat) : String :=
  "    " ++ nodeName position ++ property "label" node.label ++ property "style" "filled"
    ++ property "color" (color node) ++ property "shape" node.shape.outline ++ ";\n"

/-- The line of an edge. -/
def linkLine (link : Link) : String :=
  "    " ++ nodeName link.source ++ " -> " ++ nodeName link.target
    ++ property "label" link.kind.label ++ ";\n"

end Dot

/-- The graph as the text of a DOT file. -/
def Graph.dot (graph : Graph) : String :=
  "digraph cfg \x7b\n"
    ++ String.join (graph.nodes.zipIdx.map fun (node, position) => Dot.nodeLine node position)
    ++ String.join (graph.links.map Dot.linkLine)
    ++ "\x7d\n"

end TraceGraph
