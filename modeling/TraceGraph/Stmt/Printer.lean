import TraceGraph.Expr.Printer
import TraceGraph.Stmt

/-!
# Statements as text

Each level of nesting is indented by four blanks.  A braced body stays on the
line of its condition, and any other body goes on a line of its own.
-/

namespace TraceGraph

namespace Stmt

/-- The blanks before a line at the given depth. -/
def indent (depth : Nat) : String :=
  String.ofList (List.replicate (4 * depth) ' ')

/-- One name of a declaration as source text. -/
def renderDeclarator (d : Declarator) : String :=
  match d.init with
  | some init => d.name ++ " = " ++ init.render
  | none => d.name

/-- Where `else` goes: after the closing brace, or on a line of its own. -/
def renderElse (depth : Nat) (consequent : Stmt) : String :=
  if consequent.isBlock then " else" else "\n" ++ indent depth ++ "else"

/-- The text of a body after its condition: beside it for a braced block, else
on a line of its own.  `text` is the body at a given depth. -/
def placeBody (depth : Nat) (body : Stmt) (text : Nat → String) : String :=
  if body.isBlock then " " ++ text depth else "\n" ++ indent (depth + 1) ++ text (depth + 1)

/-- The text of an alternative after `else`.  A conditional goes on in the same
line, so that a chain is not indented further and further. -/
def placeAlternate (depth : Nat) (alternate : Stmt) (text : Nat → String) : String :=
  if alternate.isConditional then " " ++ text depth else placeBody depth alternate text

/-- Lines of statements in braces.  Without statements both braces stand
together. -/
def inBraces (depth : Nat) (body : List Stmt) (lines : String) : String :=
  if body.isEmpty then "\x7b\x7d" else "\x7b\n" ++ lines ++ indent depth ++ "\x7d"

mutual

/-- The statement as source text, at a depth of nesting.  The first line is not
indented. -/
def renderAt : Stmt → Nat → String
  | .function _ name params _ body, depth =>
    "function " ++ name ++ "(" ++ String.intercalate ", " params ++ ") "
      ++ inBraces depth body (renderLines body (depth + 1))
  | .block _ body, depth => inBraces depth body (renderLines body (depth + 1))
  | .expression _ expr, _ => expr.render ++ ";"
  | .declare _ kind declarators, _ =>
    kind.spelling ++ " " ++ String.intercalate ", " (declarators.map renderDeclarator) ++ ";"
  | .ifThen _ test consequent, depth =>
    "if (" ++ test.render ++ ")" ++ placeBody depth consequent (renderAt consequent)
  | .ifElse _ test consequent alternate, depth =>
    "if (" ++ test.render ++ ")" ++ placeBody depth consequent (renderAt consequent)
      ++ renderElse depth consequent ++ placeAlternate depth alternate (renderAt alternate)
  | .loop _ test body, depth =>
    "while (" ++ test.render ++ ")" ++ placeBody depth body (renderAt body)
  | .exit _ (some result), _ => "return " ++ result.render ++ ";"
  | .exit _ none, _ => "return;"

/-- Statements on lines of their own. -/
def renderLines : List Stmt → Nat → String
  | [], _ => ""
  | s :: rest, depth => indent depth ++ renderAt s depth ++ "\n" ++ renderLines rest depth

end

/-- The statement as source text. -/
def render (s : Stmt) : String :=
  s.renderAt 0

end Stmt

/-- The program as source text. -/
def Program.render (program : Program) : String :=
  String.intercalate "\n" (program.body.map Stmt.render)

end TraceGraph
