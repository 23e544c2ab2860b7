import TraceGraph.Number.Layout
import TraceGraph.Number.Reading
import TraceGraph.Text.CharClass

/-!
# Literal values

Numbers, booleans and texts: what a source can write down, what an argument can
be, and what folding computes with.  A value takes part in folding when it is a
boolean or a number that stands for one.
-/

namespace TraceGraph

/-- A value that can be written in a source text. -/
inductive Literal where
  | number (value : Float)
  | bool (value : Bool)
  | text (value : String)
deriving DecidableEq, Repr, Inhabited

namespace Literal

/-- Whether operators are computed on the value.  They are not on texts and on
NaN. -/
def foldable : Literal → Bool
  | .number x => !x.isNaN
  | .bool _ => true
  | .text _ => false

/-- Whether a condition with this value holds.  Zero, NaN and the empty text
do not. -/
def truthy : Literal → Bool
  | .number x => x != 0.0 && !x.isNaN
  | .bool b => b
  | .text s => !s.isEmpty

/-- The number that arithmetic sees.  Booleans count as zero and one, and a text
as the number written in it, if there is one. -/
def toNumber : Literal → Float
  | .number x => x
  | .bool true => 1.0
  | .bool false => 0.0
  | .text s => (Number.read? (Text.trimBlanks s.toList)).getD Number.nan

/-- Numbers in source texts have no exponent and no superfluous point. -/
def numberLayout : Number.Layout where
  tie := .up
  positional _ := true
  pointZero := false
  plusExponent := false
  infinity := "Infinity"
  nan := "NaN"

/-- One character of a text between single quotes. -/
def quotedChar (c : Char) : List Char :=
  if c == '\\' then ['\\', '\\']
  else if c == '\'' then ['\\', '\'']
  else if c == '\n' then ['\\', 'n']
  else [c]

/-- The value as source text. -/
def render : Literal → String
  | .number x => numberLayout.write x
  | .bool true => "true"
  | .bool false => "false"
  | .text s => String.ofList ('\'' :: (s.toList.flatMap quotedChar ++ ['\'']))

/-- Whether both are numbers, both booleans or both texts. -/
def sameKind : Literal → Literal → Bool
  | .number _, .number _ => true
  | .bool _, .bool _ => true
  | .text _, .text _ => true
  | _, _ => false

end Literal

end TraceGraph
