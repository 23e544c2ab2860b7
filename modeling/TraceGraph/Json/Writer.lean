import TraceGraph.Json
import TraceGraph.Number.Layout

/-!
# JSON as text

There are two forms: `compact` without any blanks, and `pretty` with a line for
each item and two blanks for each level.
-/

namespace TraceGraph.Json

/-- Doubles always show a point or an exponent, so that they differ from whole
numbers.  There are no texts for infinity and NaN, which JSON does not have. -/
def numberLayout : Number.Layout where
  tie := .even
  positional e := -5 ≤ e && e < 16
  pointZero := true
  plusExponent := true
  infinity := "null"
  nan := "null"

/-- A hexadecimal digit in lower case. -/
def hexDigit (n : Nat) : Char :=
  Nat.digitChar n

/-- One character of a text between quotes.  Only quotes, backslashes and
control characters are escaped. -/
def quotedChar (c : Char) : List Char :=
  if c == '"' then ['\\', '"']
  else if c == '\\' then ['\\', '\\']
  else if c.toNat == 8 then ['\\', 'b']
  else if c == '\t' then ['\\', 't']
  else if c == '\n' then ['\\', 'n']
  else if c.toNat == 12 then ['\\', 'f']
  else if c == '\r' then ['\\', 'r']
  else if c.toNat < 0x20 then
    ['\\', 'u', '0', '0', hexDigit (c.toNat / 16), hexDigit (c.toNat % 16)]
  else [c]

/-- A text between quotes. -/
def quoted (s : String) : String :=
  String.ofList ('"' :: (s.toList.flatMap quotedChar ++ ['"']))

/-- A value that is neither an array nor an object. -/
def scalar : Json → String
  | .null => "null"
  | .bool true => "true"
  | .bool false => "false"
  | .int n => toString n
  | .double x => numberLayout.write x
  | .str s => quoted s
  | .array _ | .object _ => ""

/-! ## Without blanks -/

mutual

/-- The value as text without blanks. -/
def compact : Json → String
  | .array items => "[" ++ String.intercalate "," (compactItems items) ++ "]"
  | .object fields => "\x7b" ++ String.intercalate "," (compactFields fields) ++ "\x7d"
  | value => scalar value

/-- The texts of the items. -/
def compactItems : List Json → List String
  | [] => []
  | item :: rest => compact item :: compactItems rest

/-- The texts of the fields. -/
def compactFields : List (String × Json) → List String
  | [] => []
  | (name, value) :: rest => (quoted name ++ ":" ++ compact value) :: compactFields rest

end

/-! ## With a line for each item -/

/-- A line break and the blanks of a level. -/
def newLine (depth : Nat) : String :=
  String.ofList ('\n' :: List.replicate (2 * depth) ' ')

/-- Texts on lines of their own between two brackets.  Without texts both
brackets stand together. -/
def bracketed (opening closing : String) (depth : Nat) (texts : List String) : String :=
  if texts.isEmpty then opening ++ closing
  else
    opening ++ newLine (depth + 1) ++ String.intercalate ("," ++ newLine (depth + 1)) texts
      ++ newLine depth ++ closing

mutual

/-- The value as text at a level. -/
def prettyAt : Json → Nat → String
  | .array items, depth => bracketed "[" "]" depth (prettyItems items (depth + 1))
  | .object fields, depth => bracketed "\x7b" "\x7d" depth (prettyFields fields (depth + 1))
  | value, _ => scalar value

/-- The texts of the items. -/
def prettyItems : List Json → Nat → List String
  | [], _ => []
  | item :: rest, depth => prettyAt item depth :: prettyItems rest depth

/-- The texts of the fields. -/
def prettyFields : List (String × Json) → Nat → List String
  | [], _ => []
  | (name, value) :: rest, depth =>
    (quoted name ++ ": " ++ prettyAt value depth) :: prettyFields rest depth

end

/-- The value as text with a line for each item. -/
def pretty (value : Json) : String :=
  value.prettyAt 0

end TraceGraph.Json
