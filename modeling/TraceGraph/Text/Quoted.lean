import TraceGraph.Text.Unprintable

/-!
# Texts in quotes

Messages show a text in double quotes.  A quote, a backslash and the common
control characters have an escape of two characters.  Everything else that
cannot be shown is written by its code point in hexadecimal.
-/

namespace TraceGraph.Text

/-- A code point in hexadecimal, without leading zeros. -/
def hexDigits (n : Nat) : List Char :=
  Nat.toDigits 16 n

/-- A character by its code point: a backslash, `u`, and the hexadecimal digits
in braces. -/
def codePointEscape (c : Char) : List Char :=
  ['\\', 'u', '\x7b'] ++ hexDigits c.toNat ++ ['\x7d']

/-- One character of a quoted text. -/
def quotedChar (c : Char) : List Char :=
  if c == '"' then ['\\', '"']
  else if c == '\\' then ['\\', '\\']
  else if c == '\n' then ['\\', 'n']
  else if c == '\r' then ['\\', 'r']
  else if c == '\t' then ['\\', 't']
  else if c.toNat == 0 then ['\\', '0']
  else if isUnprintable c then codePointEscape c
  else [c]

/-- The text in double quotes, as messages show it. -/
def quoted (text : String) : String :=
  String.ofList ('"' :: (text.toList.flatMap quotedChar ++ ['"']))

end TraceGraph.Text
