import TraceGraph.Fault

/-!
# From characters to tokens

A source text is a sequence of trivia and lexemes.  At each point trivia are
skipped if some start there, and otherwise the lexeme that starts there is taken,
as long as it goes.  Only the line feeds in trivia are counted, because no lexeme
holds one.

* `trivia?` takes blanks or one comment off the front of a text.
* `lexeme?` takes one token off the front of a text.
* `tokenize` reads a whole text.
-/

namespace TraceGraph

namespace Lexer

/-! ## Trivia -/

/-- The blanks that separate tokens. -/
def isSpace (c : Char) : Bool :=
  c == ' ' || c == '\t' || c == '\r' || c == '\n'

/-- Whether the character belongs to a line. -/
def inLine (c : Char) : Bool :=
  c != '\r' && c != '\n'

/-- The rest of a line and what follows it.  A carriage return ends a line only
together with a line feed, and a line with any other one is no comment. -/
def lineComment? (text : List Char) : Option (List Char × List Char) :=
  let body := text.takeWhile inLine
  match text.dropWhile inLine with
  | '\r' :: '\n' :: rest => some (body, '\r' :: '\n' :: rest)
  | '\r' :: _ => none
  | rest => some (body, rest)

/-- The text up to and with the first `*/`, and what follows it. -/
def blockComment? : List Char → Option (List Char × List Char)
  | '*' :: '/' :: rest => some (['*', '/'], rest)
  | c :: text => (blockComment? text).map fun (body, rest) => (c :: body, rest)
  | [] => none

/-- Blanks or a comment at the front of the text, and what follows them. -/
def trivia? : List Char → Option (List Char × List Char)
  | '/' :: '/' :: text => (lineComment? text).map fun (body, rest) => ('/' :: '/' :: body, rest)
  | '/' :: '*' :: text => (blockComment? text).map fun (body, rest) => ('/' :: '*' :: body, rest)
  | c :: text =>
    if isSpace c then some (c :: text.takeWhile isSpace, text.dropWhile isSpace) else none
  | [] => none

/-! ## Lexemes -/

/-- Whether a word can start with the character. -/
def isWordStart (c : Char) : Bool :=
  c.isAlpha || c == '_' || c == '$'

/-- Whether a word can go on with the character. -/
def isWordPart (c : Char) : Bool :=
  c.isAlphanum || c == '_' || c == '$'

/-- The digits after a point, if there are any, and what follows them.  A point
without a digit after it is left alone. -/
def fraction : List Char → List Char × List Char
  | '.' :: c :: text =>
    if c.isDigit then (c :: text.takeWhile Char.isDigit, text.dropWhile Char.isDigit)
    else ([], '.' :: c :: text)
  | text => ([], text)

/-- The number that starts with the digit `c`. -/
def number (c : Char) (text : List Char) : Token × List Char :=
  let whole := c :: text.takeWhile Char.isDigit
  let (places, rest) := fraction (text.dropWhile Char.isDigit)
  (.number (Number.ofParts whole places 0), rest)

/-- The character that a backslash and `c` stand for. -/
def unescape? (c : Char) : Option Char :=
  if c == '\\' || c == '\'' || c == '"' then some c
  else if c == 'n' then some '\n'
  else none

/-- The contents of a string up to the closing quote, and what follows it. -/
def stringBody? (quote : Char) : List Char → Option (List Char × List Char)
  | '\\' :: c :: text =>
    match unescape? c with
    | some value => (stringBody? quote text).map fun (values, rest) => (value :: values, rest)
    | none => none
  | c :: text =>
    if c == quote then some ([], text)
    else if c == '\\' || c == '\n' then none
    else (stringBody? quote text).map fun (values, rest) => (c :: values, rest)
  | [] => none

/-- The longest symbol at the front of the text. -/
def symbol? (text : List Char) : Option (Token × List Char) :=
  (Symbol.longestFirst.find? fun s => s.spelling.toList.isPrefixOf text).map fun s =>
    (.symbol s, text.drop s.spelling.toList.length)

/-- The token at the front of the text, and what follows it.  The first
character decides what kind of token it is. -/
def lexeme? : List Char → Option (Token × List Char)
  | [] => none
  | c :: text =>
    if isWordStart c then
      some (.ofWord (String.ofList (c :: text.takeWhile isWordPart)), text.dropWhile isWordPart)
    else if c.isDigit then some (number c text)
    else if c == '\'' || c == '"' then
      (stringBody? c text).map fun (value, rest) => (.text (String.ofList value), rest)
    else symbol? (c :: text)

/-! ## Every step makes the text shorter -/

private theorem length_dropWhile_le {α : Type} (p : α → Bool) (l : List α) :
    (l.dropWhile p).length ≤ l.length :=
  (List.dropWhile_suffix p).length_le

private theorem lineComment?_length_le {text body rest : List Char}
    (h : lineComment? text = some (body, rest)) : rest.length ≤ text.length := by
  have hdrop := length_dropWhile_le inLine text
  simp only [lineComment?] at h
  split at h <;> grind

private theorem blockComment?_length_le (text : List Char) {body rest : List Char}
    (h : blockComment? text = some (body, rest)) : rest.length ≤ text.length := by
  fun_induction blockComment? text generalizing body rest with
  | case1 => simp at h; simp [← h.2]; omega
  | case2 c text _ ih =>
    obtain ⟨⟨body, rest⟩, hb, hr⟩ := Option.map_eq_some_iff.1 h
    simp at hr
    have := ih hb
    simp [← hr.2]; omega
  | case3 => simp at h

/-- Skipping trivia makes the text shorter. -/
theorem trivia?_length_lt {text skipped rest : List Char}
    (h : trivia? text = some (skipped, rest)) : rest.length < text.length := by
  unfold trivia? at h
  split at h
  · obtain ⟨⟨body, rest⟩, hb, hr⟩ := Option.map_eq_some_iff.1 h
    have := lineComment?_length_le hb
    simp at hr
    simp [← hr.2]; omega
  · obtain ⟨⟨body, rest⟩, hb, hr⟩ := Option.map_eq_some_iff.1 h
    have := blockComment?_length_le _ hb
    simp at hr
    simp [← hr.2]; omega
  · split at h
    · simp at h
      rw [← h.2]
      have := length_dropWhile_le isSpace
      simp; grind
    · simp at h
  · simp at h

private theorem fraction_length_le (text : List Char) :
    (fraction text).2.length ≤ text.length := by
  unfold fraction
  split
  · split
    · have := length_dropWhile_le Char.isDigit
      simp; grind
    · simp
  · simp

private theorem stringBody?_length_le (quote : Char) (text : List Char)
    {values rest : List Char} (h : stringBody? quote text = some (values, rest)) :
    rest.length ≤ text.length := by
  fun_induction stringBody? quote text generalizing values rest with
  | case1 c text value hv ih =>
    obtain ⟨⟨values, rest⟩, hb, hr⟩ := Option.map_eq_some_iff.1 h
    have := ih hb
    simp at hr
    simp [← hr.2]; omega
  | case2 => simp at h
  | case3 c text _ hc => simp at h; simp [← h.2]
  | case4 => simp at h
  | case5 c text _ hc hn ih =>
    obtain ⟨⟨values, rest⟩, hb, hr⟩ := Option.map_eq_some_iff.1 h
    have := ih hb
    simp at hr
    simp [← hr.2]; omega
  | case6 => simp at h

private theorem symbol?_length_lt {text rest : List Char} {token : Token}
    (hne : text ≠ []) (h : symbol? text = some (token, rest)) : rest.length < text.length := by
  obtain ⟨s, _, hr⟩ := Option.map_eq_some_iff.1 h
  have hpos : 0 < s.spelling.toList.length := by cases s <;> decide
  have htext : 0 < text.length := List.length_pos_iff.2 hne
  simp only [Prod.mk.injEq] at hr
  rw [← hr.2, List.length_drop]
  omega

/-- Taking a token makes the text shorter. -/
theorem lexeme?_length_lt {text rest : List Char} {token : Token}
    (h : lexeme? text = some (token, rest)) : rest.length < text.length := by
  unfold lexeme? at h
  split at h
  · simp at h
  · rename_i c text
    split at h
    · have := length_dropWhile_le isWordPart text
      simp at h
      simp [← h.2]; omega
    split at h
    · have h1 := length_dropWhile_le Char.isDigit text
      have h2 := fraction_length_le (text.dropWhile Char.isDigit)
      simp [number] at h
      simp [← h.2]; omega
    split at h
    · obtain ⟨⟨values, rest⟩, hb, hr⟩ := Option.map_eq_some_iff.1 h
      have := stringBody?_length_le _ _ hb
      simp at hr
      simp [← hr.2]; omega
    · exact symbol?_length_lt (by simp) h

/-! ## The whole text -/

/-- How much of the text a report of unexpected input shows. -/
def reportLength : Nat := 10

/-- The tokens of a text whose first character stands on `line`. -/
def scan (line : Nat) (text : List Char) : Except Fault (List PlacedToken) :=
  if text.isEmpty then .ok []
  else
    match _ht : trivia? text with
    | some (skipped, rest) => scan (line + skipped.count '\n') rest
    | none =>
      match _hl : lexeme? text with
      | some (token, rest) => (scan line rest).map (⟨token, line⟩ :: ·)
      | none => .error (.malformed line (.unexpectedInput (String.ofList (text.take reportLength))))
termination_by text.length
decreasing_by
  · exact trivia?_length_lt _ht
  · exact lexeme?_length_lt _hl

end Lexer

/-- The tokens of a source text.  Lines are counted from one. -/
def tokenize (source : String) : Except Fault (List PlacedToken) :=
  Lexer.scan 1 source.toList

end TraceGraph
