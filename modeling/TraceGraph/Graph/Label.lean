import TraceGraph.Graph
import TraceGraph.Text.CharClass
import TraceGraph.Text.WordChar

/-!
# Labels of nodes

A label shows source text without braces and declaration keywords, one statement
on each line.  A declaration keyword is only removed as a word of its own with
blanks after it, which go with it.
-/

namespace TraceGraph.Label

/-- The words that open declarations. -/
def declarationWords : List String :=
  ["let", "var", "const"]

/-- What follows a word with at least one blank after it. -/
def afterWord? (word : String) (text : List Char) : Option (List Char) :=
  let rest := text.drop word.toList.length
  if word.toList.isPrefixOf text && (rest.head?.map Text.isBlank).getD false then
    some (rest.dropWhile Text.isBlank)
  else none

/-- What follows a declaration keyword and its blanks. -/
def afterDeclaration? (text : List Char) : Option (List Char) :=
  declarationWords.findSome? (afterWord? · text)

theorem afterWord?_length_lt {word : String} {text rest : List Char}
    (h : afterWord? word text = some rest) : rest.length < text.length := by
  simp only [afterWord?] at h
  split at h
  · rename_i hcond
    simp only [Option.some.injEq] at h
    cases hdrop : text.drop word.toList.length with
    | nil => simp [hdrop] at hcond
    | cons c after =>
      have hc : Text.isBlank c = true := by
        rw [Bool.and_eq_true, hdrop] at hcond
        exact hcond.2
      rw [hdrop, List.dropWhile_cons, if_pos hc] at h
      have hle : (after.dropWhile Text.isBlank).length ≤ after.length :=
        (List.dropWhile_suffix Text.isBlank).length_le
      have hlen := congrArg List.length hdrop
      simp only [List.length_drop, List.length_cons] at hlen
      rw [← h]
      omega
  · simp at h

theorem afterDeclaration?_length_lt {text rest : List Char}
    (h : afterDeclaration? text = some rest) : rest.length < text.length := by
  obtain ⟨word, _, hword⟩ := List.exists_of_findSome?_eq_some h
  exact afterWord?_length_lt hword

/-- The text without declaration keywords.  `inWord` tells whether the character
before it belongs to a word. -/
def dropDeclarations (inWord : Bool) (text : List Char) : List Char :=
  match _h : if inWord then none else afterDeclaration? text with
  | some rest => dropDeclarations false rest
  | none =>
    match text with
    | [] => []
    | c :: rest => c :: dropDeclarations (Text.isWordChar c) rest
termination_by text.length
decreasing_by
  · split at _h
    · simp at _h
    · exact afterDeclaration?_length_lt _h
  · simp

/-- The parts of a text between semicolons. -/
def splitSemicolons : List Char → List (List Char)
  | [] => [[]]
  | c :: text =>
    if c == ';' then [] :: splitSemicolons text
    else
      match splitSemicolons text with
      | [] => [[c]]
      | first :: others => (c :: first) :: others

/-- A blank in place of line feeds and braces. -/
def blankOut (c : Char) : Char :=
  if c == '\n' || c == '\x7b' || c == '\x7d' then ' ' else c

/-- Source text as a label shows it. -/
def clean (text : String) : String :=
  let parts := splitSemicolons (dropDeclarations false (text.toList.map blankOut))
  let lines := (parts.map Text.trimBlanks).filter (!·.isEmpty)
  String.intercalate "\n" (lines.map String.ofList)

/-- A label with the number of a statement node before it.  Number zero and
junctions have none. -/
def numbered (id : NodeId) (text : String) : String :=
  match id with
  | .statement (n + 1) => toString (n + 1) ++ ": " ++ text
  | .statement 0 | .junction _ => text

end TraceGraph.Label
