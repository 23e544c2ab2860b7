import TraceGraph.Json.Number

/-!
# Reading JSON

`Json.parse?` accepts exactly one value with blanks around it.  Texts must not
hold raw control characters or halves of surrogate pairs, nothing may be nested
too deeply, and no comma may stand before a closing bracket.
-/

namespace TraceGraph.Json

/-- How deeply arrays and objects may be nested. -/
def maxDepth : Nat := 127

/-- The blanks between the parts of a value. -/
def isSpace (c : Char) : Bool :=
  c == ' ' || c == '\t' || c == '\r' || c == '\n'

/-- The text without blanks at the front. -/
def skipSpace (text : List Char) : List Char :=
  text.dropWhile isSpace

theorem skipSpace_length_le (text : List Char) : (skipSpace text).length ≤ text.length :=
  (List.dropWhile_suffix isSpace).length_le

/-- What a reader takes off the front of a text. -/
abbrev ReadResult (α : Type) (bound : Nat) := Option (Parsed Char α bound)

/-! ## Texts -/

/-- The value of a hexadecimal digit in either case. -/
def hexValue? (c : Char) : Option Nat :=
  if c.isDigit then some (c.toNat - '0'.toNat)
  else if 'a' ≤ c ∧ c ≤ 'f' then some (c.toNat - 'a'.toNat + 10)
  else if 'A' ≤ c ∧ c ≤ 'F' then some (c.toNat - 'A'.toNat + 10)
  else none

/-- The number that four hexadecimal digits stand for. -/
def hexUnit? (a b c d : Char) : Option Nat := do
  return 4096 * (← hexValue? a) + 256 * (← hexValue? b) + 16 * (← hexValue? c) + (← hexValue? d)

/-- The character that a backslash and `c` stand for. -/
def unescape? (c : Char) : Option Char :=
  if c == '"' || c == '\\' || c == '/' then some c
  else if c == 'b' then some (Char.ofNat 8)
  else if c == 'f' then some (Char.ofNat 12)
  else if c == 'n' then some '\n'
  else if c == 'r' then some '\r'
  else if c == 't' then some '\t'
  else none

/-- Whether the unit is the first half of a surrogate pair. -/
def isHighSurrogate (unit : Nat) : Bool :=
  0xD800 ≤ unit && unit ≤ 0xDBFF

/-- Whether the unit is the second half of a surrogate pair. -/
def isLowSurrogate (unit : Nat) : Bool :=
  0xDC00 ≤ unit && unit ≤ 0xDFFF

/-- The character that both halves of a surrogate pair stand for. -/
def ofSurrogates (high low : Nat) : Char :=
  Char.ofNat (0x10000 + (high - 0xD800) * 0x400 + (low - 0xDC00))

/-- A character in front of what was read after it. -/
def prepend (c : Char) (read : List Char × List Char) : List Char × List Char :=
  (c :: read.1, read.2)

/-- The contents of a text, after its opening quote and up to the closing one,
and what follows it. -/
def readString? : List Char → Option (List Char × List Char)
  | '"' :: rest => some ([], rest)
  | '\\' :: 'u' :: a :: b :: c :: d :: rest =>
    match hexUnit? a b c d with
    | none => none
    | some unit =>
      if isLowSurrogate unit then none
      else if isHighSurrogate unit then
        match rest with
        | '\\' :: 'u' :: e :: f :: g :: h :: rest =>
          match hexUnit? e f g h with
          | some low =>
            if isLowSurrogate low then (readString? rest).map (prepend (ofSurrogates unit low))
            else none
          | none => none
        | _ => none
      else (readString? rest).map (prepend (Char.ofNat unit))
  | '\\' :: c :: rest =>
    match unescape? c with
    | some value => (readString? rest).map (prepend value)
    | none => none
  | c :: rest => if c.toNat < 0x20 then none else (readString? rest).map (prepend c)
  | [] => none

private theorem length_lt_of_map_prepend {c : Char} {read : Option (List Char × List Char)}
    {value rest : List Char} {bound : Nat} (h : read.map (prepend c) = some (value, rest))
    (hread : ∀ {value rest}, read = some (value, rest) → rest.length < bound) :
    rest.length < bound := by
  obtain ⟨⟨inner, after⟩, hinner, heq⟩ := Option.map_eq_some_iff.1 h
  have hafter : after = rest := congrArg Prod.snd heq
  exact hafter ▸ hread hinner

/-- Reading the contents of a text makes the text shorter. -/
theorem readString?_length_lt (text : List Char) {value rest : List Char}
    (h : readString? text = some (value, rest)) : rest.length < text.length := by
  fun_induction readString? text generalizing value rest with
  | case1 =>
    simp only [Option.some.injEq, Prod.mk.injEq] at h
    rw [← h.2, List.length_cons]
    omega
  | case4 | case8 | case9 | case12 =>
    rename_i ih
    have hlt := length_lt_of_map_prepend h ih
    simp only [List.length_cons]
    omega
  | case2 | case3 | case5 | case6 | case7 | case10 | case11 | case13 => simp at h

/-! ## Values -/

/-- The rest of a text after a fixed word. -/
def afterWord? (word : String) (text : List Char) : Option (List Char) :=
  if word.toList.isPrefixOf text then some (text.drop word.toList.length) else none

/-- A value that is neither an array nor an object. -/
def readScalar? (text : List Char) : Option (Json × List Char) :=
  match text with
  | '"' :: rest => (readString? rest).map fun (value, rest) => (.str (String.ofList value), rest)
  | '-' :: rest => readNumber? true rest
  | 'n' :: rest => (afterWord? "ull" rest).map (.null, ·)
  | 't' :: rest => (afterWord? "rue" rest).map (.bool true, ·)
  | 'f' :: rest => (afterWord? "alse" rest).map (.bool false, ·)
  | text => readNumber? false text

private theorem length_le_of_afterWord? {word : String} {value found : Json}
    {text rest : List Char} (h : (afterWord? word text).map (value, ·) = some (found, rest)) :
    rest.length ≤ text.length := by
  unfold afterWord? at h
  split at h <;> simp_all
  simp [← h.2]

/-- Reading a value makes the text shorter. -/
theorem readScalar?_length_lt {text rest : List Char} {value : Json}
    (h : readScalar? text = some (value, rest)) : rest.length < text.length := by
  unfold readScalar? at h
  split at h
  · obtain ⟨⟨_, after⟩, hread, heq⟩ := Option.map_eq_some_iff.1 h
    have hlt := readString?_length_lt _ hread
    simp only [Prod.mk.injEq] at heq
    rw [← heq.2, List.length_cons]
    omega
  · exact Nat.lt_succ_of_lt (readNumber?_length_lt h)
  · exact Nat.lt_succ_of_le (length_le_of_afterWord? h)
  · exact Nat.lt_succ_of_le (length_le_of_afterWord? h)
  · exact Nat.lt_succ_of_le (length_le_of_afterWord? h)
  · exact readNumber?_length_lt h

/-- Takes the given character after blanks. -/
def expectChar? (want : Char) (text : List Char) : ReadResult Unit text.length :=
  match h : skipSpace text with
  | c :: rest =>
    if c = want then
      some ⟨(), rest, by have := skipSpace_length_le text; rw [h, List.length_cons] at this; omega⟩
    else none
  | [] => none

/-- The name of a field with the colon after it. -/
def readName? (text : List Char) : ReadResult String text.length := do
  let quote ← expectChar? '"' text
  match h : readString? quote.rest with
  | none => none
  | some (name, rest) =>
    let colon ← expectChar? ':' rest
    return ⟨String.ofList name, colon.rest, by
      have := quote.shorter
      have := readString?_length_lt _ h
      have := colon.shorter
      omega⟩

mutual

/-- A value after blanks.  `depth` is how much deeper it may be nested. -/
def readValue? (depth : Nat) (text : List Char) : ReadResult Json text.length :=
  have hskip := skipSpace_length_le text
  match h : skipSpace text with
  | '[' :: rest =>
    have hrest : rest.length < text.length := by
      rw [h, List.length_cons] at hskip; omega
    match depth with
    | 0 => none
    | depth + 1 =>
      match expectChar? ']' rest with
      | some close => some ⟨.array [], close.rest, by have := close.shorter; omega⟩
      | none => (readItems? depth rest).map fun p => (p.map .array).weaken (by omega)
  | '\x7b' :: rest =>
    have hrest : rest.length < text.length := by
      rw [h, List.length_cons] at hskip; omega
    match depth with
    | 0 => none
    | depth + 1 =>
      match expectChar? '\x7d' rest with
      | some close => some ⟨.object [], close.rest, by have := close.shorter; omega⟩
      | none => (readFields? depth rest).map fun p => (p.map .object).weaken (by omega)
  | other =>
    match hs : readScalar? other with
    | some (value, rest) =>
      some ⟨value, rest, by have := readScalar?_length_lt hs; rw [h] at hskip; omega⟩
    | none => none
termination_by (text.length, 0)

/-- Items between commas, at least one, with the closing bracket. -/
def readItems? (depth : Nat) (text : List Char) : ReadResult (List Json) text.length := do
  let item ← readValue? depth text
  have hitem := item.shorter
  match expectChar? ',' item.rest with
  | some comma =>
    have hcomma := comma.shorter
    let others ← readItems? depth comma.rest
    return ⟨item.value :: others.value, others.rest, by have := others.shorter; omega⟩
  | none =>
    let close ← expectChar? ']' item.rest
    return ⟨[item.value], close.rest, by have := close.shorter; omega⟩
termination_by (text.length, 1)

/-- Fields between commas, at least one, with the closing brace. -/
def readFields? (depth : Nat) (text : List Char) :
    ReadResult (List (String × Json)) text.length := do
  let name ← readName? text
  have hname := name.shorter
  let value ← readValue? depth name.rest
  have hvalue := value.shorter
  match expectChar? ',' value.rest with
  | some comma =>
    have hcomma := comma.shorter
    let others ← readFields? depth comma.rest
    return ⟨(name.value, value.value) :: others.value, others.rest,
      by have := others.shorter; omega⟩
  | none =>
    let close ← expectChar? '\x7d' value.rest
    return ⟨[(name.value, value.value)], close.rest, by have := close.shorter; omega⟩
termination_by (text.length, 1)

end

/-- The value that a whole text is. -/
def parse? (text : String) : Option Json := do
  let value ← readValue? maxDepth text.toList
  if (skipSpace value.rest).isEmpty then some value.value else none

end TraceGraph.Json
