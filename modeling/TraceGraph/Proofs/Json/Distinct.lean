import TraceGraph.Json.Reader
import TraceGraph.Json.Writer
import TraceGraph.Proofs.Token.Lexing

/-!
# Different JSON values have different texts

A text with a line for each item can be taken apart again.  Every value can be told from
its first character what kind of value it is, and where it ends can be told without
knowing what comes after it, only that this is neither a digit nor a sign.

* `Json.readString?_quoted`: the reader gives back what stands between quotes.
* `Json.bracketed_append_inj`: brackets with members on lines of their own determine
  the members, if the text of each member determines it.
* `Json.Exact.parted`: the text of a value without doubles determines the value,
  whatever comes after it.
-/

namespace TraceGraph.Json

/-- Values without doubles.  A double can share its text with another value, since
infinity and NaN are written as `null`. -/
inductive Exact : Json → Prop
  | null : Exact .null
  | bool (value : Bool) : Exact (.bool value)
  | int (value : Int) : Exact (.int value)
  | str (value : String) : Exact (.str value)
  | array {items : List Json} (h : ∀ item ∈ items, Exact item) : Exact (.array items)
  | object {fields : List (String × Json)} (h : ∀ field ∈ fields, Exact field.2) :
      Exact (.object fields)

/-! ## Texts between quotes -/

private theorem hexValue?_hexDigit : ∀ n < 16, hexValue? (hexDigit n) = some n := by
  decide

private theorem hexUnit?_hexDigit {n : Nat} (h : n < 0x20) :
    hexUnit? '0' '0' (hexDigit (n / 16)) (hexDigit (n % 16)) = some n := by
  have hzero : hexValue? '0' = some 0 := by decide
  rw [hexUnit?, hzero, hexValue?_hexDigit _ (by omega), hexValue?_hexDigit _ (by omega)]
  show some (4096 * 0 + 256 * 0 + 16 * (n / 16) + n % 16) = some n
  congr 1
  omega

private theorem readString?_escape {c value : Char} (hc : c ≠ 'u') (h : unescape? c = some value)
    (rest : List Char) :
    readString? ('\\' :: c :: rest) = (readString? rest).map (prepend value) := by
  rw [readString?, h]
  rintro _ _ _ _ _ rfl
  exact absurd rfl hc

private theorem readString?_unit {c : Char} (h : c.toNat < 0x20) (rest : List Char) :
    readString? (['\\', 'u', '0', '0', hexDigit (c.toNat / 16), hexDigit (c.toNat % 16)] ++ rest)
      = (readString? rest).map (prepend c) := by
  have hlow : isLowSurrogate c.toNat = false := by
    simp [isLowSurrogate]
    omega
  have hhigh : isHighSurrogate c.toNat = false := by
    simp [isHighSurrogate]
    omega
  show readString? ('\\' :: 'u' :: '0' :: '0' :: _ :: _ :: rest) = _
  rw [readString?, hexUnit?_hexDigit h]
  simp [hlow, hhigh]

private theorem readString?_raw {c : Char} (hquote : c ≠ '"') (hbackslash : c ≠ '\\')
    (h : ¬ c.toNat < 0x20) (rest : List Char) :
    readString? (c :: rest) = (readString? rest).map (prepend c) := by
  rw [readString?.eq_def]
  split <;> simp_all

/-- One character between quotes is read as that character. -/
theorem readString?_quotedChar (c : Char) (rest : List Char) :
    readString? (quotedChar c ++ rest) = (readString? rest).map (prepend c) := by
  have hcode : ∀ n : Nat, (c.toNat == n) = true → c = Char.ofNat n := by
    intro n hn
    rw [← eq_of_beq hn, Char.ofNat_toNat]
  unfold quotedChar
  split_ifs with hquote hbackslash hb ht hn hf hr hcontrol
  · rw [eq_of_beq hquote]
    exact readString?_escape (by decide) rfl rest
  · rw [eq_of_beq hbackslash]
    exact readString?_escape (by decide) rfl rest
  · rw [hcode 8 hb]
    exact readString?_escape (by decide) rfl rest
  · rw [eq_of_beq ht]
    exact readString?_escape (by decide) rfl rest
  · rw [eq_of_beq hn]
    exact readString?_escape (by decide) rfl rest
  · rw [hcode 12 hf]
    exact readString?_escape (by decide) rfl rest
  · rw [eq_of_beq hr]
    exact readString?_escape (by decide) rfl rest
  · exact readString?_unit hcontrol rest
  · exact readString?_raw (by simpa using hquote) (by simpa using hbackslash) hcontrol rest

/-- What is written between quotes is read back, up to the closing quote. -/
theorem readString?_quoted (text rest : List Char) :
    readString? (text.flatMap quotedChar ++ '"' :: rest) = some (text, rest) := by
  induction text with
  | nil => rfl
  | cons c text ih =>
    rw [List.flatMap_cons, List.append_assoc, readString?_quotedChar, ih]
    rfl

theorem quoted_append_inj {s t : String} {r r' : List Char}
    (h : (quoted s).toList ++ r = (quoted t).toList ++ r') : s = t ∧ r = r' := by
  have hread : ∀ (s : String) (r : List Char),
      (quoted s).toList ++ r = '"' :: (s.toList.flatMap quotedChar ++ '"' :: r) := by
    intro s r
    simp [quoted]
  rw [hread, hread] at h
  have hsame := congrArg readString? (List.cons.inj h).2
  rw [readString?_quoted, readString?_quoted] at hsame
  obtain ⟨htext, hrest⟩ := Prod.mk.inj (Option.some.inj hsame)
  exact ⟨String.toList_inj.1 htext, hrest⟩

/-! ## Whole numbers -/

/-- The characters of whole numbers. -/
def isIntPart (c : Char) : Bool :=
  c.isDigit || c == '-'

private theorem isIntPart_of_mem {n : Int} {c : Char} (h : c ∈ (toString n).toList) :
    isIntPart c = true := by
  have hdigits : ∀ m : Nat, c ∈ m.repr.toList → isIntPart c = true := by
    intro m hm
    rw [Nat.toList_repr] at hm
    simp [isIntPart, Nat.isDigit_of_mem_toDigits (by decide) (by decide) hm]
  rw [Int.toString_eq_repr, Int.repr_eq_if] at h
  split at h
  · exact hdigits _ h
  · rw [String.toList_append, List.mem_append] at h
    rcases h with hsign | hdigit
    · rw [show c = '-' by simpa using hsign]
      rfl
    · exact hdigits _ hdigit

private theorem toString_append_inj {m n : Int} {r r' : List Char}
    (hr : Begins (isIntPart · = false) r) (hr' : Begins (isIntPart · = false) r')
    (h : (toString m).toList ++ r = (toString n).toList ++ r') : m = n ∧ r = r' := by
  have htext := congrArg (List.takeWhile isIntPart) h
  have hrest := congrArg (List.dropWhile isIntPart) h
  rw [takeWhile_append (fun _ => isIntPart_of_mem) hr,
    takeWhile_append (fun _ => isIntPart_of_mem) hr'] at htext
  rw [dropWhile_append (fun _ => isIntPart_of_mem) hr,
    dropWhile_append (fun _ => isIntPart_of_mem) hr'] at hrest
  rw [Int.toString_eq_repr, Int.toString_eq_repr, String.toList_inj] at htext
  exact ⟨Int.repr_injective htext, hrest⟩

/-! ## Members on lines of their own -/

/-- The members after the first one, and the closing bracket. -/
def remainder (closing : String) (depth : Nat) : List String → List Char
  | [] => (newLine depth ++ closing).toList
  | text :: texts =>
    ',' :: ((newLine (depth + 1)).toList ++ (text.toList ++ remainder closing depth texts))

private theorem toList_intercalate_newLine (closing : String) (depth : Nat) (text : String)
    (texts : List String) :
    (String.intercalate ("," ++ newLine (depth + 1)) (text :: texts)).toList
        ++ (newLine depth ++ closing).toList
      = text.toList ++ remainder closing depth texts := by
  induction texts generalizing text with
  | nil => simp [remainder]
  | cons next texts ih =>
    rw [String.intercalate_cons_cons, String.toList_append, List.append_assoc, ih, remainder]
    simp

private theorem toList_bracketed_cons (opening closing : String) (depth : Nat) (text : String)
    (texts : List String) :
    (bracketed opening closing depth (text :: texts)).toList
      = opening.toList ++ ((newLine (depth + 1)).toList
          ++ (text.toList ++ remainder closing depth texts)) := by
  rw [← toList_intercalate_newLine]
  simp [bracketed]

private theorem begins_remainder (closing : String) (depth : Nat) (texts : List String)
    (rest : List Char) :
    Begins (isIntPart · = false) (remainder closing depth texts ++ rest) := by
  cases texts with
  | nil => simp [remainder, newLine, isIntPart, begins_cons]
  | cons text texts => simp [remainder, isIntPart, begins_cons]

/-- The texts of two things, each with something after it that does not go on with a
number, are equal only if the things are the same, and what comes after them too. -/
def Parted {α : Type} (f : α → String) (x y : α) : Prop :=
  ∀ {r r' : List Char}, Begins (isIntPart · = false) r → Begins (isIntPart · = false) r' →
    (f x).toList ++ r = (f y).toList ++ r' → x = y ∧ r = r'

section

variable {α : Type} {f : α → String} {closing : String} {depth : Nat} {r r' : List Char}
  {xs ys : List α} (hitem : ∀ x ∈ xs, ∀ y ∈ ys, Parted f x y)
include hitem

private theorem remainder_append_inj
    (h : remainder closing depth (xs.map f) ++ r = remainder closing depth (ys.map f) ++ r') :
    xs = ys ∧ r = r' := by
  induction xs generalizing ys with
  | nil =>
    cases ys with
    | nil => exact ⟨rfl, List.append_cancel_left h⟩
    | cons y ys => simp [remainder, newLine] at h
  | cons x xs ih =>
    cases ys with
    | nil => simp [remainder, newLine] at h
    | cons y ys =>
      simp only [List.map_cons, remainder, List.cons_append, List.append_assoc] at h
      have htail := List.append_cancel_left (List.cons.inj h).2
      obtain ⟨rfl, hrest⟩ := hitem x List.mem_cons_self y List.mem_cons_self
        (begins_remainder _ _ _ _) (begins_remainder _ _ _ _) htail
      obtain ⟨rfl, hr⟩ := ih (fun a ha b hb => hitem a (List.mem_cons_of_mem _ ha) b
        (List.mem_cons_of_mem _ hb)) hrest
      exact ⟨rfl, hr⟩

/-- Brackets around members determine the members, if the text of each of them does,
whatever comes after it. -/
theorem bracketed_append_inj {opening : String} {last : Char} (hclosing : closing.toList = [last])
    (hlast : last ≠ '\n')
    (h : (bracketed opening closing depth (xs.map f)).toList ++ r
      = (bracketed opening closing depth (ys.map f)).toList ++ r') :
    xs = ys ∧ r = r' := by
  -- Brackets without members close at once, all others go on with a new line.
  have hempty : (bracketed opening closing depth []).toList = opening.toList ++ [last] := by
    simp [bracketed, hclosing]
  have hline : ∀ rest : List Char, (newLine (depth + 1)).toList ++ rest
      = '\n' :: (List.replicate (2 * (depth + 1)) ' ' ++ rest) := by
    intro rest
    simp [newLine]
  cases xs with
  | nil =>
    cases ys with
    | nil => exact ⟨rfl, List.append_cancel_left h⟩
    | cons y ys =>
      simp only [List.map_nil, List.map_cons, hempty, toList_bracketed_cons, List.append_assoc,
        hline] at h
      exact absurd (List.cons.inj (List.append_cancel_left h)).1 hlast
  | cons x xs =>
    cases ys with
    | nil =>
      simp only [List.map_nil, List.map_cons, hempty, toList_bracketed_cons, List.append_assoc,
        hline] at h
      exact absurd (List.cons.inj (List.append_cancel_left h)).1.symm hlast
    | cons y ys =>
      simp only [List.map_cons, toList_bracketed_cons, List.append_assoc] at h
      have hrest : remainder closing depth ((x :: xs).map f) ++ r
          = remainder closing depth ((y :: ys).map f) ++ r' := by
        simp only [List.map_cons, remainder, List.cons_append, List.append_assoc]
        exact congrArg (',' :: ·) (List.append_cancel_left h)
      exact remainder_append_inj hitem hrest

end

/-! ## Values -/

private theorem prettyItems_eq (items : List Json) (depth : Nat) :
    prettyItems items depth = items.map (prettyAt · depth) := by
  induction items with
  | nil => rfl
  | cons item rest ih => rw [prettyItems, ih, List.map_cons]

/-- The text of a field at a level. -/
def prettyField (depth : Nat) (field : String × Json) : String :=
  quoted field.1 ++ ": " ++ prettyAt field.2 depth

private theorem prettyFields_eq (fields : List (String × Json)) (depth : Nat) :
    prettyFields fields depth = fields.map (prettyField depth) := by
  induction fields with
  | nil => rfl
  | cons field rest ih =>
    obtain ⟨name, value⟩ := field
    rw [prettyFields, ih, List.map_cons]
    rfl

/-- The kinds of values that can be told apart by their first characters. -/
inductive Kind where
  | null
  | bool
  | number
  | str
  | array
  | object

/-- The kind of a value. -/
def kind : Json → Kind
  | .null => .null
  | .bool _ => .bool
  | .int _ | .double _ => .number
  | .str _ => .str
  | .array _ => .array
  | .object _ => .object

/-- The kind of the values that start with a character. -/
def Kind.ofFirst (c : Char) : Kind :=
  if isIntPart c then .number
  else if c = '"' then .str
  else if c = '[' then .array
  else if c = '\x7b' then .object
  else if c = 'n' then .null
  else .bool

private theorem toList_bracketed (opening closing : String) (depth : Nat) (texts : List String) :
    ∃ rest, (bracketed opening closing depth texts).toList = opening.toList ++ rest := by
  cases texts with
  | nil => exact ⟨closing.toList, by simp [bracketed]⟩
  | cons text texts => exact ⟨_, toList_bracketed_cons _ _ _ _ _⟩

private theorem toList_toString_ne_nil (n : Int) : (toString n).toList ≠ [] := by
  rw [Int.toString_eq_repr, Int.repr_eq_if]
  split
  · rw [Nat.toList_repr]
    exact Nat.toDigits_ne_nil
  · simp

/-- The first character of a value tells its kind. -/
theorem Exact.kind_eq {v : Json} (hv : v.Exact) (depth : Nat) :
    ∃ c rest, (prettyAt v depth).toList = c :: rest ∧ Kind.ofFirst c = v.kind := by
  cases hv with
  | null => exact ⟨'n', ['u', 'l', 'l'], by simp [prettyAt, scalar], rfl⟩
  | bool value =>
    cases value with
    | true => exact ⟨'t', ['r', 'u', 'e'], by simp [prettyAt, scalar], rfl⟩
    | false => exact ⟨'f', ['a', 'l', 's', 'e'], by simp [prettyAt, scalar], rfl⟩
  | int n =>
    obtain ⟨c, rest, htext⟩ := List.exists_cons_of_ne_nil (toList_toString_ne_nil n)
    have hc : isIntPart c = true := by
      apply isIntPart_of_mem (n := n)
      rw [htext]
      exact List.mem_cons_self
    exact ⟨c, rest, htext, if_pos hc⟩
  | str s => exact ⟨'"', _, String.toList_ofList, rfl⟩
  | array h =>
    obtain ⟨rest, hrest⟩ := toList_bracketed "[" "]" depth (prettyItems _ (depth + 1))
    exact ⟨'[', rest, hrest, rfl⟩
  | object h =>
    obtain ⟨rest, hrest⟩ := toList_bracketed "\x7b" "\x7d" depth (prettyFields _ (depth + 1))
    exact ⟨'\x7b', rest, hrest, rfl⟩

private theorem Exact.kind_eq_kind {v w : Json} (hv : v.Exact) (hw : w.Exact) {depth : Nat}
    {r r' : List Char} (h : (prettyAt v depth).toList ++ r = (prettyAt w depth).toList ++ r') :
    v.kind = w.kind := by
  obtain ⟨c, rest, htext, hkind⟩ := hv.kind_eq depth
  obtain ⟨c', rest', htext', hkind'⟩ := hw.kind_eq depth
  rw [htext, htext'] at h
  rw [← hkind, ← hkind', (List.cons.inj h).1]

private theorem parted_prettyField {depth : Nat} {x y : String × Json}
    (h : Parted (prettyAt · depth) x.2 y.2) : Parted (prettyField depth) x y := by
  intro r r' hr hr' heq
  simp only [prettyField, String.toList_append, List.append_assoc] at heq
  obtain ⟨hname, hrest⟩ := quoted_append_inj heq
  obtain ⟨hvalue, hrest⟩ := h hr hr' (List.append_cancel_left hrest)
  exact ⟨Prod.ext hname hvalue, hrest⟩

/-- The text of a value without doubles determines the value, whatever comes after it. -/
theorem Exact.parted {v w : Json} (hv : v.Exact) (hw : w.Exact) (depth : Nat) :
    Parted (prettyAt · depth) v w := by
  induction hv generalizing w depth with
  | null =>
    intro r r' hr hr' h
    have hkind := Exact.kind_eq_kind .null hw h
    cases hw with
    | null => exact ⟨rfl, List.append_cancel_left h⟩
    | _ => cases hkind
  | bool value =>
    intro r r' hr hr' h
    have hkind := Exact.kind_eq_kind (.bool value) hw h
    cases hw with
    | bool value' =>
      cases value <;> cases value' <;> simp_all [prettyAt, scalar]
    | _ => cases hkind
  | int n =>
    intro r r' hr hr' h
    have hkind := Exact.kind_eq_kind (.int n) hw h
    cases hw with
    | int n' =>
      obtain ⟨rfl, hrest⟩ := toString_append_inj hr hr' h
      exact ⟨rfl, hrest⟩
    | _ => cases hkind
  | str s =>
    intro r r' hr hr' h
    have hkind := Exact.kind_eq_kind (.str s) hw h
    cases hw with
    | str s' =>
      obtain ⟨rfl, hrest⟩ := quoted_append_inj h
      exact ⟨rfl, hrest⟩
    | _ => cases hkind
  | @array items hitems ih =>
    intro r r' hr hr' h
    have hkind := Exact.kind_eq_kind (.array hitems) hw h
    cases hw with
    | @array items' hitems' =>
      simp only [prettyAt, prettyItems_eq] at h
      obtain ⟨rfl, hrest⟩ := bracketed_append_inj
        (fun x hx y hy => ih x hx (hitems' y hy) (depth + 1)) (by rfl) (by decide) h
      exact ⟨rfl, hrest⟩
    | _ => cases hkind
  | @object fields hfields ih =>
    intro r r' hr hr' h
    have hkind := Exact.kind_eq_kind (.object hfields) hw h
    cases hw with
    | @object fields' hfields' =>
      simp only [prettyAt, prettyFields_eq] at h
      obtain ⟨rfl, hrest⟩ := bracketed_append_inj
        (fun x hx y hy => parted_prettyField (ih x hx (hfields' y hy) (depth + 1))) (by rfl)
        (by decide) h
      exact ⟨rfl, hrest⟩
    | _ => cases hkind

/-- Values without doubles that have the same text are the same. -/
theorem Exact.pretty_inj {v w : Json} (hv : v.Exact) (hw : w.Exact) (h : v.pretty = w.pretty) :
    v = w := by
  have hnil : Begins (isIntPart · = false) [] := by simp [Begins]
  exact (hv.parted hw 0 hnil hnil (congrArg (·.toList ++ []) h)).1

end TraceGraph.Json
