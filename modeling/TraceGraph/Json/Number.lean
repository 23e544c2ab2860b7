import TraceGraph.Json
import TraceGraph.Number.Reading
import TraceGraph.Parsed

/-!
# Reading JSON numbers

The digits of a number are collected into a significand of 64 bits.  Digits that
do not fit any more only count for the order of magnitude, and those after the
point not even for that.  The double is then the significand, multiplied or
divided by one power of ten.  This is fast and sometimes off by a unit in the
last place.
-/

namespace TraceGraph.Json

/-- The greatest significand. -/
def maxSignificand : Nat := 0xFFFFFFFFFFFFFFFF

/-- The magnitude of the least whole number. -/
def maxNegative : Nat := 0x8000000000000000

/-- A significand and the power of ten that it is to be multiplied with. -/
structure Scaled where
  significand : Nat
  exponent : Int
deriving DecidableEq, Repr

/-- The value of a decimal digit. -/
def digitValue (c : Char) : Nat :=
  c.toNat - '0'.toNat

/-- Appends digits before the point.  From the first one on that does not fit,
they are only counted. -/
def Scaled.pushWhole (s : Scaled) : List Char → Scaled
  | [] => s
  | c :: rest =>
    let next := 10 * s.significand + digitValue c
    if next ≤ maxSignificand then Scaled.pushWhole ⟨next, s.exponent⟩ rest
    else ⟨s.significand, s.exponent + (rest.length + 1)⟩

/-- Appends digits after the point, up to the first one that does not fit. -/
def Scaled.pushFraction (s : Scaled) : List Char → Scaled
  | [] => s
  | c :: rest =>
    let next := 10 * s.significand + digitValue c
    if next ≤ maxSignificand then Scaled.pushFraction ⟨next, s.exponent - 1⟩ rest else s

/-- A power of ten that is a double. -/
def powerOfTen (n : Nat) : Float :=
  Number.nearest (Number.tenPow n) 1

/-- Divides by `10 ^ n`, in steps of the greatest power of ten that is a
double. -/
def divideByPower (x : Float) (n : Nat) : Float :=
  if n ≤ 308 then x / powerOfTen n
  else if x == 0.0 then x
  else divideByPower (x / powerOfTen 308) (n - 308)
termination_by n

/-- The double that a scaled significand stands for.  There is none beyond the
range of doubles. -/
def Scaled.toFloat? (s : Scaled) : Option Float :=
  let x := s.significand.toUInt64.toFloat
  if s.exponent < 0 then some (divideByPower x s.exponent.natAbs)
  else if s.exponent ≤ 308 then
    let y := x * powerOfTen s.exponent.toNat
    if y.isInf then none else some y
  else if x == 0.0 then some x
  else none

/-- A number without a fraction and an exponent.  It is a whole number if it
fits into 64 bits.  Negative zero is a double. -/
def wholeNumber? (negative : Bool) (s : Scaled) : Option Json :=
  if s.exponent = 0 && !negative then some (.int s.significand)
  else if s.exponent = 0 && 0 < s.significand && s.significand ≤ maxNegative then
    some (.int (-s.significand))
  else s.toFloat?.map fun x => .double (if negative then -x else x)

/-- A number with a fraction or an exponent. -/
def doubleNumber? (negative : Bool) (s : Scaled) : Option Json :=
  s.toFloat?.map fun x => .double (if negative then -x else x)

/-- Splits the digits off the front of a text. -/
def splitDigits (text : List Char) : List Char × List Char :=
  (text.takeWhile Char.isDigit, text.dropWhile Char.isDigit)

/-- The exponent at the front of a text, with its value, and what follows it.
It is missing if no mark is there, and broken if the mark has no digits. -/
def readExponent? : List Char → Option (Option Int × List Char)
  | mark :: text =>
    if mark == 'e' || mark == 'E' then
      let (negative, text) := match text with
        | '+' :: rest => (false, rest)
        | '-' :: rest => (true, rest)
        | _ => (false, text)
      let (digits, rest) := splitDigits text
      if digits.isEmpty then none
      else
        let value : Int := Number.ofDigits digits
        some (some (if negative then -value else value), rest)
    else some (none, mark :: text)
  | [] => some (none, [])

/-- The digits before the point, and what follows them.  Only a lone zero may
start with zero. -/
def readWhole? (text : List Char) : Option (List Char × List Char) :=
  let (digits, rest) := splitDigits text
  match digits with
  | [] => none
  | '0' :: _ :: _ => none
  | _ => some (digits, rest)

/-- The digits after the point, if there is one, and what follows them. -/
def readFraction? : List Char → Option (Option (List Char) × List Char)
  | '.' :: text =>
    let (digits, rest) := splitDigits text
    if digits.isEmpty then none else some (some digits, rest)
  | text => some (none, text)

/-- The number with the given parts. -/
def numberValue? (negative : Bool) (whole : List Char) (places : Option (List Char))
    (exponent : Option Int) : Option Json :=
  let scaled := Scaled.pushWhole ⟨0, 0⟩ whole
  match places, exponent with
  | none, none => wholeNumber? negative scaled
  | _, _ =>
    let scaled := scaled.pushFraction (places.getD [])
    doubleNumber? negative ⟨scaled.significand, scaled.exponent + exponent.getD 0⟩

/-- The number at the front of a text after its sign, and what follows it. -/
def readNumber? (negative : Bool) (text : List Char) : Option (Json × List Char) := do
  let (whole, text) ← readWhole? text
  let (places, text) ← readFraction? text
  let (exponent, rest) ← readExponent? text
  let value ← numberValue? negative whole places exponent
  return (value, rest)

/-! ## A number takes at least one digit -/

theorem splitDigits_length_le (text : List Char) :
    (splitDigits text).2.length ≤ text.length :=
  (List.dropWhile_suffix Char.isDigit).length_le

theorem splitDigits_length_add (text : List Char) :
    (splitDigits text).1.length + (splitDigits text).2.length = text.length := by
  rw [splitDigits, ← List.length_append, List.takeWhile_append_dropWhile]

theorem readWhole?_length_lt {text digits rest : List Char}
    (h : readWhole? text = some (digits, rest)) : rest.length < text.length := by
  have hadd := splitDigits_length_add text
  simp only [readWhole?] at h
  split at h
  · simp at h
  · simp at h
  · rename_i hne _
    have hpos := List.length_pos_iff.2 hne
    simp only [Option.some.injEq, Prod.mk.injEq] at h
    rw [← h.2]
    omega

theorem readFraction?_length_le {text rest : List Char} {places : Option (List Char)}
    (h : readFraction? text = some (places, rest)) : rest.length ≤ text.length := by
  unfold readFraction? at h
  split at h
  · have := splitDigits_length_le
    grind
  · grind

theorem readExponent?_length_le {text rest : List Char} {exponent : Option Int}
    (h : readExponent? text = some (exponent, rest)) : rest.length ≤ text.length := by
  have := splitDigits_length_le
  unfold readExponent? at h
  grind

/-- Reading a number makes the text shorter. -/
theorem readNumber?_length_lt {negative : Bool} {text rest : List Char} {value : Json}
    (h : readNumber? negative text = some (value, rest)) : rest.length < text.length := by
  simp only [readNumber?, Option.bind_eq_bind, Option.bind_eq_some_iff, Prod.exists] at h
  obtain ⟨_, _, hw, _, _, hf, _, _, he, _, _, hrest⟩ := h
  have h1 := readWhole?_length_lt hw
  have h2 := readFraction?_length_le hf
  have h3 := readExponent?_length_le he
  simp only [Option.pure_def, Option.some.injEq, Prod.mk.injEq] at hrest
  rw [← hrest.2]
  omega

end TraceGraph.Json
