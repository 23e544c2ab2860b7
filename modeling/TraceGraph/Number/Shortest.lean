import TraceGraph.Number.Binary

/-!
# The fewest digits that read back

Every real number close enough to a double reads back as that double.
`Binary.readsBack` tests a decimal for it in exact arithmetic, and
`Binary.shortest` finds the decimal with the fewest digits that passes, and the
nearer one of two.  When both are equally near, the format decides by its `Tie`.

The search runs over the grids of one digit, two digits and so on.  On each grid
it tests the two neighbours of the value.
-/

namespace TraceGraph.Number

/-- The number `digits * 10 ^ exponent`. -/
structure Decimal where
  digits : Nat
  exponent : Int
deriving DecidableEq, Repr

/-- Which of two decimals stands for a double halfway between them. -/
inductive Tie where
  /-- The greater one. -/
  | up
  /-- The one with an even last digit. -/
  | even
deriving DecidableEq, Repr

/-- The decimal digits of a natural number, leading digit first. -/
def digitsOf (n : Nat) : List Char :=
  Nat.toDigits 10 n

/-- Compares `a * 10 ^ i` with `n * 2 ^ j` by cross-multiplication. -/
def compareScaled (a : Nat) (i : Int) (n : Nat) (j : Int) : Ordering :=
  compare ((a * tenPow i.toNat) <<< (-j).toNat) ((n * tenPow (-i).toNat) <<< j.toNat)

/-- The gap to the double below is half the gap to the double above. -/
def Binary.narrowBelow (b : Binary) : Bool :=
  b.mantissa == hiddenBit && leastExponent < b.exponent

/-- Whether the decimal lies among the reals that round to the double.  They
reach halfway to either neighbour, and the halfway points belong to the double
with the even mantissa. -/
def Binary.readsBack (b : Binary) (d : Decimal) : Bool :=
  let low := compareScaled d.digits d.exponent
    (if b.narrowBelow then 4 * b.mantissa - 1 else 4 * b.mantissa - 2) (b.exponent - 2)
  let high := compareScaled d.digits d.exponent (4 * b.mantissa + 2) (b.exponent - 2)
  let closed := b.mantissa % 2 == 0
  (low == .gt || closed && low == .eq) && (high == .lt || closed && high == .eq)

/-- The least `k` with `mantissa * 2 ^ exponent < 10 ^ k`, for a positive
mantissa.  From one on it is the digit count of the whole part.  Below one, the
powers of ten above the value are counted by the digits of its reciprocal. -/
def Binary.magnitude (b : Binary) : Int :=
  let whole := (b.mantissa <<< b.exponent.toNat) >>> (-b.exponent).toNat
  if whole = 0 then 1 - (digitsOf (((1 <<< (-b.exponent).toNat) - 1) / b.mantissa)).length
  else (digitsOf whole).length

/-- The multiple of `10 ^ grid` at or just below the value. -/
def Binary.below (b : Binary) (grid : Int) : Nat :=
  (b.mantissa <<< b.exponent.toNat) * tenPow (-grid).toNat
    / (tenPow grid.toNat <<< (-b.exponent).toNat)

/-- The lower or the upper one of two neighbours, when the value lies halfway
between them. -/
def Tie.choose (tie : Tie) (low high : Decimal) : Decimal :=
  match tie with
  | .up => high
  | .even => if low.digits % 2 = 0 then low else high

/-- The neighbour of the value on the grid `10 ^ grid` that reads back, and the
nearer one if both do. -/
def Binary.nearest? (b : Binary) (tie : Tie) (grid : Int) : Option Decimal :=
  let low : Decimal := ⟨b.below grid, grid⟩
  let high : Decimal := ⟨b.below grid + 1, grid⟩
  match b.readsBack low, b.readsBack high with
  | true, true =>
    -- the sum of the two neighbours against twice the value
    match compareScaled (low.digits + high.digits) grid b.mantissa (b.exponent + 1) with
    | .gt => some low
    | .eq => some (tie.choose low high)
    | .lt => some high
  | true, false => some low
  | false, true => some high
  | false, false => none

/-- All digits of the value. -/
def Binary.exact (b : Binary) : Decimal :=
  if 0 ≤ b.exponent then ⟨b.mantissa <<< b.exponent.toNat, 0⟩
  else ⟨b.mantissa * Nat.pow 5 (-b.exponent).toNat, b.exponent⟩

/-- Moves trailing zeros of the digits into the exponent. -/
def Decimal.trim (d : Decimal) : Decimal :=
  let digits := digitsOf d.digits
  let zeros := (digits.reverse.takeWhile (· == '0')).length
  ⟨d.digits / tenPow zeros, d.exponent + zeros⟩

/-- The decimal with the fewest digits that reads back as the double.
Seventeen digits always suffice. -/
def Binary.shortest (b : Binary) (tie : Tie) : Decimal :=
  if b.mantissa = 0 then ⟨0, 0⟩
  else
    let found := (List.range 17).findSome? fun i : Nat => b.nearest? tie (b.magnitude - (i + 1))
    (found.getD b.exact).trim

end TraceGraph.Number
