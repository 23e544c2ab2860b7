/-!
# Rounding to doubles

`nearest` gives the double nearest to a fraction of natural numbers, and the one
with the even mantissa of two that are equally near.  The fraction is counted in
units of the least positive double.  What is left to decide is how many of the
leading bits of that count fit into a mantissa.

* `roundDiv` rounds a quotient to a whole number.
* `nearest` rounds a fraction to a double.
-/

namespace TraceGraph.Number

/-- The quotient, rounded to the nearest whole number.  A half goes to the even
one. -/
def roundDiv (n d : Nat) : Nat :=
  if 2 * (n % d) < d ∨ 2 * (n % d) = d ∧ n / d % 2 = 0 then n / d else n / d + 1

/-- The number of stored bits of a mantissa. -/
def fractionBits : Nat := 52

/-- The bit of a mantissa that is not stored, `2 ^ 52`. -/
def hiddenBit : Nat := 0x10000000000000

/-- The least positive double is `2 ^ (-unitBits)`. -/
def unitBits : Nat := 1074

/-- The bits of infinity.  All greater doubles without a sign are NaNs. -/
def infinityBits : Nat := 0x7FF0000000000000

/-- How many bits of `num / den`, counted in units of the least positive double,
lie below the last bit of its mantissa. -/
def droppedBits (num den : Nat) : Nat :=
  ((num <<< unitBits) / den).log2 - fractionBits

/-- The bits of the double nearest to `num / den`.  The exponent and the mantissa
are added, because a mantissa that is rounded up to the next power of two carries
into the exponent, and one without the hidden bit has exponent zero. -/
def nearestBits (num den : Nat) : Nat :=
  let dropped := droppedBits num den
  min (dropped * hiddenBit + roundDiv (num <<< unitBits) (den <<< dropped)) infinityBits

/-- The double nearest to `num / den`.  What is beyond the range of doubles
becomes infinity. -/
def nearest (num den : Nat) : Float :=
  Float.ofBits (nearestBits num den).toUInt64

end TraceGraph.Number
