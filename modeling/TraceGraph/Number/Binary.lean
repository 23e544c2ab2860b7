import TraceGraph.Number.Rounding

/-!
# Doubles as scaled natural numbers

A finite double has the magnitude `mantissa * 2 ^ exponent`.  `Binary.ofFloat`
reads that pair off the 64 bits and `Binary.toFloat` puts it back, so exact
arithmetic on doubles is arithmetic on natural numbers.  The one operation
built on it here is `remainder`, which needs no rounding at all.
-/

namespace TraceGraph.Number

/-- The magnitude `mantissa * 2 ^ exponent` of a finite double. -/
structure Binary where
  mantissa : Nat
  exponent : Int
deriving DecidableEq, Repr

/-- The least exponent of a double.  A mantissa without the hidden bit occurs
only here. -/
def leastExponent : Int := -unitBits

/-- Whether the sign bit is set.  It is also set in negative zero. -/
def signBit (x : Float) : Bool :=
  x.toBits.toNat.testBit 63

/-- The magnitude of a finite double. -/
def Binary.ofFloat (x : Float) : Binary :=
  let bits := x.toBits.toNat
  let fraction : Nat := bits % hiddenBit
  let biased : Nat := bits / hiddenBit % 0x800
  if biased = 0 then ⟨fraction, leastExponent⟩
  else ⟨hiddenBit + fraction, leastExponent + (biased : Int) - 1⟩

/-- The double with the given magnitude, or the nearest one if there is none. -/
def Binary.toFloat (b : Binary) : Float :=
  nearest (b.mantissa <<< b.exponent.toNat) (1 <<< (-b.exponent).toNat)

/-- The double that stands for no number. -/
def nan : Float := 0.0 / 0.0

/-- Positive infinity. -/
def infinity : Float := 1.0 / 0.0

/-- The power of ten with the given exponent. -/
def tenPow (n : Nat) : Nat :=
  Nat.pow 10 n

/-- What is left of `x` after taking away as many whole `y` as fit, with the
sign of `x`.  It is exact: both magnitudes are put on the finer of the two
scales, where the remainder of the mantissas is again a mantissa. -/
def remainder (x y : Float) : Float :=
  if x.isNaN || y.isNaN || x.isInf || y == 0.0 then nan
  else if y.isInf then x
  else
    let a := Binary.ofFloat x
    let b := Binary.ofFloat y
    let scale := min a.exponent b.exponent
    let rest := (a.mantissa <<< (a.exponent - scale).toNat)
      % (b.mantissa <<< (b.exponent - scale).toNat)
    let magnitude := Binary.toFloat ⟨rest, scale⟩
    if signBit x then -magnitude else magnitude

end TraceGraph.Number
