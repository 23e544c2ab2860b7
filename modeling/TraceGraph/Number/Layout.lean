import TraceGraph.Number.Shortest

/-!
# How the digits are laid out

A `Layout` holds the decisions that a text format takes: which digits stand for
a double halfway between two candidates, where positional notation ends, whether
a whole number keeps `.0`, whether a positive exponent has a sign, and the words
for the values that have no digits.  Each format of this library is one `Layout`.
-/

namespace TraceGraph.Number

/-- The choices of one number format. -/
structure Layout where
  /-- Which digits stand for a double halfway between two candidates. -/
  tie : Tie
  /-- Whether a number whose leading digit stands for `10 ^ e` is written
  without an exponent. -/
  positional : Int → Bool
  /-- Whether a whole number in positional notation ends in `.0`. -/
  pointZero : Bool
  /-- Whether a positive exponent is written with `+`. -/
  plusExponent : Bool
  /-- The text for infinity. -/
  infinity : String
  /-- The text for the double that stands for no number. -/
  nan : String

/-- The digits without an exponent, with zeros where there are none. -/
def Layout.plain (layout : Layout) (digits : List Char) (exponent : Int) : String :=
  let tail := if layout.pointZero then ".0" else ""
  if 0 ≤ exponent then
    String.ofList (digits ++ List.replicate exponent.toNat '0') ++ tail
  else
    let places := (-exponent).toNat
    if places < digits.length then
      let whole := digits.length - places
      String.ofList (digits.take whole ++ '.' :: digits.drop whole)
    else
      String.ofList ('0' :: '.' :: (List.replicate (places - digits.length) '0' ++ digits))

/-- The digits with a point after the first one, and an exponent. -/
def Layout.scientific (layout : Layout) (digits : List Char) (lead : Int) : String :=
  let point := if digits.length ≤ 1 then [] else ['.']
  let sign := if lead < 0 then "-" else if layout.plusExponent then "+" else ""
  String.ofList (digits.take 1 ++ point ++ digits.drop 1) ++ "e" ++ sign
    ++ String.ofList (digitsOf lead.natAbs)

/-- A decimal in this layout. -/
def Layout.decimal (layout : Layout) (d : Decimal) : String :=
  let digits := digitsOf d.digits
  let lead := d.exponent + digits.length - 1
  if d.digits = 0 || layout.positional lead then layout.plain digits d.exponent
  else layout.scientific digits lead

/-- A double in this layout. -/
def Layout.write (layout : Layout) (x : Float) : String :=
  if x.isNaN then layout.nan
  else
    let sign := if signBit x then "-" else ""
    if x.isInf then sign ++ layout.infinity
    else sign ++ layout.decimal ((Binary.ofFloat x).shortest layout.tie)

end TraceGraph.Number
