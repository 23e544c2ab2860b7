import TraceGraph.Number.Binary

/-!
# Reading decimal texts

`ofDecimal` gives the double nearest to a decimal, ties to the even mantissa.
`read?` is the grammar of a number in a string: an optional sign, then a word for
a special value in any case, or digits around an optional point with at least
one digit in all, and an optional exponent.
-/

namespace TraceGraph.Number

/-- The natural number with the given digits. -/
def ofDigits (digits : List Char) : Nat :=
  digits.foldl (fun n c => 10 * n + (c.toNat - '0'.toNat)) 0

/-- The double nearest to `digits * 10 ^ exponent`.  Values far outside the
range of doubles are decided by their order of magnitude alone. -/
def ofDecimal (digits : Nat) (exponent : Int) : Float :=
  let size : Int := (Nat.toDigits 10 digits).length
  if digits = 0 then 0.0
  else if 310 < size + exponent then infinity
  else if size + exponent < -330 then 0.0
  else nearest (digits * tenPow exponent.toNat) (tenPow (-exponent).toNat)

/-- The value of digits before and after a point, times a power of ten. -/
def ofParts (whole fraction : List Char) (exponent : Int) : Float :=
  ofDecimal (ofDigits (whole ++ fraction)) (exponent - fraction.length)

/-- The exponent part of a number: empty, or a mark, an optional sign and at
least one digit. -/
def readExponent? : List Char → Option Int
  | [] => some 0
  | mark :: rest =>
    let (negative, digits) := match rest with
      | '+' :: more => (false, more)
      | '-' :: more => (true, more)
      | _ => (false, rest)
    if (mark == 'e' || mark == 'E') && digits.all Char.isDigit && !digits.isEmpty then
      some (if negative then -(ofDigits digits : Int) else ofDigits digits)
    else none

/-- A number without a sign. -/
def readMagnitude? (text : List Char) : Option Float :=
  let word := String.ofList (text.map Char.toLower)
  if word == "inf" || word == "infinity" then some infinity
  else if word == "nan" then some nan
  else
    let whole := text.takeWhile Char.isDigit
    let afterWhole := text.dropWhile Char.isDigit
    let (fraction, rest) := match afterWhole with
      | '.' :: more => (more.takeWhile Char.isDigit, more.dropWhile Char.isDigit)
      | _ => ([], afterWhole)
    if whole.isEmpty && fraction.isEmpty then none
    else (readExponent? rest).map (ofParts whole fraction)

/-- A number with an optional sign, and nothing around it. -/
def read? : List Char → Option Float
  | '+' :: rest => readMagnitude? rest
  | '-' :: rest => (readMagnitude? rest).map (- ·)
  | text => readMagnitude? text

end TraceGraph.Number
