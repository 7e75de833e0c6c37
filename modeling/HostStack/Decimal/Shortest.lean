/-!
# The fewest digits that read back

A binary float stands for the interval of numbers that round to it. Its decimal text has as few
digits as a number of that interval can have, and among those with as few digits it is the one
nearest to the float, the larger one on a tie. On a grid of decimals with a given number of
digits only the two neighbours of the float need to be tried: when any point of the grid lies in
the interval, one of the neighbours does.

All comparisons are made between natural numbers, without rounding.
-/

namespace HostStack

/-- A decimal number, `digits * 10 ^ exponent`. -/
structure Decimal where
  digits : Nat
  exponent : Int
  deriving DecidableEq

namespace Decimal

def numerator (d : Decimal) : Nat :=
  d.digits * Nat.pow 10 d.exponent.toNat

def denominator (d : Decimal) : Nat :=
  Nat.pow 10 (-d.exponent).toNat

/-- The same number, with the digit one in place of a power of ten that fills all digits and one
more. -/
def carry (count : Nat) (d : Decimal) : Decimal :=
  if d.digits = Nat.pow 10 count then ⟨1, d.exponent + count⟩ else d

/-- The text without an exponent and with at least one digit on either side of the point. -/
def positional (d : Decimal) : List Char :=
  let digits := Nat.toDigits 10 d.digits
  let places := (-d.exponent).toNat
  if places = 0 then digits ++ List.replicate d.exponent.toNat '0' ++ ['.', '0']
  else if places < digits.length then
    digits.take (digits.length - places) ++ '.' :: digits.drop (digits.length - places)
  else '0' :: '.' :: List.replicate (places - digits.length) '0' ++ digits

/-- A positive number and the numbers that round to it, each over the denominator `scale`. The
ends belong to the interval if it is closed. -/
structure Interval where
  low : Nat
  value : Nat
  high : Nat
  scale : Nat
  closed : Bool

namespace Interval

/-- The interval of a float `mantissa * 2 ^ exponent`. Its ends lie half way to the neighbouring
floats; below the least mantissa of a binade the neighbour is only half as far away, unless
there is no smaller binade. A float with an even mantissa wins ties and so owns its ends. -/
def ofBinary (mantissa : Nat) (exponent : Int) (leastOfBinade : Bool) : Interval :=
  let factor := Nat.pow 2 (exponent - 2).toNat
  { low := (4 * mantissa - if leastOfBinade then 1 else 2) * factor
    value := 4 * mantissa * factor
    high := (4 * mantissa + 2) * factor
    scale := Nat.pow 2 (2 - exponent).toNat
    closed := mantissa % 2 = 0 }

/-- Whether a decimal rounds to the float of the interval. -/
def contains (i : Interval) (d : Decimal) : Bool :=
  let low := i.low * d.denominator
  let point := d.numerator * i.scale
  let high := i.high * d.denominator
  if i.closed then low ≤ point && point ≤ high else low < point && point < high

/-- How far a decimal is from the float, over a denominator that decimals with equal exponents
share. -/
def distance (i : Interval) (d : Decimal) : Nat :=
  let value := i.value * d.denominator
  let point := d.numerator * i.scale
  (value - point) + (point - value)

/-- The number of digits before the decimal point; for a number below one, zero or less by as
many zeros as follow the point. -/
def magnitude (i : Interval) : Int :=
  if i.scale ≤ i.value then (Nat.toDigits 10 (i.value / i.scale)).length
  else 1 - (Nat.toDigits 10 ((i.scale - 1) / i.value)).length

/-- The best decimal of the interval with the given number of digits, if it has one. -/
def withDigits? (i : Interval) (count : Nat) : Option Decimal :=
  let exponent := i.magnitude - count
  let unit : Decimal := ⟨1, exponent⟩
  let below : Decimal := ⟨i.value * unit.denominator / (unit.numerator * i.scale), exponent⟩
  let above : Decimal := ⟨below.digits + 1, exponent⟩
  match i.contains below, i.contains above with
  | true, true => some (if i.distance below < i.distance above then below else above.carry count)
  | true, false => some below
  | false, true => some (above.carry count)
  | false, false => none

/-- The decimal with the fewest digits; seventeen always suffice for a float of 64 bits. -/
def shortest (i : Interval) : Decimal :=
  ((List.range 17).findSome? fun n => i.withDigits? (n + 1)).getD ⟨0, 0⟩

end Interval

/-- The positional text of a finite positive float with the given fields of its encoding. -/
def ofFields (biased fraction : Nat) : List Char :=
  let mantissa := if biased = 0 then fraction else fraction + Nat.pow 2 52
  let exponent : Int := (max biased 1 : Nat) - 1075
  if mantissa = 0 then ['0', '.', '0']
  else (Interval.ofBinary mantissa exponent (fraction = 0 && 1 < biased)).shortest.positional

/-- The text of a float: as few digits as read back, never with an exponent and always with a
point. A number that is none has no sign. -/
def floatText (x : Float) : String :=
  let bits := x.toBits.toNat
  let biased := bits / Nat.pow 2 52 % Nat.pow 2 11
  let fraction := bits % Nat.pow 2 52
  let sign := if bits < Nat.pow 2 63 then "" else "-"
  if biased = 2047 then if fraction = 0 then sign ++ "inf" else "NaN"
  else sign ++ String.ofList (ofFields biased fraction)

end Decimal

end HostStack
