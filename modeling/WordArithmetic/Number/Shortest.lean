/-
This file finds the shortest decimal that reads back as a given float.

A float stands for every real number nearer to it than to its neighbours; the ends of that
interval belong to it exactly when its significand is even, as ties go to the even one. Of all
decimals in the interval the shortest is wanted, and of several equally short ones the nearest. A
decimal of `n` digits lies on the grid of step `10 ^ (k - n)`, where `10 ^ k` is the first power
of ten above the float, and if any point of a grid lies in the interval then one of the two grid
points around the float does. So the search looks at these two points of each grid, from one digit
up to seventeen, which always suffice.
-/

import WordArithmetic.Number.Binary

namespace WordArithmetic

/-- A positive decimal: the digits of `digits`, read as a fraction after the point, times ten to
`point`. -/
structure Decimal where
  digits : Nat
  point : Int
deriving DecidableEq, Repr

/-- A ratio `a / b` of the form `units * 2 ^ twos * 10 ^ tens`, with both parts natural. -/
def scaledRatio (units : Nat) (twos tens : Int) : Nat × Nat :=
  (units * Nat.pow 2 twos.toNat * Nat.pow 10 tens.toNat,
    Nat.pow 2 (-twos).toNat * Nat.pow 10 (-tens).toNat)

/-- Whether `significand * 2 ^ exponent` is below ten to the `point`. -/
def belowPowerOfTen (significand : Nat) (exponent point : Int) : Bool :=
  let (above, below) := scaledRatio significand exponent (-point)
  above < below

/-- The first power of ten above a positive float. The number of its bits gives an estimate that
is off by one at most; the exact comparison settles it. -/
def decimalPoint (significand : Nat) (exponent : Int) : Int :=
  let estimate := (significand.log2 + exponent) * 30103 / 100000
  (([estimate - 1, estimate, estimate + 1].find? (belowPowerOfTen significand exponent ·))).getD
    (estimate + 2)

/-- The grid point of `count` digits that stands for the float, if one of the two around it
does. Lengths are measured in quarters of the float's last unit. -/
def gridPoint? (significand : Nat) (exponent point : Int) (count : Nat) : Option Nat :=
  let lowGap := if significand == Nat.pow 2 52 && exponent > -1074 then 1 else 2
  let (value, unit) := scaledRatio (4 * significand) (exponent - 2) (count - point)
  let (low, _) := scaledRatio (4 * significand - lowGap) (exponent - 2) (count - point)
  let (high, _) := scaledRatio (4 * significand + 2) (exponent - 2) (count - point)
  let inside := fun candidate : Nat =>
    if significand % 2 == 0 then low ≤ candidate * unit && candidate * unit ≤ high
    else low < candidate * unit && candidate * unit < high
  let floor := value / unit
  let ceiling := floor + 1
  match inside floor, inside ceiling with
  | false, false => none
  | true, false => some floor
  | false, true => some ceiling
  | true, true =>
    let below := value - floor * unit
    let above := ceiling * unit - value
    if below < above || (below == above && floor % 2 == 0) then some floor else some ceiling

/-- Takes the zeros off the end of a number, at most `fuel` of them. -/
def dropTrailingZeros : (fuel value : Nat) → Nat
  | 0, value => value
  | fuel + 1, value =>
    if value != 0 && value % 10 == 0 then dropTrailingZeros fuel (value / 10) else value

/-- The shortest decimal that reads back as a positive float. -/
def shortestDecimal (significand : Nat) (exponent : Int) : Decimal :=
  let point := decimalPoint significand exponent
  let found := ((List.range 17).findSome? fun index =>
    (gridPoint? significand exponent point (index + 1)).map (·, index + 1)).getD (0, 1)
  let carried := if found.1 == Nat.pow 10 found.2 then 1 else 0
  ⟨dropTrailingZeros 17 found.1, point + carried⟩

/-! ### The text of a float -/

/-- The digits of a natural number. -/
def decimalDigits (value : Nat) : List Char :=
  Nat.toDigits 10 value

/-- A decimal written without exponent, with at least one digit on each side of the point. -/
def positional (digits : List Char) (point : Int) : List Char :=
  if point ≤ 0 then
    '0' :: '.' :: (List.replicate (-point).toNat '0' ++ digits)
  else
    let padded := digits ++ List.replicate (point.toNat - digits.length) '0'
    let fraction := padded.drop point.toNat
    padded.take point.toNat ++ '.' :: (if fraction.isEmpty then ['0'] else fraction)

/-- A decimal written with one digit before the point and an exponent of at least two digits. -/
def scientific (digits : List Char) (point : Int) : List Char :=
  let exponent := point - 1
  let written := decimalDigits exponent.natAbs
  let padded := if written.length < 2 then '0' :: written else written
  let mantissa := match digits with
    | [] => []
    | [digit] => [digit]
    | digit :: rest => digit :: '.' :: rest
  mantissa ++ 'e' :: (if exponent < 0 then '-' else '+') :: padded

/-- The text of a float: the shortest decimal that reads back, without exponent from a ten
thousandth up to below ten to the sixteenth. -/
def floatText (number : Float) : String :=
  match FloatShape.ofFloat number with
  | .undefined => "nan"
  | .infinite negative => if negative then "-inf" else "inf"
  | .finite parts =>
    let unsigned :=
      if parts.significand == 0 then ['0', '.', '0']
      else
        let decimal := shortestDecimal parts.significand parts.exponent
        let digits := decimalDigits decimal.digits
        if -4 < decimal.point && decimal.point ≤ 16 then positional digits decimal.point
        else scientific digits decimal.point
    String.ofList (if parts.negative then '-' :: unsigned else unsigned)

end WordArithmetic
