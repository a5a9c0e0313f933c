/-
This file rounds floats to decimal places.

Both the rounding of an execution result and the numbers of a log line are decided on the exact
binary value: it is scaled by the power of ten, rounded to the nearest whole number, and an exact
half goes to the even neighbour. Only then is the decimal turned into text, or back into the
nearest float.
-/

import WordArithmetic.Failure
import WordArithmetic.Number.Shortest

namespace WordArithmetic

/-- The quotient rounded to the nearest whole number, an exact half to the even one. -/
def roundDiv (numerator denominator : Nat) : Nat :=
  let quotient := numerator / denominator
  let twice := 2 * (numerator % denominator)
  if twice > denominator || (twice == denominator && quotient % 2 == 1) then quotient + 1
  else quotient

/-- Rounding is off by half a unit at most. -/
theorem roundDiv_near (numerator : Nat) {denominator : Nat} (positive : 0 < denominator) :
    2 * (roundDiv numerator denominator * denominator) ≤ 2 * numerator + denominator ∧
      2 * numerator ≤ 2 * (roundDiv numerator denominator * denominator) + denominator := by
  have division := Nat.div_add_mod numerator denominator
  have remainder := Nat.mod_lt numerator positive
  rw [Nat.mul_comm] at division
  unfold roundDiv
  simp only [Bool.or_eq_true, Bool.and_eq_true, decide_eq_true_eq, beq_iff_eq]
  split <;> rename_i branch
  · rw [Nat.add_mul]; omega
  · omega

/-- A positive float times ten to `places`, rounded to a whole number. -/
def roundedUnits (parts : Binary) (places : Int) : Nat :=
  let (numerator, denominator) := scaledRatio parts.significand parts.exponent places
  roundDiv numerator denominator

/-- A float with a fixed number of decimal places. -/
def fixedText (places : Nat) (number : Float) : String :=
  match FloatShape.ofFloat number with
  | .undefined => "nan"
  | .infinite negative => if negative then "-inf" else "inf"
  | .finite parts =>
    let digits := decimalDigits (roundedUnits parts places)
    let padded := List.replicate (places + 1 - digits.length) '0' ++ digits
    let whole := padded.take (padded.length - places)
    let unsigned := if places == 0 then whole else whole ++ '.' :: padded.drop whole.length
    String.ofList (if parts.negative then '-' :: unsigned else unsigned)

/-- Beyond this many places every float is its own rounding. -/
def mostPlaces : Int := 323

/-- Below this many places every float rounds to zero. -/
def fewestPlaces : Int := -308

/-- The float nearest to `units * 10 ^ exponent`. -/
def nearestFloat (units : Nat) (exponent : Int) : Float :=
  let size := (units.log2 : Int) * 30103 / 100000 + exponent
  if units == 0 || size < -400 then 0.0
  else if size > 400 then positiveInfinity
  else Float.ofScientific units (exponent < 0) exponent.natAbs

/-- Half a unit above the largest finite float: from here on numbers are beyond the range of
floats. -/
def floatBound : Nat := Nat.pow 2 1024 - Nat.pow 2 970

/-- Whether `units * 10 ^ exponent` is beyond the range of floats. -/
def isBeyondFloats (units : Nat) (exponent : Int) : Bool :=
  let (numerator, denominator) := scaledRatio units 0 exponent
  floatBound * denominator ≤ numerator

/-- Rounds a float to a number of decimal places, negative ones counting to the left of the
point. Zero keeps the sign of what was rounded to it. -/
def roundTo (places : Int) (number : Float) : Except Failure Float :=
  match FloatShape.ofFloat number with
  | .finite parts =>
    let signed := fun magnitude : Float => if parts.negative then -magnitude else magnitude
    if places > mostPlaces then .ok number
    else if places < fewestPlaces then .ok (signed 0.0)
    else
      let units := roundedUnits parts places
      if isBeyondFloats units (-places) then .error .roundedTooLarge
      else .ok (signed (nearestFloat units (-places)))
  | _ => .ok number

end WordArithmetic
