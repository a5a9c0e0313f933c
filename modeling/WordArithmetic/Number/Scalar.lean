/-
This file holds the numbers that programs compute scores and weights with.

A number is given as a whole number or as a float. Whole numbers are of any size and stay exact as
long as they meet only whole numbers; together with a float they become the nearest float, and so
does a quotient. Comparisons are exact in any case, so that two whole numbers between which no
float lies are still told apart. Where a whole number beyond the range of floats should become one,
there is no result.
-/

import WordArithmetic.Number.Reading

namespace WordArithmetic

/-- A number: a whole number, a float, or what should be a float and is beyond their range. -/
inductive Scalar where
  | whole (value : Int)
  | float (value : Float)
  | lost

namespace Scalar

/-- The float nearest to a number. -/
def toFloat : Scalar → Except Failure Float
  | whole value => integerToFloat value
  | float value => .ok value
  | lost => .error .integerTooLarge

/-- Whether there is no float near a number. -/
def isTooLarge (number : Scalar) : Bool :=
  !number.toFloat.toBool

/-- Whether a computation has left the range of floats. -/
def isLost : Scalar → Bool
  | lost => true
  | _ => false

/-- The point of the line that a number stands for. -/
def point : Scalar → ExtendedRat
  | whole value => .finite value
  | float value => .ofFloat value
  | lost => .undefined

/-! ### Arithmetic -/

/-- Computes with the nearest floats of two numbers. -/
def onFloats (operation : Float → Float → Float) (left right : Scalar) : Scalar :=
  match left.toFloat, right.toFloat with
  | .ok left, .ok right => float (operation left right)
  | _, _ => lost

/-- The float nearest to a quotient of natural numbers. The quotient is computed to more bits than
a float holds, the last of which stands for all that follow. -/
def quotientFloat (numerator denominator : Nat) : Option Float :=
  let places := 64 + denominator.log2 - numerator.log2
  let scaled := numerator * Nat.pow 2 places
  let units := scaled / denominator
  let rounded := if scaled % denominator == 0 then units else units ||| 1
  let magnitude := nearestFloat rounded 0
  if magnitude == positiveInfinity then none else some (magnitude.scaleB (-(places : Int)))

/-- The float nearest to a quotient of whole numbers. -/
def quotient (numerator denominator : Int) : Scalar :=
  match quotientFloat numerator.natAbs denominator.natAbs with
  | some magnitude => float (if (numerator < 0) != (denominator < 0) then -magnitude else magnitude)
  | none => lost

/-- The sum of two numbers. -/
def add : (left right : Scalar) → Scalar
  | whole left, whole right => whole (left + right)
  | left, right => onFloats (· + ·) left right

/-- The difference of two numbers. -/
def sub : (left right : Scalar) → Scalar
  | whole left, whole right => whole (left - right)
  | left, right => onFloats (· - ·) left right

/-- The product of two numbers. -/
def mul : (left right : Scalar) → Scalar
  | whole left, whole right => whole (left * right)
  | left, right => onFloats (· * ·) left right

/-- The quotient of two numbers, the second of which is not zero. -/
def div : (left right : Scalar) → Scalar
  | whole left, whole right => quotient left right
  | left, right => onFloats (· / ·) left right

/-- The opposite of a number. -/
def neg : Scalar → Scalar
  | whole value => whole (-value)
  | float value => float (-value)
  | lost => lost

/-- Sums start from the whole number zero; the unit is a float, so that weights are floats. -/
instance : Zero Scalar := ⟨whole 0⟩
instance : One Scalar := ⟨float 1.0⟩
instance : NatCast Scalar := ⟨fun count => whole count⟩
instance : Add Scalar := ⟨add⟩
instance : Sub Scalar := ⟨sub⟩
instance : Mul Scalar := ⟨mul⟩
instance : Div Scalar := ⟨div⟩
instance : Neg Scalar := ⟨neg⟩

/-! ### Comparison -/

/-- Exact equality. -/
def same : (left right : Scalar) → Bool
  | float left, float right => left == right
  | left, right => left.point.same right.point

/-- Exact order. -/
def below : (left right : Scalar) → Bool
  | float left, float right => left < right
  | left, right => left.point.below right.point

instance : BEq Scalar := ⟨same⟩
instance : LT Scalar := ⟨fun left right => left.below right = true⟩
instance : DecidableLT Scalar := fun left right =>
  inferInstanceAs (Decidable (left.below right = true))

/-- Whole numbers between which no float lies are told apart. -/
example : (whole 9007199254740992).below (whole 9007199254740993) = true := by decide +kernel

/-! ### Text -/

/-- A number with a fixed number of decimal places, those of the nearest float. -/
def fixedText (places : Nat) (number : Scalar) : String :=
  match number.toFloat with
  | .ok value => WordArithmetic.fixedText places value
  | .error _ => if number < 0 then "-inf" else "inf"

end Scalar

end WordArithmetic
