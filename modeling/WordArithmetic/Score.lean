/-
This file says what the numbers are that scores and weights are made of.

The forests, models and learners of the library are written over any kind of number that has the
operations of arithmetic, an order test and the operations below. Programs run on scalars; what
they compute can be studied on exact numbers as well, with any positive function in the place of
the exponential.
-/

import WordArithmetic.Number.Scalar

namespace WordArithmetic

/-- The operations of log scores beside arithmetic and order. -/
class LogScore (Number : Type) where
  /-- The mass of a log score. -/
  exp : Number → Number
  /-- The score of having found nothing. -/
  lowest : Number
  /-- Whether a score is better than having found nothing. -/
  isAboveLowest : Number → Bool
  /-- The score that a search for the best of several starts from, if it starts from one. -/
  floor : Option Number
  /-- Whether a number is beyond the range in which results are. -/
  isTooLarge : Number → Bool

/-- The lowest finite float. -/
def lowestFinite : Scalar := .float (Float.ofBits 0xFFEFFFFFFFFFFFFF)

/-- On scalars the score of having found nothing is minus infinity, and the exponential of a score
that is too large, or a whole number beyond the range of floats, is plus infinity. A search for the
best score starts from the lowest finite float. -/
instance : LogScore Scalar where
  exp
    | .whole value => .float ((integerToFloat value).map Float.exp |>.toOption.getD positiveInfinity)
    | .float value => .float value.exp
    | .lost => .lost
  lowest := .float negativeInfinity
  isAboveLowest score := Scalar.float negativeInfinity < score
  floor := some lowestFinite
  isTooLarge := Scalar.isTooLarge

/-- The sum of a list of numbers, from left to right and starting from zero. -/
def total {Number : Type} [Zero Number] [Add Number] (numbers : List Number) : Number :=
  numbers.foldl (· + ·) 0

/-- The first of the elements of largest measure, beginning with a first one: a later element
takes the place of an earlier one only if its measure is larger. -/
def firstLargest {Number Element : Type} [LT Number] [DecidableLT Number]
    (measure : Element → Number) (first : Element) (rest : List Element) : Element :=
  rest.foldl (fun best element => if measure best < measure element then element else best) first

/-- A last element takes the place of the first largest one if its measure is larger. -/
theorem firstLargest_append_singleton {Number Element : Type} [LT Number] [DecidableLT Number]
    (measure : Element → Number) (first : Element) (rest : List Element) (last : Element) :
    firstLargest measure first (rest ++ [last]) =
      if measure (firstLargest measure first rest) < measure last then last
      else firstLargest measure first rest := by
  rw [firstLargest, List.foldl_append]
  rfl

/-- All elements whose measure is that of the first element of largest measure, in their order. -/
def allLargest {Number Element : Type} [LT Number] [DecidableLT Number] [BEq Number]
    (measure : Element → Number) : List Element → List Element
  | [] => []
  | first :: rest =>
    let top := measure (firstLargest measure first rest)
    (first :: rest).filter fun element => measure element == top

/-- Refuses to divide by zero. -/
def divide? {Number : Type} [Zero Number] [Div Number] [BEq Number]
    (numerator denominator : Number) : Option Number :=
  if denominator == 0 then none else some (numerator / denominator)

end WordArithmetic
