/-
This file takes floating point numbers apart.

A finite float is a sign, a natural significand and a power of two; the other floats are the two
infinities and the undefined number. Everything that has to be exact about floats (their shortest
text, their rounding to decimal places, their comparison with whole numbers) works on these parts
in natural and rational arithmetic.
-/

namespace WordArithmetic

/-- A finite float: the significand times two to the exponent, with a sign that zero keeps. -/
structure Binary where
  negative : Bool
  significand : Nat
  exponent : Int
deriving DecidableEq, Repr

/-- What a float stands for. -/
inductive FloatShape where
  | finite (parts : Binary)
  | infinite (negative : Bool)
  | undefined
deriving DecidableEq, Repr

/-- The parts of a float given by its sixty-four bits: a sign, an exponent field of eleven bits
and a fraction of fifty-two. -/
def FloatShape.ofBits (bits : Nat) : FloatShape :=
  let negative := bits / Nat.pow 2 63 % 2 == 1
  let field : Nat := bits / Nat.pow 2 52 % Nat.pow 2 11
  let fraction : Nat := bits % Nat.pow 2 52
  if field == 2047 then
    if fraction == 0 then .infinite negative else .undefined
  else if field == 0 then .finite ⟨negative, fraction, -1074⟩
  else .finite ⟨negative, fraction + Nat.pow 2 52, (field : Int) - 1075⟩

/-- The parts of a float. -/
def FloatShape.ofFloat (number : Float) : FloatShape :=
  .ofBits number.toBits.toNat

/-- The power of ten, two or any other base with an exponent of either sign. -/
def powerRat (base : Nat) (exponent : Int) : Rat :=
  let size := Nat.pow base exponent.natAbs
  if exponent < 0 then mkRat 1 size else mkRat size 1

/-- The exact value of a finite float. -/
def Binary.toRat (parts : Binary) : Rat :=
  (if parts.negative then -(parts.significand : Rat) else parts.significand) *
    powerRat 2 parts.exponent

/-- Plus infinity. -/
def positiveInfinity : Float :=
  Float.ofBits 0x7FF0000000000000

/-- Minus infinity. -/
def negativeInfinity : Float :=
  Float.ofBits 0xFFF0000000000000

/-- The undefined number. -/
def undefinedNumber : Float :=
  Float.ofBits 0x7FF8000000000000

/-! ### Numbers on the extended line -/

/-- An exact number, an infinity, or the undefined number. -/
inductive ExtendedRat where
  | finite (value : Rat)
  | positiveInfinity
  | negativeInfinity
  | undefined
deriving DecidableEq

/-- The exact number that a float stands for. The two zeros stand for the same number. -/
def ExtendedRat.ofFloat (number : Float) : ExtendedRat :=
  match FloatShape.ofFloat number with
  | .finite parts => .finite parts.toRat
  | .infinite negative => if negative then .negativeInfinity else .positiveInfinity
  | .undefined => .undefined

/-- Two numbers are equal when they are the same point of the line. The undefined number is no
point of the line and equals nothing. -/
def ExtendedRat.same : ExtendedRat → ExtendedRat → Bool
  | .undefined, _ => false
  | left, right => left == right

/-- Strict order on the line. The undefined number is below and above nothing. -/
def ExtendedRat.below : ExtendedRat → ExtendedRat → Bool
  | .finite left, .finite right => left < right
  | .negativeInfinity, .finite _ => true
  | .negativeInfinity, .positiveInfinity => true
  | .finite _, .positiveInfinity => true
  | _, _ => false

end WordArithmetic
