/-
This file reads numbers from text.

A decimal is an optional sign and digits with an optional point and exponent, or one of the words
for infinity and the undefined number in any case. A whole number is an optional sign and digits.
Both may stand between blanks, may use the decimal digits of any script, and may have single
underscores between digits.
-/

import WordArithmetic.Number.Places
import WordArithmetic.Text.Blank
import WordArithmetic.Text.Digit

namespace WordArithmetic

open Text

/-- A digit of any script becomes the ASCII digit of the same value. -/
def asciiDigit (character : Char) : Char :=
  match digitValue? character with
  | some value => Char.ofNat (48 + value)
  | none => character

/-- Whether a character may stand around a number: it is blank, and no information separator. -/
def surroundsNumber (character : Char) : Bool :=
  isBlank character && !(28 ≤ character.toNat && character.toNat ≤ 31)

/-- Cuts the blanks off both ends of a number. -/
def trimNumber (characters : List Char) : List Char :=
  ((characters.dropWhile surroundsNumber).reverse.dropWhile surroundsNumber).reverse

/-- Drops the underscores that stand between two digits, and nothing if one stands elsewhere.
`after` tells whether a digit was just passed. -/
def joinDigits? : (after : Bool) → List Char → Option (List Char)
  | _, [] => some []
  | after, '_' :: rest =>
    match after, rest with
    | true, next :: _ => if next.isDigit then joinDigits? false rest else none
    | _, _ => none
  | _, character :: rest => (joinDigits? character.isDigit rest).map (character :: ·)

/-- The number that a list of ASCII digits writes. -/
def digitsValue (digits : List Char) : Nat :=
  digits.foldl (fun value digit => 10 * value + (digit.toNat - 48)) 0

/-- Splits off the sign; the flag tells whether it is a minus. -/
def splitSign : List Char → Bool × List Char
  | '+' :: rest => (false, rest)
  | '-' :: rest => (true, rest)
  | rest => (false, rest)

/-- The exponent of a decimal, which is absent or a letter, a sign and digits. -/
def readExponent? : List Char → Option Int
  | [] => some 0
  | mark :: rest =>
    let (negative, digits) := splitSign rest
    if (mark == 'e' || mark == 'E') && !digits.isEmpty && digits.all Char.isDigit then
      let size : Int := digitsValue digits
      some (if negative then -size else size)
    else none

/-- The value of an unsigned decimal. -/
def readUnsigned? (characters : List Char) : Option Float :=
  let word := String.ofList (characters.map Char.toLower)
  if word == "inf" || word == "infinity" then some positiveInfinity
  else if word == "nan" then some undefinedNumber
  else
    let whole := characters.takeWhile Char.isDigit
    let afterWhole := characters.dropWhile Char.isDigit
    let (fraction, afterFraction) := match afterWhole with
      | '.' :: rest => (rest.takeWhile Char.isDigit, rest.dropWhile Char.isDigit)
      | rest => ([], rest)
    if whole.isEmpty && fraction.isEmpty then none
    else
      (readExponent? afterFraction).map fun exponent =>
        nearestFloat (digitsValue (whole ++ fraction)) (exponent - fraction.length)

/-- Reads a decimal number. -/
def readDecimal (text : String) : Except Failure Float :=
  let characters := (trimNumber text.toList).map asciiDigit
  let number? := do
    let joined ← joinDigits? false characters
    let (negative, unsigned) := splitSign joined
    let number ← readUnsigned? unsigned
    pure (if negative then -number else number)
  match number? with
  | some number => .ok number
  | none => .error (.notDecimal text)

/-- Reads a whole number. The digits at the front are counted before anything else is looked at, so
that a text with too many of them is refused for their number, whatever follows. -/
def readInteger (text : String) : Except Failure Int :=
  let (negative, unsigned) := splitSign ((trimNumber text.toList).map asciiDigit)
  let written := unsigned.takeWhile fun character => character.isDigit || character == '_'
  match joinDigits? false written with
  | none => .error (.notInteger text)
  | some digits =>
    if digits.length > integerDigitLimit then .error (.tooManyDigits digits.length)
    else if digits.isEmpty || written.length < unsigned.length then .error (.notInteger text)
    else
      let size : Int := digitsValue digits
      .ok (if negative then -size else size)

/-- The float nearest to a whole number. -/
def integerToFloat (number : Int) : Except Failure Float :=
  let magnitude := nearestFloat number.natAbs 0
  if magnitude == positiveInfinity then .error .integerTooLarge
  else .ok (if number < 0 then -magnitude else magnitude)

end WordArithmetic
