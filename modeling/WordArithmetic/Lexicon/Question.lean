/-
This file brings questions into their normal form.

A question is lowered, its punctuation marks become words of their own, and its words are joined
by single spaces. Numbers are recognised in this form, written out in words or in digits.
-/

import WordArithmetic.Number.Reading
import WordArithmetic.Text.LowerCase

namespace WordArithmetic

namespace Question

open Text

/-- Whether a character is a punctuation mark, which is a word of its own. -/
def isMark (character : Char) : Bool :=
  character == '?' || character == '!' || character == ',' || character == ';'

/-- Puts spaces around the punctuation marks. -/
def spaceMarks (text : List Char) : List Char :=
  text.flatMap fun character => if isMark character then [' ', character, ' '] else [character]

/-- The words of a text, which are its longest runs without blanks. `current` is the word being
read, reversed. -/
def wordsFrom : (current rest : List Char) → List (List Char)
  | current, [] => if current.isEmpty then [] else [current.reverse]
  | current, character :: rest =>
    if isBlank character then
      if current.isEmpty then wordsFrom [] rest else current.reverse :: wordsFrom [] rest
    else wordsFrom (character :: current) rest

/-- The normal form of a question. -/
def normalize (text : String) : String :=
  String.intercalate " "
    ((wordsFrom [] (spaceMarks (lowerCase text).toList)).map String.ofList)

/-! ### Numbers -/

/-- The numbers that are written out in words, from zero on. -/
def numerals : List String :=
  ["zero", "one", "two", "three", "four", "five", "six", "seven", "eight", "nine", "ten",
   "eleven", "twelve", "thirteen", "fourteen", "fifteen", "sixteen", "seventeen", "eighteen",
   "nineteen", "twenty"]

/-- The float of digits with an optional fraction, and nothing for any other text. -/
def readDigits? (text : List Char) : Option Float :=
  let whole := text.takeWhile Char.isDigit
  let fraction? := match text.dropWhile Char.isDigit with
    | [] => some []
    | '.' :: digits => if !digits.isEmpty && digits.all Char.isDigit then some digits else none
    | _ => none
  if whole.isEmpty then none
  else
    fraction?.map fun fraction =>
      nearestFloat (digitsValue (whole ++ fraction)) (-fraction.length)

/-- The number that a word stands for. One line feed at the end of digits is overlooked. -/
def readNumber? (word : String) : Option Float :=
  match numerals.findIdx? (· == word) with
  | some value => some (Float.ofNat value)
  | none =>
    let characters := word.toList
    readDigits? (if characters.getLast? == some '\n' then characters.dropLast else characters)

end Question

end WordArithmetic
