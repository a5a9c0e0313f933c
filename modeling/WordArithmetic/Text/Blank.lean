/-
This file says which characters are blank, and cuts blanks off a text.

Blank are the characters that Unicode 14 treats as white space, and the four information
separators of ASCII besides. Both the normal form of a question and the reading of numbers go by
this one table.
-/

namespace WordArithmetic.Text

/-- The blank characters, as closed ranges of code points in increasing order. -/
def blankRanges : List (Nat × Nat) :=
  [(9, 13), (28, 32), (133, 133), (160, 160), (5760, 5760), (8192, 8202), (8232, 8233),
   (8239, 8239), (8287, 8287), (12288, 12288)]

/-- Whether a character is blank. -/
def isBlank (character : Char) : Bool :=
  blankRanges.any fun (low, high) => low ≤ character.toNat && character.toNat ≤ high

/-- Cuts the blanks off both ends of a list of characters. -/
def trimChars (characters : List Char) : List Char :=
  ((characters.dropWhile isBlank).reverse.dropWhile isBlank).reverse

/-- Cuts the blanks off both ends of a text. -/
def trim (text : String) : String :=
  String.ofList (trimChars text.toList)

end WordArithmetic.Text
