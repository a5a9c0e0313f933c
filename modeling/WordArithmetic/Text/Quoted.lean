/-
This file writes a text between quotes.

The quotes are single ones, unless the text holds a single quote and no double one. Inside, a
backslash and the quote in use take a backslash; line feed, carriage return and tab have letters
of their own; every other character that is not printable is written by its code point, with two,
four or eight hexadecimal digits as the code point needs. Quoted texts stand in error messages and
inside printed tuples.
-/

import WordArithmetic.Text.Printable

namespace WordArithmetic.Text

/-- The hexadecimal digits of a number, lower case, at least `width` of them. -/
def hexDigits (width value : Nat) : List Char :=
  let digits := Nat.toDigits 16 value
  List.replicate (width - digits.length) '0' ++ digits

/-- How one character is written between quotes of the given kind. -/
def quoteChar (quote character : Char) : List Char :=
  if character == quote || character == '\\' then ['\\', character]
  else if character == '\n' then ['\\', 'n']
  else if character == '\r' then ['\\', 'r']
  else if character == '\t' then ['\\', 't']
  else if isPrintable character then [character]
  else if character.toNat < 256 then '\\' :: 'x' :: hexDigits 2 character.toNat
  else if character.toNat < 65536 then '\\' :: 'u' :: hexDigits 4 character.toNat
  else '\\' :: 'U' :: hexDigits 8 character.toNat

/-- The quotes that a text is put between. -/
def quoteFor (characters : List Char) : Char :=
  if characters.contains '\'' && !characters.contains '"' then '"' else '\''

/-- A text between quotes. -/
def quoted (text : String) : String :=
  let quote := quoteFor text.toList
  String.ofList (quote :: text.toList.flatMap (quoteChar quote) ++ [quote])

/-- A letter of ASCII is written as it is. -/
example : quoted "two plus" = "'two plus'" := by decide +kernel

/-- The quotes give way to the text. -/
example : quoted "it's" = "\"it's\"" ∧ quoted "\"it's\"" = "'\"it\\'s\"'" := by decide +kernel

/-- Code points take two, four or eight digits. -/
example : quoted "\x0c\u200b" = "'\\x0c\\u200b'" := by decide +kernel

end WordArithmetic.Text
