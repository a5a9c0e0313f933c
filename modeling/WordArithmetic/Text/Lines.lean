/-
This file cuts a text into lines.

A line ends at a line feed, at a carriage return, or at the two in a row, which count once. The
ends are not part of the lines.
-/

namespace WordArithmetic.Text

/-- Cuts characters into lines; `current` is the line being read, reversed. -/
def linesFrom : (current rest : List Char) → List (List Char)
  | current, [] => [current.reverse]
  | current, '\r' :: '\n' :: rest => current.reverse :: linesFrom [] rest
  | current, character :: rest =>
    if character == '\n' || character == '\r' then current.reverse :: linesFrom [] rest
    else linesFrom (character :: current) rest

/-- The lines of a text. -/
def lines (text : String) : List String :=
  (linesFrom [] text.toList).map String.ofList

/-- The three ways to end a line are the same. -/
example : lines "a\nb\r\nc\rd" = ["a", "b", "c", "d"] := by decide +kernel

end WordArithmetic.Text
