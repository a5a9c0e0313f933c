/-
This file says what a line of the log is.

A line has a severity, the part of the program that it comes from, and a text. A log shows the
lines from a severity on, which is asked for by the name of a level.
-/

import WordArithmetic.Failure

namespace WordArithmetic

/-- How important a line of the log is. -/
inductive Severity where
  | debug
  | info
  | warning
deriving DecidableEq, Repr

/-- A line of the log. -/
structure LogLine where
  severity : Severity
  source : String
  text : String
deriving DecidableEq, Repr

namespace Severity

/-- Severities on the scale on which log levels are given. -/
def rank : Severity → Nat
  | debug => 10
  | info => 20
  | warning => 30

/-- The word for a severity. -/
def word : Severity → String
  | debug => "DEBUG"
  | info => "INFO"
  | warning => "WARNING"

end Severity

/-- A line of the log in print. -/
def LogLine.print (line : LogLine) : String :=
  s!"{line.severity.word} {line.source}: {line.text}"

/-- What a name of the log stands for: a rank, from which on lines are shown, or one of the two
things by which lines are laid out, a format and the table of styles. -/
inductive LevelName where
  | rank (least : Nat)
  | format (text : String)
  | styles
deriving DecidableEq, Repr

/-- The names of the log. -/
def levelNames : List (List Char × LevelName) :=
  [("NOTSET".toList, .rank 0), ("DEBUG".toList, .rank 10), ("INFO".toList, .rank 20),
   ("WARNING".toList, .rank 30), ("WARN".toList, .rank 30), ("ERROR".toList, .rank 40),
   ("CRITICAL".toList, .rank 50), ("FATAL".toList, .rank 50),
   ("BASIC_FORMAT".toList, .format "%(levelname)s:%(name)s:%(message)s"),
   ("_STYLES".toList, .styles)]

/-- The letters outside ASCII whose upper case is written with ASCII letters. -/
def asciiUpperCases : List (Char × List Char) :=
  [('ß', ['S', 'S']), ('ı', ['I']), ('ſ', ['S']), ('ﬀ', ['F', 'F']), ('ﬁ', ['F', 'I']),
   ('ﬂ', ['F', 'L']), ('ﬃ', ['F', 'F', 'I']), ('ﬄ', ['F', 'F', 'L']), ('ﬅ', ['S', 'T']),
   ('ﬆ', ['S', 'T'])]

/-- A character in upper case, as far as that is ASCII. Any other character is left as it is, and
so stands in no name of the log. -/
def upperCase (character : Char) : List Char :=
  match asciiUpperCases.find? fun (letter, _) => letter == character with
  | some (_, letters) => letters
  | none => [character.toUpper]

/-- The rank of a log level, whose name may be in any case. A format is a text, but no level, and
the table of styles is not even a text. -/
def readLogLevel (name : String) : Except Failure Nat :=
  let upper := name.toList.flatMap upperCase
  match levelNames.find? fun (word, _) => word == upper with
  | some (_, .rank least) => .ok least
  | some (_, .format text) => .error (.noLevel text)
  | some (_, .styles) => .error .notNumeric
  | none => .error (.unknownLevel name)

/-- The lines that are shown from a rank on. -/
def visibleLines (rank : Nat) (lines : List LogLine) : List LogLine :=
  lines.filter fun line => rank ≤ line.severity.rank

end WordArithmetic
