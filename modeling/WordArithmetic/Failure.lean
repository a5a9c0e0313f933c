/-
This file lists the causes for which an operation of the library can fail, each with its message.

A cause carries what its message shows, so that the message is a function of the cause alone and
an operation only has to say what went wrong.
-/

import WordArithmetic.Text.Quoted

namespace WordArithmetic

/-- Why an operation failed. -/
inductive Failure where
  /-- No token starts at this position of a program. -/
  | illegalCharacter (rest : String) (position : Nat)
  /-- No program goes on with this token. -/
  | unexpectedToken (shown : String) (position : Nat)
  /-- A program stops in the middle. -/
  | unexpectedEnd
  /-- A term has no denotation. -/
  | evaluation (reason term : String)
  /-- A number is divided by zero. -/
  | divisionByZero
  /-- A whole number is beyond the range of floats. -/
  | integerTooLarge
  /-- Rounding to decimal places leaves the range of floats. -/
  | roundedTooLarge
  /-- A text is not a decimal number. -/
  | notDecimal (text : String)
  /-- A text is not a whole number. -/
  | notInteger (text : String)
  /-- A whole number is written with more digits than are read. -/
  | tooManyDigits (count : Nat)
  /-- A value that is no number is used as one. -/
  | notNumeric
  /-- Two values have no order. -/
  | notOrdered
  /-- A value has no fields. -/
  | noFields
  /-- The body of an abstraction has no type. -/
  | untypedBody
  /-- A table has no such key. -/
  | unknownKey (key : String)
  /-- A sequence has no such position. -/
  | outOfRange
  /-- The operation is not defined on this kind of term or data. -/
  | notSupported
  /-- A lexicon line has the wrong number of fields. -/
  | fieldCount (found : Nat)
  /-- A derivation group would have no member. -/
  | emptyGroup (result : String)
  /-- An execution result cannot be a key. -/
  | malformedPair (container pair : String)
  /-- An action builds no term. -/
  | noComposition (label : String)
  /-- A learner has no update rule. -/
  | noUpdateRule
  /-- A line of data is not a JSON value. -/
  | malformedJson
  /-- A file does not exist. -/
  | missingFile (name : String)
  /-- A directory is used like a file. -/
  | notFile (name : String)
  /-- A file is passed through like a directory. -/
  | notDirectory (name : String)
  /-- The name of a file is longer than names can be. -/
  | nameTooLong (name : String)
  /-- The name of a file holds the null character. -/
  | nullInName
  /-- The name of a log level is not known. -/
  | unknownLevel (name : String)
  /-- The name of a log level stands for a text that is no level. -/
  | noLevel (text : String)
  /-- A term is not reduced within the allowed depth. -/
  | reductionTooDeep
deriving DecidableEq, Repr

/-- The most digits with which a whole number may be written. -/
def integerDigitLimit : Nat := 4300

/-- How much of a text that is no whole number its message shows. -/
def shownLiteralLength : Nat := 200

/-- The number of fields of a lexicon line. -/
def lexiconFieldCount : Nat := 3

namespace Failure

open Text

/-- What a failure tells the user. -/
def message : Failure → String
  | illegalCharacter rest position =>
    s!"illegal character at {quoted rest} (position {position})"
  | unexpectedToken shown position => s!"syntax error at {shown} (position {position})"
  | unexpectedEnd => "syntax error: unexpected end of input"
  | evaluation reason term => s!"{reason} (term = {term})"
  | divisionByZero => "float division by zero"
  | integerTooLarge => "int too large to convert to float"
  | roundedTooLarge => "rounded value too large to represent"
  | notDecimal text => s!"could not convert string to float: {quoted text}"
  | notInteger text =>
    "invalid literal for int() with base 10: " ++
      String.ofList ((quoted text).toList.take shownLiteralLength)
  | tooManyDigits count =>
    s!"Exceeds the limit ({integerDigitLimit} digits) for integer string conversion: " ++
      s!"value has {count} digits; use sys.set_int_max_str_digits() to increase the limit"
  | notNumeric => "the value is not a number"
  | notOrdered => "the values have no order"
  | noFields => "the value has no fields"
  | untypedBody => "the body of the abstraction has no type"
  | unknownKey key => quoted key
  | outOfRange => "no such position"
  | notSupported => "the operation is not defined here"
  | fieldCount found =>
    if found < lexiconFieldCount then
      s!"not enough values to unpack (expected {lexiconFieldCount}, got {found})"
    else s!"too many values to unpack (expected {lexiconFieldCount})"
  | emptyGroup result => s!"a derivation group needs at least one member (result = {result})"
  | malformedPair container pair =>
    "malformed inference pair, the execution result cannot be used as a key " ++
      s!"(unhashable type: {quoted container})\n==> {pair}"
  | noComposition label => s!"action {label} does not compose terms"
  | noUpdateRule => "the learner has no update rule"
  | malformedJson => "the line is not a JSON value"
  | missingFile name => s!"no such file: {quoted name}"
  | notFile name => s!"a directory and no file: {quoted name}"
  | notDirectory name => s!"no directory on the way: {quoted name}"
  | nameTooLong name => s!"the name of the file is too long: {quoted name}"
  | nullInName => "embedded null byte"
  | unknownLevel name => s!"no such log level: {quoted name}"
  | noLevel text => s!"Unknown level: {quoted text}"
  | reductionTooDeep => "the term is not reduced within the allowed depth"

/-- The failures of arithmetic itself, which make a term undefined rather than ill formed. -/
def isArithmetic : Failure → Bool
  | divisionByZero | integerTooLarge | roundedTooLarge => true
  | _ => false

end Failure

end WordArithmetic
