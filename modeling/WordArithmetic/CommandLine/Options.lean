/-
This file holds the options of the command line program and the settings that change them.

A setting takes its value from a text, which has to be of the kind that the option holds. What is
not set keeps its default.
-/

import WordArithmetic.Learning.Settings

namespace WordArithmetic.CommandLine

/-- What can be set on the command line. -/
inductive Setting where
  | help
  | test
  | lexicon
  | learner
  | epochs
  | margin
  | hard
  | initialRate
  | decay
  | beam
  | logLevel
deriving DecidableEq, Repr

/-- The options of the program beside the name of the training data. A name that is empty counts
as absent. An option may have been left without a value, and is then nothing. -/
structure Options where
  test : String
  lexicon : String
  learner : RuleKind
  epochs : Option Int
  margin : Option Scalar
  hard : Bool
  initialRate : Option Scalar
  decay : Option Scalar
  beam : Option Int
  logLevel : Option String

namespace Setting

/-- The names of the settings. -/
def names : List (List Char × Setting) :=
  [("--help".toList, help), ("--test".toList, test), ("--lexicon".toList, lexicon),
   ("--learner".toList, learner), ("--epochs".toList, epochs), ("--margin".toList, margin),
   ("--hard".toList, hard), ("--alpha0".toList, initialRate), ("--c".toList, decay),
   ("--beam".toList, beam), ("--log-level".toList, logLevel)]

/-- Whether a setting needs a value. -/
def needsValue : Setting → Bool
  | help | hard => false
  | _ => true

/-- The settings that a name may stand for: the one with exactly this name, or all whose names
begin with it. -/
def candidates (name : List Char) : List Setting :=
  match names.find? fun (full, _) => full == name with
  | some (_, setting) => [setting]
  | none => (names.filter fun (full, _) => name.isPrefixOf full).map Prod.snd

end Setting

/-- The words for the rules. -/
def ruleNames : List (String × RuleKind) :=
  [("perceptron", .largeMargin), ("stocgrad", .ascent)]

/-- The text that leaves an option without a value. -/
def noValueText : String := "--"

namespace Options

/-- The options before anything is set. -/
def default : Options where
  test := ""
  lexicon := ""
  learner := .largeMargin
  epochs := some LearnerSettings.defaultIterations
  margin := some LearnerSettings.defaultMargin
  hard := false
  initialRate := some LearnerSettings.defaultInitialRate
  decay := some LearnerSettings.defaultDecay
  beam := some Parser.defaultWidth
  logLevel := some "INFO"

/-- Leaves an option without a value. A name is then absent, and a learner without a name is not
the one with a margin. -/
def clear (options : Options) : Setting → Options
  | .test => { options with test := "" }
  | .lexicon => { options with lexicon := "" }
  | .learner => { options with learner := .ascent }
  | .epochs => { options with epochs := none }
  | .margin => { options with margin := none }
  | .initialRate => { options with initialRate := none }
  | .decay => { options with decay := none }
  | .beam => { options with beam := none }
  | .logLevel => { options with logLevel := none }
  | .help | .hard => options

/-- The decimal that a text writes, if it writes one. -/
def decimal? (text : String) : Option Scalar :=
  (readDecimal text).toOption.map Scalar.float

/-- Sets an option to what a text says, if it says something of the right kind. -/
def setValue? (options : Options) (setting : Setting) (value : String) : Option Options :=
  match setting with
  | .help => some options
  | .test => some { options with test := value }
  | .lexicon => some { options with lexicon := value }
  | .learner => do
    let (_, learner) ← ruleNames.find? fun (name, _) => name == value
    return { options with learner }
  | .epochs => do return { options with epochs := ← (readInteger value).toOption }
  | .margin => do return { options with margin := ← decimal? value }
  | .hard => some { options with hard := true }
  | .initialRate => do return { options with initialRate := ← decimal? value }
  | .decay => do return { options with decay := ← decimal? value }
  | .beam => do return { options with beam := ← (readInteger value).toOption }
  | .logLevel => some { options with logLevel := value }

/-- Sets an option to what a text says, or leaves it without a value. -/
def set? (options : Options) (setting : Setting) (value : String) : Option Options :=
  if value == noValueText then some (options.clear setting) else options.setValue? setting value

/-- What is read where an option has no value. -/
def emptyText : String := "[]"

/-- The number of an option, which has to have one. -/
def numberOf (value : Option Scalar) : Except Failure Scalar :=
  match value with
  | some number => .ok number
  | none => .error (.notDecimal emptyText)

/-- The settings of the learner that the options ask for. -/
def learnerSettings (options : Options) : Except Failure (LearnerSettings Scalar) := do
  let iterations ← match options.epochs with
    | some iterations => pure iterations
    | none => .error (.notInteger emptyText)
  let rule ← match options.learner with
    | .largeMargin => do pure (UpdateRule.largeMargin (← numberOf options.margin) options.hard)
    | .ascent => do
      pure (UpdateRule.ascent (← numberOf options.initialRate) (← numberOf options.decay))
  return ⟨some rule, iterations, LearnerSettings.defaultLongest⟩

end Options

end WordArithmetic.CommandLine
