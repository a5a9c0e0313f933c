/-
This file holds the settings of a learner and reads them from texts.

Settings are given by name. Each rule reads those that it knows, in a fixed order, and passes over
the rest; a setting that is not given has a default.
-/

import WordArithmetic.Learning.UpdateRule

namespace WordArithmetic

/-- The kinds of update rules. -/
inductive RuleKind where
  | largeMargin
  | ascent
deriving DecidableEq, Repr

/-- The settings of a learner: its rule, if it has one, the number of its epochs, and the most
words of an item that is not too long. -/
structure LearnerSettings (Number : Type) where
  rule : Option (UpdateRule Number)
  iterations : Int
  longest : Int

namespace LearnerSettings

/-- The number of epochs unless another one is set. -/
def defaultIterations : Int := 4

/-- The most words of an item unless another number is set; no item is as long as this. -/
def defaultLongest : Int := 9223372036854775807

/-- The margin unless another one is set. -/
def defaultMargin : Scalar := .float 1.0

/-- The first rate of the gradient rule unless another one is set. -/
def defaultInitialRate : Scalar := .float 1.0

/-- The decay of the rate of the gradient rule unless another one is set. -/
def defaultDecay : Scalar := .float 0.0001

/-- The text that switches hard updates on. -/
def hardText : String := "true"

/-- The whole number that is given under a name, or a default. -/
def integerOf (texts : List (String × String)) (name : String) (default : Int) :
    Except Failure Int :=
  match entryOf? name texts with
  | some text => readInteger text
  | none => .ok default

/-- The decimal that is given under a name, or a default. -/
def decimalOf (texts : List (String × String)) (name : String) (default : Scalar) :
    Except Failure Scalar :=
  match entryOf? name texts with
  | some text => Scalar.float <$> readDecimal text
  | none => .ok default

/-- The settings that named texts give to a rule of some kind. -/
def ofTexts (kind : RuleKind) (texts : List (String × String)) :
    Except Failure (LearnerSettings Scalar) := do
  let iterations ← integerOf texts "iter" defaultIterations
  let rule ← match kind with
    | .largeMargin => do
      let margin ← decimalOf texts "margin" defaultMargin
      pure (UpdateRule.largeMargin margin (entryOf? "hard" texts == some hardText))
    | .ascent => do
      let initialRate ← decimalOf texts "alpha0" defaultInitialRate
      pure (UpdateRule.ascent initialRate (← decimalOf texts "c" defaultDecay))
  let longest ← integerOf texts "maxSentenceLength" defaultLongest
  return ⟨some rule, iterations, longest⟩

end LearnerSettings

end WordArithmetic
