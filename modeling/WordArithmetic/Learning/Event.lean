/-
This file lists what is reported while a model is trained and assessed.

An event carries the numbers and names that its line of the log shows, and becomes a line only
where the log is printed. So the learners can run on any kind of numbers, and nothing that they do
depends on how a number is written.
-/

import WordArithmetic.Log
import WordArithmetic.Search.Parser

namespace WordArithmetic

/-- Something that is reported. -/
inductive Event (Number : Type) where
  /-- A question is cut into words. -/
  | questionRead (words : List String)
  /-- A meaning without term takes part in a parse. -/
  | untypedMeaning
  /-- A latent form has no value. -/
  | undefinedForm (reason : String)
  /-- A learner with a margin is made. -/
  | marginLearner (iterations : Int) (margin : Number) (hard : Bool) (items : Nat) (longest : Int)
  /-- An epoch begins. -/
  | epochStarted (epoch : Nat)
  /-- An item is reached. -/
  | itemReached (item epoch : Nat)
  /-- The item that was reached. -/
  | itemShown (item : String)
  /-- The item has too many words. -/
  | itemTooLong
  /-- An epoch ends. -/
  | epochEnded (summary : String)
  /-- The mean time that a parse took, in milliseconds. -/
  | meanTime (time : Number)
  /-- A candidate of the margin rule, with its score under the weights. -/
  | candidate (valid : Bool) (score : Number) (form : String) (result : Value)
  /-- The margin rule finds no parse. -/
  | marginNoParses (item : String)
  /-- The margin rule gives an item up. -/
  | marginSkipped
  /-- The margin rule finds parses. -/
  | parsesFound (count : Nat)
  /-- The time that the parse took, in milliseconds. -/
  | parsingTime (time : Number)
  /-- The parses are split. -/
  | parsesSplit (valid invalid : Nat)
  /-- One side of the split is empty. -/
  | splitMissing
  /-- The violations of the margin are counted. -/
  | violationsFound (valid invalid : Nat)
  /-- There is no violation of the margin. -/
  | violationsMissing
  /-- The margin rule updates the weights. -/
  | marginUpdate (direction : FeatureVector Number)
  /-- The gradient rule finds no parse. -/
  | gradientNoParses (item : String)
  /-- The share of the valid results in the mass of all. -/
  | validMass (mass : Number)
  /-- No result with mass is valid. -/
  | validMassMissing
  /-- The gradient rule updates the weights. -/
  | gradientUpdate (rate : Number) (gradient : FeatureVector Number)
  /-- The best results for an item under assessment. -/
  | itemAssessed (item : String) (results : List Value)
  /-- The outcome of an assessment. -/
  | assessed (accuracy mass : Number)

namespace Event

/-- Whether an event reports a time that was measured. -/
def isTiming {Number : Type} : Event Number → Bool
  | meanTime _ | parsingTime _ => true
  | _ => false

/-- The part of the program that reports an event. -/
def source {Number : Type} : Event Number → String
  | questionRead _ => "lexer"
  | untypedMeaning => "functional_core"
  | undefinedForm _ | itemAssessed .. | assessed .. => "semparser"
  | epochStarted _ | itemReached .. | itemShown _ | itemTooLong | epochEnded _ | meanTime _
  | candidate .. => "learn"
  | gradientNoParses _ | validMass _ | validMassMissing | gradientUpdate .. => "stocgrad"
  | _ => "perceptron"

/-- The severity of an event. -/
def severity {Number : Type} : Event Number → Severity
  | questionRead _ | undefinedForm _ | candidate .. => .debug
  | untypedMeaning => .warning
  | _ => .info

/-- Milliseconds in a second. -/
def millisecondsPerSecond : Scalar := .float 1000.0

/-- What stands for best results without any text. -/
def noParseText : String := "no parse"

/-- What an event says. -/
def text : Event Scalar → String
  | questionRead words => "tokens: " ++ String.intercalate " " words
  | untypedMeaning => "type checker cannot type None"
  | undefinedForm reason => s!"execution failure: {reason}"
  | marginLearner iterations margin hard items longest =>
    s!"Init MarginPerceptron: numIterations={iterations}, margin={margin.fixedText 6}, " ++
      s!"hard={(Value.truth hard).print}, trainingData.size()={items}, " ++
      s!"maxSentenceLength={longest}"
  | epochStarted epoch => s!"Training epoch {epoch}"
  | itemReached item epoch => s!"{item} : ================== [{epoch}]"
  | itemShown item => s!"Sample: {item}"
  | itemTooLong => "Sample too long, skipping"
  | epochEnded summary => summary
  | meanTime time => s!"Mean model parsing time: {time.fixedText 1}ms"
  | candidate valid score form result =>
    (if valid then "* " else "  ") ++ s!"[{score.fixedText 4}] {form} => {result.print}"
  | marginNoParses item | gradientNoParses item => s!"No parses for: {item}"
  | marginSkipped => "Skipping parameter update"
  | parsesFound count => s!"Created {count} model parses for training sample"
  | parsingTime time => s!"Model parsing time: {(time / millisecondsPerSecond).fixedText 4}sec"
  | parsesSplit valid invalid => s!"{valid} valid parses, {invalid} invalid parses"
  | splitMissing => "No valid/invalid parses -- skipping"
  | violationsFound valid invalid =>
    s!"{valid} violating valid parses, {invalid} violating invalid parses"
  | violationsMissing => "There are no violating valid/invalid parses -- skipping"
  | marginUpdate direction => s!"Update: {direction.print}"
  | validMass mass => s!"Valid probability mass: {mass.fixedText 4}"
  | validMassMissing => "No valid parses -- skipping"
  | gradientUpdate rate gradient => s!"Gradient (rate={rate.fixedText 4}): {gradient.print}"
  | itemAssessed item results =>
    let shown := String.intercalate ", " (results.map Value.print)
    s!"{item} : {if shown.isEmpty then noParseText else shown}"
  | assessed accuracy mass =>
    s!"accuracy = {accuracy.fixedText 4}, valid probability mass = {mass.fixedText 4}"

/-- The line of the log for an event. -/
def line (event : Event Scalar) : LogLine :=
  ⟨event.severity, event.source, event.text⟩

/-- The log of a list of events from a rank on. The times that parses take are part of it only if
they were measured. -/
def log (rank : Nat) (timed : Bool) (events : List (Event Scalar)) : List LogLine :=
  visibleLines rank ((events.filter fun event => timed || !event.isTiming).map line)

/-- The events of a parse: first the shifts of meanings without term, then the forms without
value. -/
def ofReport {Number : Type} (report : ParseReport) : List (Event Number) :=
  List.replicate report.untypedShifts untypedMeaning ++ report.undefinedForms.map undefinedForm

end Event

end WordArithmetic
