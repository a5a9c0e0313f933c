/-
This file is the program as a function of its arguments and of the files that it can read.

A run trains a model on one corpus, assesses it on the same or another one, and leaves a log. The
times that parses take are no part of it, since a function has no clock.
-/

import WordArithmetic.CommandLine.Arguments
import WordArithmetic.CommandLine.Files
import WordArithmetic.Learning.Assessment
import WordArithmetic.Learning.Learner

namespace WordArithmetic.CommandLine

/-- How a run of the program ends. -/
inductive Outcome where
  | help
  | refused
  | finished (log : List LogLine)
  | failed (failure : Failure)

/-- What reading a file of some name comes to. -/
abbrev Files := String → Except Failure String

namespace Outcome

/-- The exit code of a run that ends in order. -/
def exitCode? : Outcome → Option Nat
  | help | finished _ => some 0
  | refused => some 2
  | failed _ => none

/-- The lines of the log. -/
def log : Outcome → List LogLine
  | finished log => log
  | _ => []

end Outcome

/-- The events of reading examples. -/
def readingEvents {Number : Type} (examples : List Example) : List (Event Number) :=
  examples.map fun entry => .questionRead (entry.words.map Word.print)

namespace Options

/-- The width of the beam, which has to be given if anything is parsed. -/
def beamWidth (options : Options) (parses : Bool) : Except Failure Int :=
  match options.beam with
  | some width => .ok width
  | none => if parses then .error .notOrdered else .ok Parser.defaultWidth

/-- The events of a run: a model is trained on some examples and assessed on others. -/
def events (options : Options) (lexicon : Lexicon) (train test : List Example) :
    Except Failure (List (Event Scalar)) := do
  let settings ← options.learnerSettings
  let trains := 0 < settings.iterations && !train.isEmpty
  let parser := Parser.ofLexicon lexicon (← options.beamWidth (trains || !test.isEmpty))
  let itemOf := Item.ofExample parser (.answer Validator.defaultPlaces)
  let learner : Learner LatentForm Scalar := ⟨settings, train.map itemOf⟩
  let read := readingEvents train ++
    if options.test.isEmpty then [] else readingEvents test
  let (progress, trained) :=
    learner.train (Progress.start FeatureVector.zero (read ++ learner.introduction))
  trained
  let (reported, assessment) := Assessment.ofItems progress.theta (test.map itemOf)
  let assessment ← assessment
  return progress.events.reverse ++ reported ++
    [.assessed assessment.accuracy assessment.mass]

/-- The rank of the log. Only a name can be a level. -/
def logRank (options : Options) : Except Failure Nat :=
  match options.logLevel with
  | some name => readLogLevel name
  | none => .error .notSupported

/-- The log of a run with some training data. -/
def log (options : Options) (files : Files) (data : String) : Except Failure (List LogLine) := do
  let rank ← options.logRank
  let lexicon ← if options.lexicon.isEmpty then Lexicon.default
    else do Lexicon.ofText Session.arithmetic (← files options.lexicon)
  let train ← Example.readAll lexicon (← files data)
  let test ← if options.test.isEmpty then pure train
    else do Example.readAll lexicon (← files options.test)
  return Event.log rank false (← options.events lexicon train test)

end Options

namespace Request

/-- Answers a request. -/
def outcome (files : Files) : Request → Outcome
  | help => .help
  | refused => .refused
  | run data options =>
    match options.log files data with
    | .ok log => .finished log
    | .error failure => .failed failure

/-- Answers a request in a working directory. -/
def outcomeIn (tree : FileTree) (request : Request) : Outcome :=
  request.outcome tree.read

/-- The names of the files that a request needs. -/
def fileNames : Request → List String
  | run data options => [options.lexicon, data, options.test].filter fun name => !name.isEmpty
  | _ => []

end Request

end WordArithmetic.CommandLine
