/-
This file holds the learner, which goes through a training collection epoch by epoch.

Every item that is not too long is parsed under the current weights, and its rule decides about
it. All that a learner leaves behind is in its progress: the weights, the number of updates, the
events, the marks and the parses made. The progress up to a failure is kept.
-/

import WordArithmetic.Corpus.Example
import WordArithmetic.Learning.Settings
import WordArithmetic.Learning.Validator

namespace WordArithmetic

/-- A learner: its settings, and the items of its training collection. -/
structure Learner (Form Number : Type) extends LearnerSettings Number where
  items : List (Item Form Number)

/-- What is remembered of a parse: the time it took, the best results, and whether nothing was
given up. -/
structure Parsing (Number : Type) where
  time : Number
  best : List Value
  exact : Bool

/-- How far a learner has come. Events, marks and parses stand with the latest first. -/
structure Progress (Number : Type) where
  theta : FeatureVector Number
  updates : Nat
  events : List (Event Number)
  record : Record
  parsings : List (Parsing Number)

variable {Form Number : Type}

/-- The item of an example, which is parsed with a parser and tested with a validator. -/
def Item.ofExample [Zero Number] [One Number] [Add Number] [Mul Number] [BEq Number] [LT Number]
    [DecidableLT Number] [LogScore Number] (parser : Parser) (validator : Validator LatentForm)
    (entry : Example) : Item LatentForm Number where
  shown := entry.print
  length := entry.words.length
  parse := parser.parse entry.words.toArray
  accepts := validator.accepts entry.answer
  gold := none

namespace Progress

/-- The progress before the first item. -/
def start (theta : FeatureVector Number) (events : List (Event Number)) : Progress Number :=
  ⟨theta, 0, events.reverse, [], []⟩

/-- Reports events. -/
def report (progress : Progress Number) (events : List (Event Number)) : Progress Number :=
  { progress with events := events.reverse ++ progress.events }

/-- Sets marks at a place. -/
def mark (progress : Progress Number) (place : Place) (marks : List Mark) : Progress Number :=
  { progress with record := (marks.map fun mark => (place, mark)).reverse ++ progress.record }

/-- Remembers a parse. -/
def parsed [Zero Number] [Add Number] [Mul Number] [BEq Number] [LT Number] [DecidableLT Number]
    [LogScore Number] (progress : Progress Number) (forest : JointForest Form Number) :
    Progress Number :=
  { progress with
    parsings := ⟨forest.time, forest.best.map Group.result, forest.exact⟩ :: progress.parsings }

/-- Carries out a decision about the item at a place; the flag tells whether the weights have
moved. -/
def carryOut [Zero Number] [Add Number] [Mul Number] [BEq Number] (progress : Progress Number)
    (place : Place) : Decision Number → Progress Number × Bool
  | .skip reason => (progress.mark place [.skipped reason], false)
  | .move rate direction =>
    ({ progress.mark place [.updated] with
        theta := FeatureVector.addTimes rate direction progress.theta
        updates := progress.updates + 1 }, true)

/-- The mean time of the parses. -/
def meanTime [Zero Number] [Add Number] [Div Number] [NatCast Number]
    (progress : Progress Number) : Number :=
  if progress.parsings.isEmpty then 0
  else total (progress.parsings.reverse.map Parsing.time) / (progress.parsings.length : Number)

end Progress

namespace Learner

variable [ToString Form] [BEq Form] [Zero Number] [One Number] [Neg Number] [Add Number]
  [Sub Number] [Mul Number] [Div Number] [BEq Number] [LT Number] [DecidableLT Number]
  [NatCast Number] [LogScore Number]

/-- What a learner reports when it is made. -/
def introduction (learner : Learner Form Number) : List (Event Number) :=
  match learner.rule with
  | some (.largeMargin margin hard) =>
    [.marginLearner learner.iterations margin hard learner.items.length learner.longest]
  | _ => []

/-- Learns from one item, which stands at a place. The answer tells whether the weights have
moved. -/
def learn (learner : Learner Form Number) (place : Place) (item : Item Form Number)
    (progress : Progress Number) : Progress Number × Except Failure Bool :=
  match learner.rule with
  | none => (progress, .error .noUpdateRule)
  | some rule =>
    let (report, parsed) := item.parse progress.theta
    let reported := progress.report (Event.ofReport report)
    match parsed with
    | .error failure => (reported, .error failure)
    | .ok forest =>
      let trial := rule.apply item progress.theta progress.updates forest
      let tried := ((reported.parsed forest).report trial.events).mark place trial.marks
      match trial.decision with
      | .error failure => (tried, .error failure)
      | .ok decision =>
        let (next, moved) := tried.carryOut place decision
        (next, .ok moved)

/-- Learns from an item of an epoch unless it is too long. -/
def visit (learner : Learner Form Number) (epoch number : Nat) (item : Item Form Number)
    (progress : Progress Number) : Progress Number × Except Failure Unit :=
  let place : Place := ⟨epoch, number⟩
  let reached := progress.report [.itemReached number epoch, .itemShown item.shown]
  if learner.longest < item.length then
    ((reached.report [.itemTooLong]).mark place [.skipped .tooLong], .ok ())
  else
    let (next, outcome) := learner.learn place item reached
    (next, outcome.map fun _ => ())

/-- Learns from the items of an epoch, the first of which has a given number. -/
def visitAll (learner : Learner Form Number) (epoch : Nat) :
    (number : Nat) → List (Item Form Number) → Progress Number →
      Progress Number × Except Failure Unit
  | _, [], progress => (progress, .ok ())
  | number, item :: rest, progress =>
    match learner.visit epoch number item progress with
    | (next, .ok ()) => learner.visitAll epoch (number + 1) rest next
    | (next, .error failure) => (next, .error failure)

/-- Goes through the collection once. -/
def runEpoch (learner : Learner Form Number) (epoch : Nat) (progress : Progress Number) :
    Progress Number × Except Failure Unit :=
  match learner.visitAll epoch 0 learner.items (progress.report [.epochStarted epoch]) with
  | (next, .ok ()) => (next.report [.epochEnded (next.record.summary epoch)], .ok ())
  | (next, .error failure) => (next, .error failure)

/-- Goes through the collection in each of a list of epochs. -/
def runEpochs (learner : Learner Form Number) :
    List Nat → Progress Number → Progress Number × Except Failure Unit
  | [], progress => (progress, .ok ())
  | epoch :: rest, progress =>
    match learner.runEpoch epoch progress with
    | (next, .ok ()) => learner.runEpochs rest next
    | (next, .error failure) => (next, .error failure)

/-- Trains for all epochs. -/
def train (learner : Learner Form Number) (progress : Progress Number) :
    Progress Number × Except Failure Unit :=
  match learner.runEpochs (List.range learner.iterations.toNat) progress with
  | (next, .ok ()) =>
    if LogScore.isTooLarge next.meanTime then (next, .error .integerTooLarge)
    else (next.report [.meanTime next.meanTime], .ok ())
  | (next, .error failure) => (next, .error failure)

end Learner

end WordArithmetic
