/-
This file joins parses with the results of executing them.

A pair is a parse with one evaluation of its latent form. The pairs of an input are grouped by the
result of the evaluation, so that a group stands for all ways to arrive at one result. The
partition function and the expected features of the joint model are computed on groups: a pair
weighs the mass of its parse times the mass of its evaluation, and the features of the derivations
are collected in one pass over the parse forest, in which the outside score of a form is the mass
of its evaluations.
-/

import WordArithmetic.Forest.Base
import WordArithmetic.Value

namespace WordArithmetic

/-- One execution: its result, its log score and the features of the execution alone. -/
structure Evaluation (Number : Type) where
  result : Value
  score : Number
  features : FeatureVector Number

/-- A parse with an evaluation of its latent form. -/
structure Pair (Form Number : Type) where
  parse : Parse Form Number
  evaluation : Evaluation Number

/-- The pairs of one result. There is at least one. -/
structure Group (Form Number : Type) where
  result : Value
  first : Pair Form Number
  rest : List (Pair Form Number)

/-- The output of joint inference for one input. -/
structure JointForest (Form Number : Type) where
  base : ParseForest Form Number
  time : Number
  groups : List (Group Form Number)
  exactEvaluation : Bool

variable {Form Number : Type}

/-- An evaluation in print. -/
def Evaluation.print (evaluation : Evaluation Scalar) : String :=
  s!"{evaluation.result.print}[{evaluation.score.fixedText 4}]"

namespace Pair

/-- The mass of a pair. A parse without mass makes a pair without mass, however large the score of
the evaluation. -/
def inside [Zero Number] [Mul Number] [BEq Number] [LogScore Number] (pair : Pair Form Number) :
    Number :=
  if pair.parse.inside == 0 then 0
  else LogScore.exp pair.evaluation.score * pair.parse.inside

/-- The log score of the best derivation of a pair. -/
def viterbi [Add Number] [LogScore Number] (pair : Pair Form Number) : Number :=
  pair.parse.score + pair.evaluation.score

/-- A pair in print. -/
def print [ToString Form] (pair : Pair Form Scalar) : String :=
  s!"{toString pair.parse.form} => {pair.evaluation.print}"

end Pair

namespace Group

/-- The pairs of a group, in the order in which they came. -/
def members (group : Group Form Number) : List (Pair Form Number) :=
  group.first :: group.rest

/-- Adds a pair to a group. -/
def add (group : Group Form Number) (pair : Pair Form Number) : Group Form Number :=
  { group with rest := group.rest ++ [pair] }

/-- The mass of a group. -/
def inside [Zero Number] [Add Number] [Mul Number] [BEq Number] [LogScore Number]
    (group : Group Form Number) : Number :=
  total (group.members.map Pair.inside)

/-- The best pair of a group, the first if several are best. -/
def best [Add Number] [LT Number] [DecidableLT Number] [LogScore Number]
    (group : Group Form Number) : Pair Form Number :=
  firstLargest Pair.viterbi group.first group.rest

section Candidate

variable [Add Number] [LT Number] [DecidableLT Number] [LogScore Number]

/-- The latent form of the best pair. -/
def form (group : Group Form Number) : Form :=
  group.best.parse.form

/-- The score of the best pair. -/
def score (group : Group Form Number) : Number :=
  group.best.viterbi

/-- The features of the best pair: those of its derivation and those of its evaluation. -/
def features [Zero Number] [One Number] [Mul Number] [BEq Number] (group : Group Form Number) :
    FeatureVector Number :=
  FeatureVector.add group.best.parse.features group.best.evaluation.features

end Candidate

/-- Whether some pair of a group has no mass or no score, as it is beyond the range of numbers. -/
def isLost (group : Group Form Scalar) : Bool :=
  group.members.any fun pair => pair.inside.isLost || pair.viterbi.isLost

/-- The group of a list of pairs with a result, if there is a pair. -/
def ofMembers? (result : Value) : List (Pair Form Scalar) → Except Failure (Group Form Scalar)
  | first :: rest =>
    if isLost ⟨result, first, rest⟩ then .error .integerTooLarge else .ok ⟨result, first, rest⟩
  | [] => .error (.emptyGroup result.print)

/-- A group in print. -/
def print (group : Group Form Scalar) : String :=
  let inside := group.inside.fixedText 4
  let score := group.score.fixedText 4
  s!"{group.result.print} (inside={inside}, score={score}, {group.members.length} pairs)"

/-! ### Grouping -/

/-- Puts a pair into the first group with its result, or makes a group for it at the end. -/
def place (pair : Pair Form Number) : List (Group Form Number) → List (Group Form Number)
  | [] => [⟨pair.evaluation.result, pair, []⟩]
  | group :: rest =>
    if pair.evaluation.result.same group.result then group.add pair :: rest
    else group :: place pair rest

/-- The groups of a list of pairs, in the order of the first pair of each. -/
def ofPairs (pairs : List (Pair Form Number)) : List (Group Form Number) :=
  pairs.foldl (fun groups pair => place pair groups) []

/-- The groups whose result passes a test. -/
def select (groups : List (Group Form Number)) (accept : Value → Except Failure Bool) :
    Except Failure (List (Group Form Number)) :=
  groups.filterM fun group => accept group.result

/-- The groups of largest mass. -/
def largest [Zero Number] [Add Number] [Mul Number] [BEq Number] [LT Number] [DecidableLT Number]
    [LogScore Number] (groups : List (Group Form Number)) : List (Group Form Number) :=
  allLargest Group.inside groups

end Group

/-- What keeps the pairs of an input from making a joint forest. -/
inductive Obstacle (Form : Type) where
  /-- The result of a pair cannot be a key, because of a value of this kind. -/
  | malformed (container : String) (pair : Pair Form Scalar)
  /-- A pair has a number beyond the range of floats. -/
  | outOfRange

/-- The failure that an obstacle is reported as. A pair with a score beyond the range of floats
cannot even be shown. -/
def Obstacle.failure [ToString Form] : Obstacle Form → Failure
  | malformed container pair =>
    match pair.evaluation.score.toFloat with
    | .ok _ => .malformedPair container pair.print
    | .error failure => failure
  | outOfRange => .integerTooLarge

namespace JointForest

/-- The first pair whose result cannot be a key, with the kind of value that prevents it. -/
def malformedPair? (pairs : List (Pair Form Number)) : Option (String × Pair Form Number) :=
  pairs.findSome? fun pair => pair.evaluation.result.unhashable?.map (·, pair)

/-- The joint forest of a list of pairs whose results are keys. -/
def ofPairs (base : ParseForest Form Number) (pairs : List (Pair Form Number)) (time : Number)
    (exactEvaluation : Bool) : JointForest Form Number :=
  ⟨base, time, Group.ofPairs pairs, exactEvaluation⟩

/-- The joint forest of a list of pairs, or what keeps the pairs from making one: the first pair
whose result is no key, or else a group without measure. -/
def assemble (base : ParseForest Form Scalar) (pairs : List (Pair Form Scalar)) (time : Scalar)
    (exactEvaluation : Bool) : Except (Obstacle Form) (JointForest Form Scalar) :=
  match malformedPair? pairs with
  | some (container, pair) => .error (.malformed container pair)
  | none =>
    let forest := ofPairs base pairs time exactEvaluation
    if forest.groups.any Group.isLost then .error .outOfRange else .ok forest

/-- The joint forest of a list of pairs, or the failure that an obstacle is reported as. -/
def build [ToString Form] (base : ParseForest Form Scalar) (pairs : List (Pair Form Scalar))
    (time : Scalar) (exactEvaluation : Bool) : Except Failure (JointForest Form Scalar) :=
  (assemble base pairs time exactEvaluation).mapError Obstacle.failure

/-- Whether nothing was given up, neither in parsing nor in execution. -/
def exact (forest : JointForest Form Number) : Bool :=
  forest.exactEvaluation && forest.base.exact

section Inference

variable [Zero Number] [Add Number] [Mul Number] [BEq Number] [LogScore Number]

/-- The groups of largest mass. -/
def best [LT Number] [DecidableLT Number] (forest : JointForest Form Number) :
    List (Group Form Number) :=
  Group.largest forest.groups

/-- The mass of some groups. -/
def norm (groups : List (Group Form Number)) : Number :=
  total (groups.map Group.inside)

/-- The outside score of a latent form: the mass of its evaluations in some groups. -/
def outside [BEq Form] (groups : List (Group Form Number)) (form : Form) : Number :=
  total (((groups.flatMap Group.members).filter fun pair => pair.parse.form == form).map
    fun pair => LogScore.exp pair.evaluation.score)

/-- The features of a list of pairs' evaluations, each weighted with the mass of its pair, added
to a vector. -/
def addEvaluationFeatures (pairs : List (Pair Form Number)) (expected : FeatureVector Number) :
    FeatureVector Number :=
  pairs.foldl (fun expected pair =>
    if pair.parse.inside == 0 then expected
    else
      FeatureVector.addTimes (LogScore.exp pair.evaluation.score * pair.parse.inside)
        pair.evaluation.features expected) expected

/-- The features of the joint derivations of some groups, each weighted with its mass. -/
def expectedFeatures [BEq Form] (forest : JointForest Form Number)
    (groups : List (Group Form Number)) : FeatureVector Number :=
  addEvaluationFeatures (groups.flatMap Group.members)
    (forest.base.expectedFeatures (outside groups))

end Inference

/-- A joint forest in print: its groups, one a line. -/
def print (forest : JointForest Form Scalar) : String :=
  String.intercalate "\n" (forest.groups.map Group.print)

end JointForest

end WordArithmetic
