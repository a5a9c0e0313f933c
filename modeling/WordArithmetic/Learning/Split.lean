/-
This file splits candidates into valid and invalid ones, and says what a weight vector has to
learn from them.

The weights should put every valid candidate above every invalid one by a margin. The candidates
that take part in a pair for which this fails are the violating ones. The update moves the weights
towards the mean of the violating valid candidates and away from the mean of the violating invalid
ones. Nothing here depends on what candidates are: their scores and features are given as
functions.
-/

import WordArithmetic.Failure
import WordArithmetic.FeatureVector.Basic

namespace WordArithmetic

/-- Candidates, split into valid and invalid ones. -/
structure Split (Candidate : Type) where
  valid : List Candidate
  invalid : List Candidate

namespace Split

variable {Candidate Number : Type}

/-- A pass over candidates: those that it has split so far, and the best score of valid ones, if
only the best are kept. -/
structure Pass (Candidate Number : Type) where
  split : Split Candidate
  best : Option Number

namespace Pass

/-- Puts a valid candidate behind those that are kept. -/
def add (pass : Pass Candidate Number) (candidate : Candidate) : Pass Candidate Number :=
  { pass with split := { pass.split with valid := pass.split.valid ++ [candidate] } }

/-- Puts an invalid candidate behind the others. -/
def reject (pass : Pass Candidate Number) (candidate : Candidate) : Pass Candidate Number :=
  { pass with split := { pass.split with invalid := pass.split.invalid ++ [candidate] } }

section Score

variable [LT Number] [DecidableLT Number] [BEq Number]

/-- Enters a valid candidate among the best ones: it takes the place of all of them if its score is
higher, stands beside them if it is the same, and is left out if it is neither. -/
def keepBest (score : Candidate → Number) (pass : Pass Candidate Number) (candidate : Candidate) :
    Pass Candidate Number :=
  if pass.best.all fun best => best < score candidate then
    ⟨{ pass.split with valid := [candidate] }, some (score candidate)⟩
  else if pass.best.any fun best => score candidate == best then pass.add candidate
  else pass

/-- Tests a candidate and enters it on its side. -/
def next (hard : Bool) (score : Candidate → Number) (accepts : Candidate → Except Failure Bool)
    (pass : Pass Candidate Number) (candidate : Candidate) :
    Except Failure (Pass Candidate Number) := do
  if ← accepts candidate then
    return if hard then pass.keepBest score candidate else pass.add candidate
  else return pass.reject candidate

end Score

end Pass

/-- Splits a list of candidates by a test, in one pass. A hard split keeps only the best valid
ones. -/
def ofCandidates [LT Number] [DecidableLT Number] [BEq Number] [LogScore Number] (hard : Bool)
    (score : Candidate → Number) (accepts : Candidate → Except Failure Bool)
    (candidates : List Candidate) : Except Failure (Split Candidate) := do
  let pass ← candidates.foldlM (Pass.next hard score accepts) ⟨⟨[], []⟩, LogScore.floor⟩
  return pass.split

/-- Replaces every candidate. -/
def map {Other : Type} (change : Candidate → Other) (split : Split Candidate) : Split Other :=
  ⟨split.valid.map change, split.invalid.map change⟩

/-- Whether one of the sides has no candidate. -/
def isOneSided (split : Split Candidate) : Bool :=
  split.valid.isEmpty || split.invalid.isEmpty

/-- Whether a valid candidate fails to beat an invalid one by the margin. -/
def violates [Sub Number] [LT Number] [DecidableLT Number] (score : Candidate → Number)
    (margin : Number) (valid invalid : Candidate) : Bool :=
  score valid - score invalid < margin

/-- The candidates of both sides that violate the margin together with some candidate of the other
side. -/
def violating [Sub Number] [LT Number] [DecidableLT Number] (score : Candidate → Number)
    (margin : Number) (split : Split Candidate) : Split Candidate where
  valid := split.valid.filter fun candidate =>
    split.invalid.any fun other => violates score margin candidate other
  invalid := split.invalid.filter fun candidate =>
    split.valid.any fun other => violates score margin other candidate

section Update

variable [Zero Number] [One Number] [Neg Number] [Add Number] [Mul Number] [Div Number]
  [BEq Number] [NatCast Number]

/-- Adds the features of some candidates to a vector, each multiplied by a share of a weight. -/
def addShares (weight : Number) (features : Candidate → FeatureVector Number)
    (candidates : List Candidate) (vector : FeatureVector Number) : FeatureVector Number :=
  candidates.foldl (fun vector candidate =>
    FeatureVector.addTimes (weight / (candidates.length : Number)) (features candidate) vector)
    vector

/-- The mean features of the valid candidates less the mean features of the invalid ones. -/
def direction (features : Candidate → FeatureVector Number) (split : Split Candidate) :
    FeatureVector Number :=
  FeatureVector.dropZeros
    (addShares (-1) features split.invalid
      (addShares 1 features split.valid FeatureVector.zero))

end Update

end Split

end WordArithmetic
