/-
This file searches for derivations with a beam.

All configurations reached after the same number of actions advance together. Their continuations
are sorted by score, the best first and equal ones in the order in which they came, and only as
many as the beam is wide are carried out. A configuration that ends a derivation leaves the beam.
Every allowed action shrinks twice the number of words to come plus the height of the stack, so
twice the number of words bounds the number of rounds.
-/

import WordArithmetic.Search.Configuration
import WordArithmetic.Sorting.Runs

namespace WordArithmetic

/-- A configuration in the beam, with the steps that led to it, latest first. -/
structure Cell (Number : Type) where
  configuration : Configuration Number
  history : List (Configuration Number × Action)

/-- A cell with an action that may be carried out in it and the score that this would have. -/
structure Prediction (Number : Type) where
  cell : Cell Number
  action : Action
  score : Number

/-- What a search found: the cells that end derivations, whether no prediction was given up, and
how often a meaning without term was shifted. -/
structure Found (Number : Type) where
  cells : List (Cell Number)
  exact : Bool
  untypedShifts : Nat

/-- A failure that ends a search, with what was seen before it. -/
structure Interrupted where
  failure : Failure
  untypedShifts : Nat

namespace Cell

variable {Number : Type}

/-- The first cell of a search. -/
def start [Zero Number] (size : Nat) : Cell Number :=
  ⟨.start size, []⟩

/-- The action that led to a cell. -/
def lastAction (cell : Cell Number) : Option Action :=
  cell.history.head?.map Prod.snd

/-- The steps that led to a cell, in the order in which they were taken. -/
def steps (cell : Cell Number) : List (Configuration Number × Action) :=
  cell.history.reverse

/-- The actions that may follow in a cell. -/
def allowed (actions : List Action) (words : Array Word) (cell : Cell Number) : List Action :=
  actions.filter (cell.configuration.allows words cell.lastAction)

/-- An action in a cell, with the score that it would have in view of some observations. -/
def prediction [Zero Number] [Add Number] (weighting : Symbol → Number)
    (observations : List Symbol) (cell : Cell Number) (action : Action) : Prediction Number :=
  ⟨cell, action, cell.configuration.score +
    FeatureVector.totalConjoined weighting observations (.name action.label)⟩

/-- The actions that may follow in a cell, each with the score that it would have. -/
def predictions [Zero Number] [Add Number] (actions : List Action) (words : Array Word)
    (weighting : Symbol → Number) (cell : Cell Number) : List (Prediction Number) :=
  let observations := cell.configuration.observations words
  (cell.allowed actions words).map (cell.prediction weighting observations)

end Cell

namespace Prediction

variable {Number : Type}

/-- Carries out the action of a prediction. -/
def execute (words : Array Word) (prediction : Prediction Number) :
    Except Failure (Cell Number) := do
  let configuration := prediction.cell.configuration
  return ⟨← configuration.execute words prediction.action prediction.score,
    (configuration, prediction.action) :: prediction.cell.history⟩

/-- Whether the action of a prediction shifts a meaning without term. -/
def shiftsUntyped (words : Array Word) (prediction : Prediction Number) : Bool :=
  prediction.action.move = .shift &&
    match prediction.cell.configuration.buffer.head?.bind (words[·]?) with
    | some word => word.lacksTerm (prediction.action.macroName.getD "")
    | none => false

/-- How many predictions shift a meaning without term, up to the first that cannot be carried
out. -/
def countUntyped (words : Array Word) : List (Prediction Number) → Nat
  | [] => 0
  | first :: rest =>
    match first.execute words with
    | .ok _ => (if first.shiftsUntyped words then 1 else 0) + countUntyped words rest
    | .error _ => 0

/-- The first predictions of a list, as many as the beam is wide. A negative width counts from the
end of the list. -/
def prune (width : Int) (predictions : List (Prediction Number)) : List (Prediction Number) :=
  if width < 0 then predictions.take (predictions.length - width.natAbs)
  else predictions.take width.toNat

/-- Sorts predictions by score, the best first and equal ones in their order. Where some score is
undefined, and so not even equal to itself, the runs of the list decide the order. -/
def sort [BEq Number] [LT Number] [DecidableLT Number] (predictions : List (Prediction Number)) :
    List (Prediction Number) :=
  if predictions.all fun prediction => prediction.score == prediction.score then
    predictions.mergeSort fun left right => !decide (left.score < right.score)
  else Sorting.sortDescending (fun left right => left.score < right.score) predictions

/-- Sorting keeps the predictions. -/
theorem sort_perm [BEq Number] [LT Number] [DecidableLT Number]
    (predictions : List (Prediction Number)) : (sort predictions).Perm predictions := by
  unfold sort
  split
  · exact List.mergeSort_perm predictions _
  · exact Sorting.sortDescending_perm _ predictions

end Prediction

namespace Beam

variable {Number : Type} [Zero Number] [Add Number] [BEq Number] [LT Number] [DecidableLT Number]

/-- The predictions of a round, sorted. -/
def predict (actions : List Action) (words : Array Word) (weighting : Symbol → Number)
    (cells : List (Cell Number)) : List (Prediction Number) :=
  Prediction.sort (cells.flatMap (Cell.predictions actions words weighting))

/-- Searches on from the cells of a beam, for a number of rounds at most. -/
def searchFrom (actions : List Action) (width : Int) (words : Array Word)
    (weighting : Symbol → Number) :
    (rounds : Nat) → (cells : List (Cell Number)) → (found : Found Number) →
      Except Interrupted (Found Number)
  | 0, _, found => .ok found
  | rounds + 1, cells, found =>
    if cells.isEmpty then .ok found
    else
      let predictions := predict actions words weighting cells
      let pruned := (predictions.length : Int) > width
      let kept := if pruned then Prediction.prune width predictions else predictions
      let untypedShifts := found.untypedShifts + Prediction.countUntyped words kept
      match kept.mapM (Prediction.execute words) with
      | .error failure => .error ⟨failure, untypedShifts⟩
      | .ok reached =>
        let (final, next) := reached.partition fun cell => cell.configuration.isFinal
        searchFrom actions width words weighting rounds next
          ⟨found.cells ++ final, found.exact && !pruned, untypedShifts⟩

/-- The number of rounds after which a search over this many words is over. -/
def roundBound (size : Nat) : Nat :=
  2 * size + 1

/-- Searches for the derivations of a sequence of words. -/
def search (actions : List Action) (width : Int) (words : Array Word)
    (weighting : Symbol → Number) : Except Interrupted (Found Number) :=
  searchFrom actions width words weighting (roundBound words.size) [.start words.size]
    ⟨[], true, 0⟩

end Beam

end WordArithmetic
