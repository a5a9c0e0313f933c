/-
This file assesses weights on a collection of items.

The accuracy is the share of the items whose only best group is valid, and the mass is the mean
share of the valid results in the mass of all results. An item without parses counts as wrong and
adds no mass.
-/

import WordArithmetic.Learning.UpdateRule

namespace WordArithmetic

/-- How well a model does: its accuracy, and the mean mass that it gives to valid results. -/
structure Assessment (Number : Type) where
  accuracy : Number
  mass : Number

namespace Assessment

variable {Form Number : Type}

/-- What is counted over the items: how many are right, and the sum of their valid masses. -/
structure Tally (Number : Type) where
  correct : Nat
  mass : Number

/-- The tally of no item. -/
def Tally.start [Zero Number] : Tally Number := ⟨0, 0⟩

/-- The assessment of a number of items with a tally. -/
def ofTally [Zero Number] [Div Number] [NatCast Number] (tally : Tally Number) (items : Nat) :
    Assessment Number :=
  if items = 0 then ⟨0, 0⟩
  else ⟨(tally.correct : Number) / (items : Number), tally.mass / (items : Number)⟩

variable [BEq Form] [Zero Number] [Add Number] [Mul Number] [Div Number] [BEq Number]
  [LT Number] [DecidableLT Number] [LogScore Number]

/-- Whether the only best group of a forest is valid for an item. -/
def isCorrect (item : Item Form Number) (forest : JointForest Form Number) : Except Failure Bool :=
  match forest.best with
  | [group] => item.accepts (some group.form) group.result
  | _ => .ok false

/-- Counts the forest of an item. -/
def count (item : Item Form Number) (forest : JointForest Form Number) (tally : Tally Number) :
    Except Failure (Tally Number) := do
  let correct := if ← isCorrect item forest then tally.correct + 1 else tally.correct
  let norm := JointForest.norm forest.groups
  if 0 < norm then
    let valid ← Group.select forest.groups (item.accepts none)
    return ⟨correct, tally.mass + JointForest.norm valid / norm⟩
  else return ⟨correct, tally.mass⟩

/-- Counts items one after the other, and reports what happens. -/
def countAll (theta : FeatureVector Number) :
    List (Item Form Number) → Tally Number → List (Event Number) × Except Failure (Tally Number)
  | [], tally => ([], .ok tally)
  | item :: rest, tally =>
    let (report, parsed) := item.parse theta
    let events := Event.ofReport report
    match parsed.bind fun forest => (count item forest tally).map (forest, ·) with
    | .error failure => (events, .error failure)
    | .ok (forest, next) =>
      let (later, outcome) := countAll theta rest next
      (events ++ .itemAssessed item.shown (forest.best.map Group.result) :: later, outcome)

/-- Assesses weights on a list of items. -/
def ofItems [NatCast Number] (theta : FeatureVector Number) (items : List (Item Form Number)) :
    List (Event Number) × Except Failure (Assessment Number) :=
  let (events, outcome) := countAll theta items Tally.start
  (events, outcome.map fun tally => ofTally tally items.length)

end Assessment

end WordArithmetic
