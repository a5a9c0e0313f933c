/-
This file merges two runs.

A merge compares the nearest elements of the two runs and takes the lower one, the one of the first
run if they are equal. When one of the runs has won as often in a row as there is patience for, the
merge gallops: it looks for the end of all that can be taken from a run at once. As long as that is
much, it gallops on and loses patience; when it is little, it gains patience and compares again.
The shorter run decides whether the merge goes forward from the fronts or backward from the ends.

A merge is carried out in two steps. First it is decided which run each element comes from, and
then the runs are woven together accordingly. So a merge never loses an element, whatever the
comparison is, as the main statement says.
-/

import WordArithmetic.Sorting.Bisection

namespace WordArithmetic.Sorting

/-- One of the two runs of a merge. -/
inductive Side where
  | first
  | second
deriving DecidableEq

/-- The runs that elements are taken from, the latest decision first, with the patience left. -/
structure Weaving where
  sides : List Side
  patience : Nat

/-- How many elements have to be taken at once for a merge to gallop on. -/
def leastGallop : Nat := 7

/-- Puts a number of equal decisions before others. -/
def repeated (count : Nat) (side : Side) (sides : List Side) : List Side :=
  List.replicate count side ++ sides

/-- The patience of a merge that gallops on. -/
def impatient (patience : Nat) : Nat :=
  if patience > 1 then patience - 1 else patience

/-- How a merge goes on: by comparing, after so many wins in a row, or by galloping. -/
inductive Pace where
  | comparing (firstWins secondWins : Nat)
  | galloping

section Decision

/-! ### Deciding -/

variable (beats : Nat → Nat → Bool) (firstSize secondSize : Nat)

/-- Decides a merge forward. So many elements of each run have been taken; `beats` tells whether the
element of the second run at some position is below the one of the first run at another. -/
def forward : (fuel : Nat) → (pace : Pace) → (taken other : Nat) → Weaving → Weaving
  | 0, _, _, _, weaving => weaving
  | fuel + 1, .comparing firstWins secondWins, taken, other, ⟨sides, patience⟩ =>
    if beats other taken then
      let sides := .second :: sides
      if other + 1 = secondSize then ⟨sides, patience⟩
      else
        let pace := if secondWins + 1 ≥ patience then .galloping else .comparing 0 (secondWins + 1)
        forward fuel pace taken (other + 1) ⟨sides, patience⟩
    else
      let sides := .first :: sides
      if taken + 2 = firstSize then ⟨repeated (secondSize - other) .second sides, patience⟩
      else
        let pace := if firstWins + 1 ≥ patience then .galloping else .comparing (firstWins + 1) 0
        forward fuel pace (taken + 1) other ⟨sides, patience⟩
  | fuel + 1, .galloping, taken, other, ⟨sides, patience⟩ =>
    let firstCount :=
      gallop (fun index => !beats other (taken + index)) (firstSize - taken) 0
    let taken := taken + firstCount
    let sides := repeated firstCount .first sides
    if taken + 1 = firstSize then ⟨repeated (secondSize - other) .second sides, patience⟩
    else if taken = firstSize then ⟨sides, patience⟩
    else
      let other := other + 1
      let sides := .second :: sides
      if other = secondSize then ⟨sides, patience⟩
      else
        let secondCount :=
          gallop (fun index => beats (other + index) taken) (secondSize - other) 0
        let other := other + secondCount
        let sides := repeated secondCount .second sides
        if other = secondSize then ⟨sides, patience⟩
        else
          let taken := taken + 1
          let sides := .first :: sides
          if taken + 1 = firstSize then ⟨repeated (secondSize - other) .second sides, patience⟩
          else if firstCount ≥ leastGallop || secondCount ≥ leastGallop then
            forward fuel .galloping taken other ⟨sides, impatient patience⟩
          else forward fuel (.comparing 0 0) taken other ⟨sides, patience + 1⟩

/-- Decides a merge backward. So many elements of each run are left. -/
def backward : (fuel : Nat) → (pace : Pace) → (left other : Nat) → Weaving → Weaving
  | 0, _, _, _, weaving => weaving
  | fuel + 1, .comparing firstWins secondWins, left, other, ⟨sides, patience⟩ =>
    if beats (other - 1) (left - 1) then
      let sides := .first :: sides
      if left = 1 then ⟨sides, patience⟩
      else
        let pace := if firstWins + 1 ≥ patience then .galloping else .comparing (firstWins + 1) 0
        backward fuel pace (left - 1) other ⟨sides, patience⟩
    else
      let sides := .second :: sides
      if other = 2 then ⟨repeated left .first sides, patience⟩
      else
        let pace := if secondWins + 1 ≥ patience then .galloping else .comparing 0 (secondWins + 1)
        backward fuel pace left (other - 1) ⟨sides, patience⟩
  | fuel + 1, .galloping, left, other, ⟨sides, patience⟩ =>
    let kept := gallop (fun index => !beats (other - 1) index) left (left - 1)
    let firstCount := left - kept
    let left := kept
    let sides := repeated firstCount .first sides
    if left = 0 then ⟨sides, patience⟩
    else
      let other := other - 1
      let sides := .second :: sides
      if other = 1 then ⟨repeated left .first sides, patience⟩
      else
        let kept := gallop (fun index => beats index (left - 1)) other (other - 1)
        let secondCount := other - kept
        let other := kept
        let sides := repeated secondCount .second sides
        if other = 1 then ⟨repeated left .first sides, patience⟩
        else if other = 0 then ⟨sides, patience⟩
        else
          let left := left - 1
          let sides := .first :: sides
          if left = 0 then ⟨sides, patience⟩
          else if firstCount ≥ leastGallop || secondCount ≥ leastGallop then
            backward fuel .galloping left other ⟨sides, impatient patience⟩
          else backward fuel (.comparing 0 0) left other ⟨sides, patience + 1⟩

/-- Decides a merge forward. The front of the second run is known to come first. -/
def decideForward (patience : Nat) : Weaving :=
  let sides := [Side.second]
  if secondSize = 1 then ⟨sides, patience⟩
  else if firstSize = 1 then ⟨repeated (secondSize - 1) .second sides, patience⟩
  else
    forward beats firstSize secondSize (firstSize + secondSize) (.comparing 0 0) 0 1 ⟨sides, patience⟩

/-- Decides a merge backward. The end of the first run is known to come last. -/
def decideBackward (patience : Nat) : Weaving :=
  let sides := [Side.first]
  if firstSize = 1 then ⟨sides, patience⟩
  else if secondSize = 1 then ⟨repeated (firstSize - 1) .first sides, patience⟩
  else
    backward beats (firstSize + secondSize) (.comparing 0 0) (firstSize - 1)
      secondSize ⟨sides, patience⟩

end Decision

/-! ### Weaving -/

section Weave

variable {Element : Type}

/-- Takes elements from two lists as decided, and then what is left of them. -/
def weave : List Side → (first second : List Element) → List Element
  | .first :: sides, element :: first, second => element :: weave sides first second
  | .second :: sides, first, element :: second => element :: weave sides first second
  | _, first, second => first ++ second

/-- Weaving keeps all elements. -/
theorem weave_perm (sides : List Side) (first second : List Element) :
    (weave sides first second).Perm (first ++ second) := by
  fun_induction weave sides first second with
  | case1 sides element first second inductionHypothesis =>
    exact inductionHypothesis.cons element
  | case2 sides first element second inductionHypothesis =>
    exact (inductionHypothesis.cons element).trans List.perm_middle.symm
  | case3 => exact List.Perm.refl _

/-- Weaves two runs as a merge decides, in the direction that the shorter one asks for. -/
def weaveRuns (beats : Nat → Nat → Bool) (patience : Nat) (first second : List Element) :
    List Element × Nat :=
  if first.length ≤ second.length then
    let weaving := decideForward beats first.length second.length patience
    (weave weaving.sides.reverse first second, weaving.patience)
  else
    let weaving := decideBackward beats first.length second.length patience
    ((weave weaving.sides.reverse first.reverse second.reverse).reverse, weaving.patience)

/-- Weaving two runs keeps all elements. -/
theorem weaveRuns_perm (beats : Nat → Nat → Bool) (patience : Nat) (first second : List Element) :
    (weaveRuns beats patience first second).1.Perm (first ++ second) := by
  unfold weaveRuns
  split
  · exact weave_perm _ first second
  · refine (List.reverse_perm _).trans ((weave_perm _ _ _).trans ?_)
    exact (List.reverse_perm first).append (List.reverse_perm second)

/-- Whether an element of one array is below an element of another. -/
def beatsAt (below : Element → Element → Bool) (first second : Array Element)
    (position other : Nat) : Bool :=
  match second[position]?, first[other]? with
  | some element, some rival => below element rival
  | _, _ => false

/-- Merges two runs. What the first one has up to the place of the second one's front stays in
front, and what the second one has from the place of the first one's end stays behind. The patience
after the merge is told too. -/
def merge (below : Element → Element → Bool) (patience : Nat) (first second : List Element) :
    List Element × Nat :=
  let beats := beatsAt below first.toArray second.toArray
  let front := gallop (fun index => !beats 0 index) first.length 0
  let behind := gallop (beats · (first.length - 1)) second.length (second.length - 1)
  if first.length ≤ front || behind = 0 then (first ++ second, patience)
  else
    let (woven, patience) := weaveRuns (fun position other => beats position (front + other))
      patience (first.drop front) (second.take behind)
    (first.take front ++ woven ++ second.drop behind, patience)

/-- A merge keeps all elements. -/
theorem merge_perm (below : Element → Element → Bool) (patience : Nat)
    (first second : List Element) :
    (merge below patience first second).1.Perm (first ++ second) := by
  unfold merge
  dsimp only
  split
  · exact List.Perm.refl _
  · generalize gallop (fun index => !beatsAt below first.toArray second.toArray 0 index)
      first.length 0 = front
    generalize gallop (beatsAt below first.toArray second.toArray · (first.length - 1))
      second.length (second.length - 1) = behind
    refine (((weaveRuns_perm _ patience _ _).append_left _).append_right _).trans ?_
    rw [← List.append_assoc, List.take_append_drop, List.append_assoc, List.take_append_drop]

end Weave

end WordArithmetic.Sorting
