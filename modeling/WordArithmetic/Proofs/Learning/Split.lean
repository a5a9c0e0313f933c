/-
This file says how candidates are split and what direction a split gives, over exact numbers.

If the test answers for every candidate, a split consists of those that pass and those that do not,
and a hard split keeps of the former those that no other one exceeds. The weights of the direction
are then plain means. All of this is unaffected by replacing candidates by others with the same
scores and features.
-/

import Mathlib.Algebra.BigOperators.Ring.List
import Mathlib.Algebra.Field.Defs
import WordArithmetic.Proofs.FeatureVector
import WordArithmetic.Proofs.Learning.Pass

namespace WordArithmetic

namespace Split

variable {Candidate Other Number : Type}

theorem isOneSided_iff {split : Split Candidate} :
    split.isOneSided = true ↔ split.valid = [] ∨ split.invalid = [] := by
  rw [isOneSided, Bool.or_eq_true, List.isEmpty_iff, List.isEmpty_iff]

section Kept

variable [LinearOrder Number] (hard : Bool) (score : Candidate → Number)
  (valid : Candidate → Bool)

/-- The valid candidates that are kept: all of them, or those that no other one exceeds. -/
def kept (candidates : List Candidate) : List Candidate :=
  let accepted := candidates.filter valid
  if hard then
    accepted.filter fun candidate => decide (∀ other ∈ accepted, score other ≤ score candidate)
  else accepted

/-- The invalid candidates. -/
def rejected (candidates : List Candidate) : List Candidate :=
  candidates.filter fun candidate => !valid candidate

variable {score valid}

theorem ofCandidates_eq [Zero Number] [BEq Number] [LawfulBEq Number] [LogScore Number]
    [ExactScore Number] {accepts : Candidate → Except Failure Bool} {candidates : List Candidate}
    (answers : ∀ candidate ∈ candidates, accepts candidate = .ok (valid candidate)) :
    ofCandidates hard score accepts candidates =
      .ok ⟨kept hard score valid candidates, rejected valid candidates⟩ := by
  have unexceeded (accepted : List Candidate) : leaders score accepted =
      accepted.filter fun candidate =>
        decide (∀ other ∈ accepted, score other ≤ score candidate) := by
    refine List.filter_congr fun candidate _ => decide_eq_decide.2 ?_
    rw [and_iff_right (ExactScore.isRanked _)]
    exact forall₂_congr fun other _ => not_lt
  rw [ofCandidates_eq_leaders answers, kept, ← unexceeded]
  rfl

end Kept

/-! ### Replacing candidates -/

section Map

variable (change : Candidate → Other) (split : Split Candidate)

theorem kept_map [LinearOrder Number] (hard : Bool) (score : Other → Number)
    (valid : Other → Bool) (candidates : List Candidate) :
    kept hard score valid (candidates.map change) =
      (kept hard (fun candidate => score (change candidate))
        (fun candidate => valid (change candidate)) candidates).map change := by
  have accepted : (candidates.map change).filter valid =
      (candidates.filter fun candidate => valid (change candidate)).map change := List.filter_map
  unfold kept
  rw [accepted]
  cases hard with
  | true =>
    show List.filter _ (List.map change _) = List.map change _
    rw [List.filter_map]
    congr 1
    refine List.filter_congr fun candidate _ => ?_
    exact decide_eq_decide.2 List.forall_mem_map
  | false => rfl

theorem rejected_map (valid : Other → Bool) (candidates : List Candidate) :
    rejected valid (candidates.map change) =
      (rejected (fun candidate => valid (change candidate)) candidates).map change :=
  List.filter_map

theorem violating_map [Sub Number] [LT Number] [DecidableLT Number] (score : Other → Number)
    (margin : Number) :
    (split.map change).violating score margin =
      (split.violating (fun candidate => score (change candidate)) margin).map change := by
  simp only [violating, map, List.filter_map, List.any_map, Function.comp_def]
  rfl

theorem direction_map [Zero Number] [One Number] [Neg Number] [Add Number] [Mul Number]
    [Div Number] [BEq Number] [NatCast Number] (features : Other → FeatureVector Number) :
    (split.map change).direction features =
      split.direction fun candidate => features (change candidate) := by
  simp only [direction, addShares, map, List.foldl_map, List.length_map]

end Map

/-! ### The direction -/

section Direction

variable [Field Number] [BEq Number]

/-- The mean of a value over a list. -/
def mean (value : Candidate → Number) (candidates : List Candidate) : Number :=
  (candidates.map value).sum / candidates.length

section Reading

variable (read : FeatureVector Number → Number) (additive : ∀ (multiple : Number)
  (source target : FeatureVector Number),
    read (FeatureVector.addTimes multiple source target) = read target + multiple * read source)

include additive

/-- Adding shares of a weight to a vector adds the weight times the mean to what is read off it. -/
theorem read_addShares (weight : Number) (features : Candidate → FeatureVector Number)
    (candidates : List Candidate) (vector : FeatureVector Number) :
    read (addShares weight features candidates vector) =
      read vector + weight * mean (fun candidate => read (features candidate)) candidates := by
  have added : ∀ (share : Number) (start : FeatureVector Number),
      read (candidates.foldl (fun vector candidate =>
        FeatureVector.addTimes share (features candidate) vector) start) =
        read start + share * (candidates.map fun candidate => read (features candidate)).sum := by
    intro share
    induction candidates with
    | nil => exact fun start => by rw [List.map_nil, List.sum_nil, mul_zero, add_zero]; rfl
    | cons first rest hypothesis =>
      intro start
      rw [List.foldl_cons, hypothesis, additive, List.map_cons, List.sum_cons, mul_add, add_assoc]
  rw [addShares, added, mean, div_mul_eq_mul_div, mul_div_assoc]

/-- What is linear in vectors reads off the direction as the difference of the means. -/
theorem read_direction (dropped : ∀ vector, read (FeatureVector.dropZeros vector) = read vector)
    (nothing : read FeatureVector.zero = 0) (features : Candidate → FeatureVector Number)
    (split : Split Candidate) :
    read (split.direction features) =
      mean (fun candidate => read (features candidate)) split.valid -
        mean (fun candidate => read (features candidate)) split.invalid := by
  rw [direction, dropped, read_addShares read additive, read_addShares read additive, nothing]
  ring

end Reading

variable [LawfulBEq Number]

/-- The direction has the difference of the means as its weights. -/
theorem weight_direction (features : Candidate → FeatureVector Number) (split : Split Candidate)
    (key : Symbol) :
    (split.direction features).weight key =
      mean (fun candidate => (features candidate).weight key) split.valid -
        mean (fun candidate => (features candidate).weight key) split.invalid :=
  read_direction (fun vector => vector.weight key)
    (fun multiple source target => FeatureVector.weight_addTimes multiple source target key)
    (fun vector => FeatureVector.weight_dropZeros vector key) (FeatureVector.weight_zero key)
    features split

end Direction

end Split

end WordArithmetic
