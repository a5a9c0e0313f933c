/-
This file says which candidates a hard split keeps when their scores are numbers of programs.

Such a score may be infinite. Of the valid candidates those of the largest score are kept, in their
order and all of them if several have it, unless the largest score is below the lowest finite float.
Then no candidate counts as found: the split keeps none, although there are valid ones. Minus
infinity is such a score, and so is a whole number below all floats.
-/

import WordArithmetic.Proofs.Learning.Pass
import WordArithmetic.Proofs.Number.Comparison

namespace WordArithmetic

namespace Scalar

theorem point_ne_undefined_of_lt {left right : Scalar} (less : left < right) :
    right.point ≠ .undefined := by
  intro undefined
  rw [lt_iff, undefined, ExtendedRat.not_below_undefined] at less
  cases less

/-- The lowest finite float is a point of the line. -/
theorem point_lowestFinite : lowestFinite.point ≠ .undefined := by
  decide +kernel

/-- A score ranks among others if it is defined and not below the lowest finite float. -/
theorem isRanked_iff {score : Scalar} :
    LogScore.isRanked score = true ↔ score.point ≠ .undefined ∧ ¬ score < lowestFinite := by
  show (decide (lowestFinite < score) || score == lowestFinite) = true ↔ _
  rw [Bool.or_eq_true, decide_eq_true_eq, beq_iff]
  constructor
  · rintro (above | ⟨defined, same⟩)
    · exact ⟨point_ne_undefined_of_lt above, fun below => lt_irrefl _ (lt_trans below above)⟩
    · refine ⟨defined, fun below => ?_⟩
      rw [lt_iff, same] at below
      exact ExtendedRat.below_irrefl _ below
  · rintro ⟨defined, notBelow⟩
    by_cases above : lowestFinite < score
    · exact .inl above
    · exact .inr ⟨defined, ExtendedRat.eq_of_not_below defined point_lowestFinite
        (mt lt_iff.2 notBelow) (mt lt_iff.2 above)⟩

/-- The numbers of programs can be compared, since those that rank are defined. -/
instance : OrderedScore Scalar where
  not_lt_self := lt_irrefl
  lt_chain := lt_trans
  alike := by
    intro left right same other
    obtain ⟨defined, equal⟩ := beq_iff.1 same
    have tied : (other == left) = true ↔ (other == right) = true := by
      rw [beq_iff, beq_iff, equal]
    rw [lt_iff, lt_iff, lt_iff, lt_iff, equal]
    exact ⟨Iff.rfl, Iff.rfl, Bool.eq_iff_iff.2 tied⟩
  trichotomy := by
    intro left right leftRanked rightRanked
    obtain ⟨leftDefined, _⟩ := isRanked_iff.1 leftRanked
    obtain ⟨rightDefined, _⟩ := isRanked_iff.1 rightRanked
    by_cases less : left < right
    · exact .inl less
    · by_cases more : right < left
      · exact .inr (.inr more)
      · exact .inr (.inl (beq_iff.2 ⟨leftDefined, ExtendedRat.eq_of_not_below leftDefined
          rightDefined (mt lt_iff.2 less) (mt lt_iff.2 more)⟩))

end Scalar

namespace Split

variable {Candidate : Type} (score : Candidate → Scalar)

/-- Of candidates with defined scores one is exceeded by none. -/
theorem exists_largest {candidates : List Candidate} (present : candidates ≠ [])
    (defined : ∀ candidate ∈ candidates, (score candidate).point ≠ .undefined) :
    ∃ top ∈ candidates, ∀ other ∈ candidates, ¬ score top < score other := by
  cases candidates with
  | nil => exact absurd rfl present
  | cons first rest =>
    obtain ⟨-, member, largest⟩ :=
      firstLargest_scalar score first rest (defined first List.mem_cons_self)
    exact ⟨_, member, largest⟩

variable {score}

/-- A candidate of the largest score decides which are the best: all that have its score, or none if
its score is below the lowest finite float. -/
theorem leaders_of_largest {candidates : List Candidate} {top : Candidate}
    (defined : ∀ candidate ∈ candidates, (score candidate).point ≠ .undefined)
    (member : top ∈ candidates) (largest : ∀ other ∈ candidates, ¬ score top < score other) :
    leaders score candidates =
      if score top < lowestFinite then []
      else candidates.filter fun candidate => score candidate == score top := by
  rw [leaders]
  split
  · rename_i low
    rw [List.filter_eq_nil_iff]
    intro candidate candidateMember kept
    have isRanked := (decide_eq_true_iff.1 kept).1
    exact (Scalar.isRanked_iff.1 isRanked).2 (Scalar.lt_of_not_lt_of_lt
      (defined candidate candidateMember) (defined top member) (largest _ candidateMember) low)
  · rename_i high
    refine List.filter_congr fun candidate candidateMember => ?_
    rw [Bool.eq_iff_iff, decide_eq_true_eq, Scalar.beq_iff]
    have candidateDefined := defined candidate candidateMember
    constructor
    · rintro ⟨-, unexceeded⟩
      exact ⟨candidateDefined, ExtendedRat.eq_of_not_below candidateDefined (defined top member)
        (mt Scalar.lt_iff.2 (unexceeded top member))
        (mt Scalar.lt_iff.2 (largest candidate candidateMember))⟩
    · rintro ⟨-, same⟩
      refine ⟨Scalar.isRanked_iff.2 ⟨candidateDefined, ?_⟩, fun other otherMember => ?_⟩
      · rw [Scalar.lt_iff, same]
        exact mt Scalar.lt_iff.2 high
      · rw [Scalar.lt_iff, same]
        exact mt Scalar.lt_iff.2 (largest other otherMember)

/-- A split by a test that answers consists of the candidates that pass and those that do not. A
hard split keeps of those that pass the ones whose score is the largest, if that is not below the
lowest finite float, and else none. So it keeps none exactly if every score of those that pass is
below the lowest finite float. -/
theorem ofCandidates_keeps_largest (score : Candidate → Scalar)
    {accepts : Candidate → Except Failure Bool} {valid : Candidate → Bool}
    {candidates : List Candidate}
    (answers : ∀ candidate ∈ candidates, accepts candidate = .ok (valid candidate))
    (defined : ∀ candidate ∈ candidates, (score candidate).point ≠ .undefined) :
    let accepted := candidates.filter valid
    let rejected := candidates.filter fun candidate => !valid candidate
    ofCandidates false score accepts candidates = .ok ⟨accepted, rejected⟩ ∧
    ∃ kept, ofCandidates true score accepts candidates = .ok ⟨kept, rejected⟩ ∧
      (accepted ≠ [] → ∃ top ∈ accepted, ∀ other ∈ accepted, ¬ score top < score other) ∧
      (∀ top ∈ accepted, (∀ other ∈ accepted, ¬ score top < score other) →
        kept = if score top < lowestFinite then []
          else accepted.filter fun candidate => score candidate == score top) ∧
      (kept = [] ↔ ∀ candidate ∈ accepted, score candidate < lowestFinite) := by
  intro accepted rejected
  have acceptedDefined : ∀ candidate ∈ accepted, (score candidate).point ≠ .undefined :=
    fun candidate member => defined candidate (List.mem_of_mem_filter member)
  let kept := leaders score accepted
  have keeps : ∀ top ∈ accepted, (∀ other ∈ accepted, ¬ score top < score other) →
      kept = if score top < lowestFinite then []
        else accepted.filter fun candidate => score candidate == score top :=
    fun top member largest => leaders_of_largest acceptedDefined member largest
  refine ⟨ofCandidates_eq_leaders answers, kept, ofCandidates_eq_leaders answers,
    fun present => exists_largest score present acceptedDefined, keeps, ?_⟩
  by_cases present : accepted = []
  · refine iff_of_true ?_ (present ▸ List.forall_mem_nil _)
    show leaders score accepted = []
    rw [present]
    rfl
  · obtain ⟨top, member, largest⟩ := exists_largest score present acceptedDefined
    rw [keeps top member largest]
    split
    · rename_i low
      exact iff_of_true rfl fun candidate candidateMember => Scalar.lt_of_not_lt_of_lt
        (acceptedDefined candidate candidateMember) (acceptedDefined top member)
        (largest candidate candidateMember) low
    · rename_i high
      refine iff_of_false (fun none => ?_) fun low => high (low top member)
      have same : (score top == score top) = true :=
        Scalar.beq_iff.2 ⟨acceptedDefined top member, rfl⟩
      exact List.filter_eq_nil_iff.1 none top member same

/-- Of candidates that are written with their scores, two have an infinite score and pass, one has
it and does not pass, and one that passes has a smaller score. -/
theorem ofCandidates_keeps_largest_infinite :
    ∃ kept, ofCandidates true Prod.snd
        (fun candidate : String × Scalar => .ok (candidate.1 != "seven"))
        [("ten", .whole 1), ("six", .float positiveInfinity), ("seven", .float positiveInfinity),
          ("eight", .float positiveInfinity)] =
          .ok ⟨kept, [("seven", .float positiveInfinity)]⟩ ∧
      kept.map Prod.fst = ["six", "eight"] := by
  have answers : ∀ candidate ∈ [("ten", Scalar.whole 1), ("six", .float positiveInfinity),
      ("seven", .float positiveInfinity), ("eight", .float positiveInfinity)],
      (Except.ok (candidate.1 != "seven") : Except Failure Bool) =
        .ok (candidate.1 != "seven") := fun _ _ => rfl
  obtain ⟨-, kept, hard, -, keeps, -⟩ :=
    ofCandidates_keeps_largest Prod.snd answers (by decide +kernel)
  refine ⟨kept, hard, ?_⟩
  rw [keeps ("six", .float positiveInfinity) (List.mem_cons_of_mem _ List.mem_cons_self)
    (by decide +kernel)]
  decide +kernel

/-- A candidate that passes and has the largest score there is, minus infinity, is not kept. -/
theorem ofCandidates_loses_lowest :
    ofCandidates true Prod.snd (fun _ : String × Scalar => .ok true)
        [("six", .float negativeInfinity)] = .ok ⟨[], []⟩ ∧
      (Scalar.float negativeInfinity).point ≠ .undefined ∧
      ∀ other ∈ [("six", Scalar.float negativeInfinity)],
        ¬ Scalar.float negativeInfinity < other.2 := by
  have defined : (Scalar.float negativeInfinity).point ≠ .undefined := by decide +kernel
  have largest : ∀ other ∈ [("six", Scalar.float negativeInfinity)],
      ¬ Scalar.float negativeInfinity < other.2 :=
    List.forall_mem_singleton.2 (Scalar.lt_irrefl _)
  have none : leaders Prod.snd [("six", Scalar.float negativeInfinity)] = [] := by
    have allDefined : ∀ candidate ∈ [("six", Scalar.float negativeInfinity)],
        candidate.2.point ≠ .undefined := List.forall_mem_singleton.2 defined
    rw [leaders_of_largest allDefined (List.mem_singleton_self _) largest]
    exact if_pos (by decide +kernel)
  refine ⟨?_, defined, largest⟩
  have passed : ofCandidates true Prod.snd (fun _ : String × Scalar => .ok true)
      [("six", .float negativeInfinity)] =
        .ok ⟨leaders Prod.snd [("six", .float negativeInfinity)], []⟩ :=
    ofCandidates_eq_leaders fun _ _ => rfl
  rw [passed, none]

end Split

end WordArithmetic
