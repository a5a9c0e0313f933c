/-
This file says which candidates violate a margin, without looking at pairs.

A candidate violates the margin together with some candidate of the other side exactly if it does so
together with the hardest one of that side: a valid candidate is to be compared with the largest
invalid score only, an invalid candidate with the smallest valid score. A pair that violates the
margin keeps both its candidates, so there are violating candidates on both sides or on none, those
that are found violate the margin among themselves, and a larger margin only adds more of them.
-/

import Mathlib.Algebra.Order.Field.Rat
import Mathlib.Algebra.Order.Group.Basic
import WordArithmetic.Learning.Split
import WordArithmetic.Proofs.FeatureVector

namespace WordArithmetic

namespace Split

variable {Candidate Number : Type}

/-! ### Pairs -/

section Pairs

variable [Sub Number] [LT Number] [DecidableLT Number] {score : Candidate → Number}
  {margin : Number} {split : Split Candidate} {candidate : Candidate}

theorem violates_iff {valid invalid : Candidate} :
    violates score margin valid invalid = true ↔ score valid - score invalid < margin :=
  decide_eq_true_iff

theorem mem_violating_valid :
    candidate ∈ (split.violating score margin).valid ↔ candidate ∈ split.valid ∧
      ∃ other ∈ split.invalid, score candidate - score other < margin := by
  simp only [violating, List.mem_filter, List.any_eq_true, violates_iff]

theorem mem_violating_invalid :
    candidate ∈ (split.violating score margin).invalid ↔ candidate ∈ split.invalid ∧
      ∃ other ∈ split.valid, score other - score candidate < margin := by
  simp only [violating, List.mem_filter, List.any_eq_true, violates_iff]

/-- Both candidates of a pair that violates the margin are violating. -/
theorem mem_violating_of_lt {valid invalid : Candidate} (validMember : valid ∈ split.valid)
    (invalidMember : invalid ∈ split.invalid) (violation : score valid - score invalid < margin) :
    valid ∈ (split.violating score margin).valid ∧
      invalid ∈ (split.violating score margin).invalid :=
  ⟨mem_violating_valid.2 ⟨validMember, invalid, invalidMember, violation⟩,
    mem_violating_invalid.2 ⟨invalidMember, valid, validMember, violation⟩⟩

variable (score margin split)

/-- There are violating candidates on both sides or on none. -/
theorem violating_valid_eq_nil_iff :
    (split.violating score margin).valid = [] ↔ (split.violating score margin).invalid = [] := by
  simp only [List.eq_nil_iff_forall_not_mem]
  constructor
  · intro none invalid member
    obtain ⟨invalidMember, valid, validMember, violation⟩ := mem_violating_invalid.1 member
    exact none valid (mem_violating_of_lt validMember invalidMember violation).1
  · intro none valid member
    obtain ⟨validMember, invalid, invalidMember, violation⟩ := mem_violating_valid.1 member
    exact none invalid (mem_violating_of_lt validMember invalidMember violation).2

/-- Violating candidates violate the margin among themselves. -/
theorem violating_violating :
    (split.violating score margin).violating score margin = split.violating score margin := by
  have valid : ((split.violating score margin).violating score margin).valid =
      (split.violating score margin).valid := by
    refine List.filter_eq_self.2 fun candidate member => List.any_eq_true.2 ?_
    obtain ⟨here, other, otherMember, violation⟩ := mem_violating_valid.1 member
    exact ⟨other, (mem_violating_of_lt here otherMember violation).2, violates_iff.2 violation⟩
  have invalid : ((split.violating score margin).violating score margin).invalid =
      (split.violating score margin).invalid := by
    refine List.filter_eq_self.2 fun candidate member => List.any_eq_true.2 ?_
    obtain ⟨here, other, otherMember, violation⟩ := mem_violating_invalid.1 member
    exact ⟨other, (mem_violating_of_lt otherMember here violation).1, violates_iff.2 violation⟩
  exact congrArg₂ Split.mk valid invalid

end Pairs

section Order

variable [AddCommGroup Number] [LinearOrder Number] {score : Candidate → Number}
  {margin : Number} {split : Split Candidate}

/-- Under a larger margin more candidates are violating. -/
theorem violating_sublist {larger : Number} (le : margin ≤ larger) :
    (split.violating score margin).valid.Sublist (split.violating score larger).valid ∧
      (split.violating score margin).invalid.Sublist (split.violating score larger).invalid := by
  have weaker : ∀ valid invalid : Candidate, violates score margin valid invalid = true →
      violates score larger valid invalid = true := fun valid invalid violation =>
    violates_iff.2 ((violates_iff.1 violation).trans_le le)
  constructor
  · refine List.monotone_filter_right _ fun valid violation => ?_
    obtain ⟨invalid, member, violation⟩ := List.any_eq_true.1 violation
    exact List.any_eq_true.2 ⟨invalid, member, weaker valid invalid violation⟩
  · refine List.monotone_filter_right _ fun invalid violation => ?_
    obtain ⟨valid, member, violation⟩ := List.any_eq_true.1 violation
    exact List.any_eq_true.2 ⟨valid, member, weaker valid invalid violation⟩

variable [IsOrderedAddMonoid Number]

/-- The valid candidates that violate the margin are those that do so with the largest invalid
score. -/
theorem violating_valid_eq_filter {top : Number}
    (largest : (split.invalid.map score).max? = some top) :
    (split.violating score margin).valid =
      split.valid.filter fun candidate => decide (score candidate - top < margin) := by
  obtain ⟨attained, bound⟩ := List.max?_eq_some_iff.1 largest
  obtain ⟨hardest, hardestMember, rfl⟩ := List.mem_map.1 attained
  refine List.filter_congr fun candidate _ => ?_
  rw [Bool.eq_iff_iff, List.any_eq_true, decide_eq_true_eq]
  constructor
  · rintro ⟨other, member, violation⟩
    have below : score other ≤ score hardest := bound _ (List.mem_map_of_mem member)
    exact (sub_le_sub_left below _).trans_lt (violates_iff.1 violation)
  · exact fun violation => ⟨hardest, hardestMember, violates_iff.2 violation⟩

/-- The invalid candidates that violate the margin are those that do so with the smallest valid
score. -/
theorem violating_invalid_eq_filter {bottom : Number}
    (smallest : (split.valid.map score).min? = some bottom) :
    (split.violating score margin).invalid =
      split.invalid.filter fun candidate => decide (bottom - score candidate < margin) := by
  obtain ⟨attained, bound⟩ := List.min?_eq_some_iff.1 smallest
  obtain ⟨hardest, hardestMember, rfl⟩ := List.mem_map.1 attained
  refine List.filter_congr fun candidate _ => ?_
  rw [Bool.eq_iff_iff, List.any_eq_true, decide_eq_true_eq]
  constructor
  · rintro ⟨other, member, violation⟩
    have above : score hardest ≤ score other := bound _ (List.mem_map_of_mem member)
    exact (sub_le_sub_right above _).trans_lt (violates_iff.1 violation)
  · exact fun violation => ⟨hardest, hardestMember, violates_iff.2 violation⟩

end Order

/-! ### Thresholds -/

/-- Under any weights and any margin, the violating candidates are parts of both sides in their
order, on both sides or on none. If both sides have candidates, the valid ones among them are those
whose score exceeds the largest invalid score by less than the margin, and the invalid ones those
whose score is exceeded by the smallest valid score by less than the margin. The same candidates are
violating among themselves, and with a larger margin at least these are. -/
theorem violating_by_thresholds [Field Number] [LinearOrder Number] [IsStrictOrderedRing Number]
    (theta : FeatureVector Number) (features : Candidate → FeatureVector Number)
    (margin : Number) (split : Split Candidate) :
    let score := fun candidate => theta.dot (features candidate)
    let violating := split.violating score margin
    violating.valid.Sublist split.valid ∧ violating.invalid.Sublist split.invalid ∧
    (violating.valid = [] ↔ violating.invalid = []) ∧
    (split.valid ≠ [] → split.invalid ≠ [] →
      ∃ top bottom, (split.invalid.map score).max? = some top ∧
        (split.valid.map score).min? = some bottom ∧
        violating.valid =
          (split.valid.filter fun candidate => decide (score candidate - top < margin)) ∧
        violating.invalid =
          split.invalid.filter fun candidate => decide (bottom - score candidate < margin)) ∧
    violating.violating score margin = violating ∧
    ∀ larger, margin ≤ larger →
      violating.valid.Sublist (split.violating score larger).valid ∧
        violating.invalid.Sublist (split.violating score larger).invalid := by
  intro score violating
  refine ⟨List.filter_sublist, List.filter_sublist, violating_valid_eq_nil_iff score margin split,
    fun someValid someInvalid => ?_, violating_violating score margin split,
    fun larger le => violating_sublist le⟩
  obtain ⟨top, largest⟩ : ∃ top, (split.invalid.map score).max? = some top :=
    Option.ne_none_iff_exists'.1 (mt List.max?_eq_none_iff.1 (mt List.map_eq_nil_iff.1 someInvalid))
  obtain ⟨bottom, smallest⟩ : ∃ bottom, (split.valid.map score).min? = some bottom :=
    Option.ne_none_iff_exists'.1 (mt List.min?_eq_none_iff.1 (mt List.map_eq_nil_iff.1 someValid))
  exact ⟨top, bottom, largest, smallest, violating_valid_eq_filter largest,
    violating_invalid_eq_filter smallest⟩

/-- Of candidates with one feature each, a valid one occurs twice and is too close to one of the two
invalid ones, while another valid one is far enough from both. -/
theorem violating_by_thresholds_repeated :
    let features : ℚ → FeatureVector ℚ := fun value => Table.empty.insert (.name "value") value
    let violating :=
      violating (fun value => (features 1).dot (features value)) 2 ⟨[2, 5, 2], [1, 0]⟩
    violating.valid = [2, 2] ∧ violating.invalid = [1] := by
  intro features violating
  obtain ⟨-, -, -, thresholds, -, -⟩ :=
    violating_by_thresholds (features 1) features 2 ⟨[2, 5, 2], [1, 0]⟩
  obtain ⟨top, bottom, largest, smallest, valid, invalid⟩ :=
    thresholds (List.cons_ne_nil _ _) (List.cons_ne_nil _ _)
  have top_eq : top = 1 := Option.some.inj (largest.symm.trans (by decide +kernel))
  have bottom_eq : bottom = 2 := Option.some.inj (smallest.symm.trans (by decide +kernel))
  refine ⟨valid.trans ?_, invalid.trans ?_⟩
  · rw [top_eq]
    decide +kernel
  · rw [bottom_eq]
    decide +kernel

end Split

end WordArithmetic
