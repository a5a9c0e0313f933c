/-
This file shows that mass is conserved.

The mass of a forest is that of the pairs from which it was made, in whatever way they are grouped.
A test that decides on every group splits the groups in two and their mass with them. And where the
masses of parses are not negative, no selection of groups has more mass than all groups have.
-/

import Mathlib.Algebra.Order.BigOperators.Group.List
import Mathlib.Algebra.Order.Ring.Defs
import WordArithmetic.Proofs.Forest.Expectation

namespace WordArithmetic

namespace JointForest

variable {Form Number : Type}

/-! ### Splitting masses -/

section Sums

variable [AddCommMonoid Number] [Mul Number] [BEq Number] [LogScore Number]

/-- The groups that pass a test and those that do not have the mass of all. -/
theorem norm_filter_add_norm_filter_not (groups : List (Group Form Number))
    (test : Group Form Number → Bool) :
    norm (groups.filter test) + norm (groups.filter fun group => !test group) = norm groups := by
  simp only [norm, total_eq_sum]
  rw [sum_map_filter, sum_map_filter, ← List.sum_map_add]
  congr 1
  refine List.map_congr_left fun group _ => ?_
  cases test group with
  | true => exact add_zero _
  | false => exact zero_add _

/-- Grouping keeps the mass of all pairs. -/
theorem norm_ofPairs (pairs : List (Pair Form Number)) :
    norm (Group.ofPairs pairs) = (pairs.map Pair.inside).sum := by
  rw [norm_eq_sum_inside, ((Group.gathers_ofPairs pairs).members.map Pair.inside).sum_eq]

end Sums

/-! ### Masses that are not negative -/

/-- The parses of the members of some groups have masses that are not negative. -/
def HaveMasses [Zero Number] [LE Number] (groups : List (Group Form Number)) : Prop :=
  ∀ group ∈ groups, ∀ pair ∈ group.members, 0 ≤ pair.parse.inside

section Ordered

variable [CommRing Number] [LinearOrder Number] [IsStrictOrderedRing Number] [LogScore Number]
  (nonneg : ∀ score : Number, 0 ≤ LogScore.exp score)

include nonneg

/-- The masses of the parses of a forest are sums of masses. -/
theorem HaveMasses.of_isBasedOn [BEq Form] [EquivBEq Form] {base : ParseForest Form Number}
    {groups : List (Group Form Number)} (based : IsBasedOn base groups) : HaveMasses groups := by
  intro group member pair pairMember
  rw [ParseForest.inside_eq_mass (based group member pair pairMember)]
  exact List.sum_nonneg (List.forall_mem_map.2 fun derivation _ => nonneg derivation.score)

variable [BEq Number] {groups : List (Group Form Number)}

theorem inside_nonneg {group : Group Form Number}
    (masses : ∀ pair ∈ group.members, 0 ≤ pair.parse.inside) : 0 ≤ group.inside := by
  rw [Group.inside, total_eq_sum]
  refine List.sum_nonneg (List.forall_mem_map.2 fun pair member => ?_)
  unfold Pair.inside
  split
  · exact le_refl 0
  · exact mul_nonneg (nonneg _) (masses pair member)

theorem norm_nonneg (masses : HaveMasses groups) : 0 ≤ norm groups := by
  rw [norm, total_eq_sum]
  exact List.sum_nonneg (List.forall_mem_map.2 fun group member =>
    inside_nonneg nonneg (masses group member))

/-- Some of the groups have no more mass than all of them. -/
theorem norm_le_of_sublist {selected : List (Group Form Number)} (masses : HaveMasses groups)
    (part : selected.Sublist groups) : norm selected ≤ norm groups := by
  simp only [norm, total_eq_sum]
  exact (part.map Group.inside).sum_le_sum (List.forall_mem_map.2 fun group member =>
    inside_nonneg nonneg (masses group member))

/-- A test that gives an answer for every group splits the groups, and splits their mass in two
parts that are not negative. -/
theorem exists_split (masses : HaveMasses groups) {accept : Value → Except Failure Bool}
    (answered : ∀ group ∈ groups, ∃ answer, accept group.result = .ok answer) :
    ∃ accepted refused, Group.select groups accept = .ok accepted ∧
      Group.select groups (fun result => (accept result).map not) = .ok refused ∧
      norm accepted + norm refused = norm groups ∧
      0 ≤ norm accepted ∧ norm accepted ≤ norm groups := by
  obtain ⟨passes, decides⟩ := Group.exists_passes answered
  have refuses : ∀ group ∈ groups, (accept group.result).map not = .ok (!passes group.result) := by
    intro group member
    rw [decides group member]
    rfl
  have refused := @Group.select_eq_filter _ _ groups (fun result => (accept result).map not)
    (fun result => !passes result) refuses
  have part := List.filter_sublist (p := fun group => passes group.result) (l := groups)
  exact ⟨_, _, Group.select_eq_filter decides, refused,
    norm_filter_add_norm_filter_not groups fun group => passes group.result,
    norm_nonneg nonneg fun group member => masses group (part.mem member),
    norm_le_of_sublist nonneg masses part⟩

end Ordered

end JointForest

end WordArithmetic
