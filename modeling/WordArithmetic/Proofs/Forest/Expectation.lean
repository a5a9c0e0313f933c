/-
This file says what masses and expected features are for any groups of a joint forest.

Groups stand for the joint derivations of their members. If the parses of the members are parses of
the base forest, the mass of the groups is that of these joint derivations, and the expected
features are theirs, each with its mass. Over exact scores every joint derivation has a positive
mass, so that groups are without mass only if there are none.
-/

import Mathlib.Algebra.Order.BigOperators.Group.List
import Mathlib.Algebra.Order.Field.Basic
import WordArithmetic.Proofs.Forest.Best
import WordArithmetic.Proofs.Forest.Enumeration

namespace WordArithmetic

namespace JointForest

variable {Form Number : Type}

/-! ### The joint derivations of groups -/

section Definitions

variable [Field Number] [LogScore Number]

/-- The joint derivations of the members of some groups. -/
def derivationsOf [BEq Form] (base : ParseForest Form Number) (groups : List (Group Form Number)) :
    List (Pair Form Number × Derivation Form Number) :=
  jointDerivations base (groups.flatMap Group.members) fun _ => true

/-- The weight of a key in the features of a joint derivation: those of its derivation and those of
its evaluation. -/
def jointWeight (key : Symbol) (joint : Pair Form Number × Derivation Form Number) : Number :=
  joint.2.features.weight key + joint.1.evaluation.features.weight key

/-- The mass of some joint derivations. -/
def massOf (joints : List (Pair Form Number × Derivation Form Number)) : Number :=
  (joints.map jointMass).sum

/-- The expected weight of a key over some joint derivations, each of which counts with its mass. -/
def expectation (joints : List (Pair Form Number × Derivation Form Number)) (key : Symbol) :
    Number :=
  (joints.map fun joint => jointMass joint * jointWeight key joint).sum / massOf joints

end Definitions

/-- The groups whose results are valid. -/
def accepted (forest : JointForest Form Number) (valid : Value → Bool) :
    List (Group Form Number) :=
  forest.groups.filter fun group => valid group.result

/-- The parses of all members of some groups are parses of a forest. -/
def IsBasedOn [BEq Form] [Zero Number] [Add Number] [LT Number] [DecidableLT Number] [LogScore Number]
    (base : ParseForest Form Number) (groups : List (Group Form Number)) : Prop :=
  ∀ group ∈ groups, ∀ pair ∈ group.members, pair.parse ∈ base.parses

section Based

variable [BEq Form] [Zero Number] [Add Number] [LT Number] [DecidableLT Number] [LogScore Number]
  {base : ParseForest Form Number} {groups : List (Group Form Number)}

theorem IsBasedOn.parse_mem (based : IsBasedOn base groups) {pair : Pair Form Number}
    (member : pair ∈ groups.flatMap Group.members) : pair.parse ∈ base.parses := by
  obtain ⟨group, groupMember, pairMember⟩ := List.mem_flatMap.1 member
  exact based group groupMember pair pairMember

theorem IsBasedOn.accepted {forest : JointForest Form Number}
    (based : IsBasedOn forest.base forest.groups) (valid : Value → Bool) :
    IsBasedOn forest.base (forest.accepted valid) :=
  fun group member => based group (List.mem_of_mem_filter member)

/-- The groups of pairs whose parses are parses of a forest are based on it. -/
theorem IsBasedOn.ofPairs {pairs : List (Pair Form Number)}
    (taken : ∀ pair ∈ pairs, pair.parse ∈ base.parses) : IsBasedOn base (Group.ofPairs pairs) := by
  intro group groupMember pair pairMember
  have member : pair ∈ (Group.ofPairs pairs).flatMap Group.members :=
    List.mem_flatMap.2 ⟨group, groupMember, pairMember⟩
  exact taken pair ((Group.gathers_ofPairs pairs).members.mem_iff.1 member)

end Based

/-! ### Sums -/

section Sums

variable [BEq Form] [EquivBEq Form] [Field Number] [BEq Number] [LawfulBEq Number] [LT Number]
  [DecidableLT Number] [LogScore Number] {base : ParseForest Form Number}
  {groups : List (Group Form Number)}

/-- The mass of groups is the mass of their joint derivations. -/
theorem norm_eq_massOf (based : IsBasedOn base groups) :
    norm groups = massOf (derivationsOf base groups) := by
  rw [norm_eq_sum, massOf, derivationsOf, jointDerivations, List.filter_true, sum_map_flatMap]
  congr 1
  exact List.map_congr_left fun pair member => mul_inside_eq_sum (based.parse_mem member) _

/-- The expected features of groups are the features of their joint derivations, each with its
mass. -/
theorem weight_expectedFeatures {forest : JointForest Form Number}
    (based : IsBasedOn forest.base groups) (key : Symbol) :
    (forest.expectedFeatures groups).weight key =
      ((derivationsOf forest.base groups).map fun joint =>
        jointMass joint * jointWeight key joint).sum := by
  rw [expectedFeatures, weight_addEvaluationFeatures, weight_expectedFeatures_base, sum_outside_eq,
    derivationsOf, jointDerivations, List.filter_true, sum_map_flatMap, ← List.sum_map_add]
  congr 1
  refine List.map_congr_left fun pair member => ?_
  rw [mul_inside_eq_sum (based.parse_mem member), ← List.sum_map_mul_right, ← List.sum_map_add]
  congr 1
  refine List.map_congr_left fun derivation _ => ?_
  rw [jointMass, jointWeight, mul_add]

end Sums

/-! ### Positive masses -/

section Positive

variable [BEq Form] [EquivBEq Form] [Field Number] [LinearOrder Number] [IsStrictOrderedRing Number]
  [LogScore Number] [ExactScore Number] {base : ParseForest Form Number}
  {groups : List (Group Form Number)}

omit [IsStrictOrderedRing Number] [ExactScore Number] in
/-- Groups have joint derivations. -/
theorem derivationsOf_ne_nil (based : IsBasedOn base groups) (present : groups ≠ []) :
    derivationsOf base groups ≠ [] := by
  obtain ⟨group, groupMember⟩ := List.exists_mem_of_ne_nil _ present
  have member : group.first ∈ groups.flatMap Group.members :=
    List.mem_flatMap.2 ⟨group, groupMember, List.mem_cons_self⟩
  obtain ⟨derivation, derived, form⟩ := ParseForest.exists_form_eq (based.parse_mem member)
  have same : (derivation.form == group.first.parse.form) = true := by
    rw [form]
    exact BEq.rfl
  have joint : (group.first, derivation) ∈ derivationsOf base groups :=
    List.mem_flatMap.2 ⟨group.first, List.mem_filter.2 ⟨member, rfl⟩,
      List.mem_map_of_mem (List.mem_filter.2 ⟨derived, same⟩)⟩
  exact List.ne_nil_of_mem joint

omit [BEq Form] [EquivBEq Form] in
/-- Joint derivations have a positive mass if there are any. -/
theorem massOf_pos {joints : List (Pair Form Number × Derivation Form Number)}
    (present : joints ≠ []) : 0 < massOf joints := by
  refine List.sum_pos _ (List.forall_mem_map.2 fun joint _ => ?_) ?_
  · exact mul_pos (ExactScore.exp_pos _) (ExactScore.exp_pos _)
  · exact fun none => present (List.map_eq_nil_iff.1 none)

/-- Groups have a positive mass if there are any. -/
theorem massOf_derivationsOf_pos (based : IsBasedOn base groups) (present : groups ≠ []) :
    0 < massOf (derivationsOf base groups) :=
  massOf_pos (derivationsOf_ne_nil based present)

end Positive

end JointForest

end WordArithmetic
