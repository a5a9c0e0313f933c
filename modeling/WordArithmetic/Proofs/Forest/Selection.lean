/-
This file shows that two selections, one after the other, select one joint derivation.

A parse keeps the first of its best derivations, and a group the first of its best members. The
joint derivations of a group are its members, each with every derivation of its form, in their
order. Over exact numbers the score and the features of the group are those of the first of its best
joint derivations, although no joint derivation is ever looked at.
-/

import WordArithmetic.Proofs.Forest.Best
import WordArithmetic.Proofs.Forest.Enumeration

namespace WordArithmetic

namespace JointForest

variable {Form Number : Type}

/-- The log score of a joint derivation: that of its derivation and that of its evaluation. -/
def jointLogScore [Add Number] (joint : Pair Form Number × Derivation Form Number) : Number :=
  joint.2.score + joint.1.evaluation.score

variable [BEq Form] [EquivBEq Form] [CommRing Number] [LinearOrder Number] [IsStrictOrderedRing Number]
  [LogScore Number] [ExactScore Number] {base : ParseForest Form Number}

/-- The derivations of a pair, of which the first best one has the score and the features of the
parse. -/
theorem exists_best_of_pair {pair : Pair Form Number} (parsed : pair.parse ∈ base.parses) :
    ∃ derivation, IsFirstLargest jointLogScore
        ((base.derivations.filter fun derivation => derivation.form == pair.parse.form).map (pair, ·))
        (pair, derivation) ∧
      jointLogScore (pair, derivation) = pair.viterbi ∧
        derivation.features = pair.parse.features := by
  obtain ⟨derivation, largest, score, features⟩ := (ParseForest.isPacked_of_mem parsed).exists_best
  refine ⟨derivation, largest.map (pair, ·) fun _ _ => add_lt_add_iff_right _, ?_, features.symm⟩
  rw [jointLogScore, Pair.viterbi, score]

/-- The members of a group that come of a forest have a first best joint derivation, with the score
and the features of the group. -/
theorem exists_best_of_group [BEq Number] {group : Group Form Number}
    (parsed : ∀ pair ∈ group.members, pair.parse ∈ base.parses) :
    ∃ joint, IsFirstLargest jointLogScore (jointDerivations base group.members fun _ => true) joint ∧
      group.score = jointLogScore joint ∧
        group.features = joint.2.features.add joint.1.evaluation.features := by
  obtain ⟨derivation, inner, attained, features⟩ := exists_best_of_pair (parsed _ group.best_mem)
  refine ⟨(group.best, derivation), ?_, attained.symm, ?_⟩
  · have outer : IsFirstLargest Pair.viterbi group.members group.best :=
      isFirstLargest_firstLargest Pair.viterbi group.first group.rest
    rw [jointDerivations, List.filter_true]
    refine outer.flatMap inner attained fun pair member joint part => ?_
    obtain ⟨_, largest, score, _⟩ := exists_best_of_pair (parsed pair member)
    rw [← score]
    exact largest.le joint part
  · rw [Group.features, features]

/-- The parses of a forest are the classes of its derivations by form, and the score and the features
of a group of their pairs are those of the first of its best joint derivations. -/
theorem packs_and_selects [BEq Number] (base : ParseForest Form Number) :
    (∃ hands home, IsDealt ParseForest.sameForm base.derivations hands home ∧
      List.Forall₂ ParseForest.IsPacked hands base.parses) ∧
    ∀ group : Group Form Number, (∀ pair ∈ group.members, pair.parse ∈ base.parses) →
      ∃ joint,
        IsFirstLargest jointLogScore (jointDerivations base group.members fun _ => true) joint ∧
        group.score = jointLogScore joint ∧
          group.features = joint.2.features.add joint.1.evaluation.features := by
  obtain ⟨home, dealt⟩ := ParseForest.exists_home_sameForm base.derivations
  have packed := base.forall₂_parses.imp fun _ _ made => made.isPacked
  exact ⟨⟨_, home, dealt, packed⟩, fun _ parsed => exists_best_of_group parsed⟩

/-- Two derivations of a form share the best score, and another form has a worse one. -/
def tiedBase : ParseForest Nat ℚ where
  derivations :=
    [⟨0, 1, Table.ofList [(.name "worse", 1)]⟩, ⟨1, 2, FeatureVector.zero⟩,
      ⟨0, 3, Table.ofList [(.name "first", 1)]⟩, ⟨0, 3, Table.ofList [(.name "second", 1)]⟩]
  exact := true

/-- The worse form has the better evaluation, so that the pairs of the two forms share their
score. -/
def tiedPairs : List (Pair Nat ℚ) :=
  tiedBase.parses.map fun parse =>
    ⟨parse, ⟨.integer 6, if parse.form = 0 then 1 else 2, FeatureVector.zero⟩⟩

/-- Of joint derivations with one score the first one is selected. -/
theorem packs_and_selects_tied :
    (∀ pair ∈ tiedPairs, pair.parse ∈ tiedBase.parses) ∧
    (∃ hands home, IsDealt ParseForest.sameForm tiedBase.derivations hands home ∧
      List.Forall₂ ParseForest.IsPacked hands tiedBase.parses) ∧
    ∀ group ∈ Group.ofPairs tiedPairs, group.score = 4 ∧
      group.features.weight (.name "first") = 1 ∧
      ∃ joint,
        IsFirstLargest jointLogScore (jointDerivations tiedBase group.members fun _ => true) joint ∧
        group.score = jointLogScore joint ∧
          group.features = joint.2.features.add joint.1.evaluation.features := by
  have taken : ∀ pair ∈ tiedPairs, pair.parse ∈ tiedBase.parses := by
    intro pair member
    obtain ⟨parse, parseMember, rfl⟩ := List.mem_map.1 member
    exact parseMember
  obtain ⟨packed, selects⟩ := packs_and_selects tiedBase
  refine ⟨taken, packed, fun group member => ⟨?_, ?_, selects group fun pair pairMember => ?_⟩⟩
  · revert group member
    decide +kernel
  · revert group member
    decide +kernel
  · refine taken pair ((Group.gathers_ofPairs tiedPairs).members.mem_iff.1 ?_)
    exact List.mem_flatMap.2 ⟨group, member, pairMember⟩

end JointForest

end WordArithmetic
