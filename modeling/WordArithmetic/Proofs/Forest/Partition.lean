/-
This file shows that the groups of a joint forest partition the pairs of an input.

Grouping deals the pairs by the equality of results as keys, which is symmetric and transitive
across all kinds of values. Pairs whose results are one undefined number share a group, and so do
pairs with tuples that have it in one place, but pairs with different undefined numbers do not.
There is no forest if some result is no key, and the first such pair is reported. The only other
obstacle is a whole number beyond the range of floats. The best groups are those that no other
exceeds, unless the mass of the first group is undefined: then none is best.
-/

import WordArithmetic.Proofs.Dealing
import WordArithmetic.Proofs.Forest.Packing
import WordArithmetic.Proofs.Value

namespace WordArithmetic

/-! ### Numbers beyond the range of floats -/

namespace Scalar

/-- A computation on floats leaves their range only if an operand is beyond it. -/
theorem isTooLarge_of_onFloats (operation : Float → Float → Float) {left right : Scalar}
    (lost : (onFloats operation left right).isLost = true) :
    left.isTooLarge = true ∨ right.isTooLarge = true := by
  cases onLeft : left.toFloat with
  | error _ =>
    rw [isTooLarge, onLeft]
    exact Or.inl rfl
  | ok _ =>
    cases onRight : right.toFloat with
    | error _ =>
      rw [isTooLarge, isTooLarge, onRight]
      exact Or.inr rfl
    | ok _ =>
      rw [onFloats, onLeft, onRight] at lost
      cases lost

theorem isTooLarge_of_add {left right : Scalar} (lost : (left + right).isLost = true) :
    left.isTooLarge = true ∨ right.isTooLarge = true := by
  cases left <;> cases right <;> first | exact isTooLarge_of_onFloats (· + ·) lost | cases lost

theorem isTooLarge_of_mul {left right : Scalar} (lost : (left * right).isLost = true) :
    left.isTooLarge = true ∨ right.isTooLarge = true := by
  cases left <;> cases right <;> first | exact isTooLarge_of_onFloats (· * ·) lost | cases lost

/-- A score has a mass unless it is itself beyond the range of floats. -/
theorem isTooLarge_of_exp {score : Scalar} (large : (LogScore.exp score).isTooLarge = true) :
    score.isTooLarge = true := by
  cases score with
  | lost => rfl
  | _ => cases large

end Scalar

variable {Form : Type}

namespace Pair

/-- Whether a number of a pair is a whole number beyond the range of floats, or was computed from
one. -/
def IsOutOfRange (pair : Pair Form Scalar) : Prop :=
  pair.parse.inside.isTooLarge = true ∨ pair.parse.score.isTooLarge = true ∨
    pair.evaluation.score.isTooLarge = true

/-- Only pairs with a number beyond the range of floats have no mass or no score. -/
theorem isOutOfRange_of_lost {pair : Pair Form Scalar}
    (lost : (pair.inside.isLost || pair.viterbi.isLost) = true) : pair.IsOutOfRange := by
  rcases Bool.or_eq_true_iff.1 lost with noMass | noScore
  · unfold inside at noMass
    split at noMass
    · cases noMass
    · rcases Scalar.isTooLarge_of_mul noMass with score | mass
      · exact Or.inr (Or.inr (Scalar.isTooLarge_of_exp score))
      · exact Or.inl mass
  · rcases Scalar.isTooLarge_of_add noScore with parse | score
    · exact Or.inr (Or.inl parse)
    · exact Or.inr (Or.inr score)

end Pair

/-! ### Grouping as dealing -/

section Dealing

variable {Number : Type}

namespace Pair

/-- Whether the results of two pairs are equal as keys. -/
def sameResult (left right : Pair Form Number) : Bool :=
  left.evaluation.result.same right.evaluation.result

theorem sameResult_iff {left right : Pair Form Number} :
    left.sameResult right = true ↔ left.evaluation.result.IsEqual right.evaluation.result :=
  Value.same_iff

end Pair

namespace Group

/-- Placing a pair deals it to the members of the groups. -/
theorem map_members_place (pair : Pair Form Number) {groups : List (Group Form Number)}
    (known : ∀ group ∈ groups, group.first.evaluation.result = group.result) :
    (place pair groups).map members = deal Pair.sameResult pair (groups.map members) := by
  induction groups with
  | nil => rfl
  | cons group rest hypothesis =>
    obtain ⟨here, there⟩ := List.forall_mem_cons.1 known
    have head : group.members.head?.any (Pair.sameResult pair) =
        pair.evaluation.result.same group.result :=
      congrArg pair.evaluation.result.same here
    rw [place, List.map_cons, deal, head]
    split
    · rfl
    · rw [List.map_cons, hypothesis there]

/-- The members of the groups of a list of pairs are the hands to which the pairs are dealt. -/
theorem map_members_ofPairs (pairs : List (Pair Form Number)) :
    (ofPairs pairs).map members = dealAll Pair.sameResult pairs := by
  induction pairs using List.reverseRecOn with
  | nil => rfl
  | append_singleton pairs last hypothesis =>
    have step : ofPairs (pairs ++ [last]) = place last (ofPairs pairs) := by
      rw [ofPairs, List.foldl_append]
      rfl
    rw [step, map_members_place last (gathers_ofPairs pairs).known, hypothesis, dealAll, dealAll,
      List.foldl_append]
    rfl

/-- How the pairs are dealt to the groups. -/
theorem exists_home_ofPairs (pairs : List (Pair Form Number)) :
    ∃ home, IsDealt Pair.sameResult pairs ((ofPairs pairs).map members) home := by
  rw [map_members_ofPairs]
  have symm (left right : Pair Form Number) (equal : left.sameResult right = true) :
      right.sameResult left = true :=
    Pair.sameResult_iff.2 (Pair.sameResult_iff.1 equal).symm
  have trans (left middle right : Pair Form Number) (first : left.sameResult middle = true)
      (second : middle.sameResult right = true) : left.sameResult right = true :=
    Pair.sameResult_iff.2 ((Pair.sameResult_iff.1 first).trans (Pair.sameResult_iff.1 second))
  exact IsDealt.exists_home symm trans pairs

theorem ofPairs_ne_nil {pairs : List (Pair Form Number)} (some : pairs ≠ []) :
    ofPairs pairs ≠ [] := by
  intro none
  have gathered := (gathers_ofPairs pairs).members
  rw [none] at gathered
  exact some gathered.nil_eq.symm

end Group

end Dealing

/-! ### The best groups -/

namespace Group

/-- A group is largest if its mass is defined and no other group has a larger one. -/
def IsLargest (groups : List (Group Form Scalar)) (group : Group Form Scalar) : Prop :=
  group.inside.point ≠ .undefined ∧ ∀ other ∈ groups, ¬ group.inside < other.inside

instance (groups : List (Group Form Scalar)) (group : Group Form Scalar) :
    Decidable (IsLargest groups group) :=
  inferInstanceAs (Decidable (_ ∧ _))

/-- If the mass of the first group is defined, some group is largest. -/
theorem largest_ne_nil {first : Group Form Scalar} (rest : List (Group Form Scalar))
    (defined : first.inside.point ≠ .undefined) : largest (first :: rest) ≠ [] := by
  obtain ⟨known, member, _⟩ := firstLargest_scalar inside first rest defined
  refine List.ne_nil_of_mem (List.mem_filter.2 ⟨member, ?_⟩)
  exact Scalar.beq_iff.2 ⟨known, rfl⟩

end Group

/-! ### Joint forests -/

namespace JointForest

/-- How a joint forest partitions a list of pairs, if `home` maps each position of the list to the
place of its group. Two positions have one group if and only if they are the same or have results
that are equal as keys. -/
structure Partitions (forest : JointForest Form Scalar) (pairs : List (Pair Form Scalar))
    (home : Nat → Nat) : Prop where
  dealt : IsDealt Pair.sameResult pairs (forest.groups.map Group.members) home
  together : ∀ {left right first second}, pairs[left]? = some first → pairs[right]? = some second →
    (home left = home right ↔
      left = right ∨ first.evaluation.result.IsEqual second.evaluation.result)
  result : ∀ group ∈ forest.groups, group.result = group.first.evaluation.result
  best : ∀ first rest, forest.groups = first :: rest → first.inside.point ≠ .undefined →
    forest.best = forest.groups.filter fun group => decide (Group.IsLargest forest.groups group)
  best_of_undefined : ∀ first rest, forest.groups = first :: rest →
    first.inside.point = .undefined → forest.best = []
  best_ne_nil : pairs ≠ [] → (∀ group ∈ forest.groups, group.inside.point ≠ .undefined) →
    forest.best ≠ []

section Undefined

variable {forest : JointForest Form Scalar} {pairs : List (Pair Form Scalar)} {home : Nat → Nat}
  {left right : Nat} {first second : Pair Form Scalar}

/-- A pair whose result is an undefined number is in one group with the pairs that have the same
undefined number. -/
theorem Partitions.home_eq_iff_of_undefined (partitions : forest.Partitions pairs home)
    (atLeft : pairs[left]? = some first) (atRight : pairs[right]? = some second) {object : Nat}
    (result : first.evaluation.result = .undefined object) :
    home left = home right ↔ second.evaluation.result = .undefined object := by
  rw [partitions.together atLeft atRight, result, Value.isEqual_undefined_iff]
  refine or_iff_right_of_imp ?_
  rintro rfl
  obtain rfl := Option.some.inj (atLeft.symm.trans atRight)
  exact result

/-- A pair whose result is an undefined float that stands nowhere else is a group of its own. -/
theorem Partitions.home_eq_iff_of_undefined_float (partitions : forest.Partitions pairs home)
    (atLeft : pairs[left]? = some first) (atRight : pairs[right]? = some second) {number : Float}
    (result : first.evaluation.result = .float number)
    (without : .ofFloat number = ExtendedRat.undefined) :
    home left = home right ↔ left = right := by
  rw [partitions.together atLeft atRight, result]
  exact or_iff_left (Value.not_isEqual_of_undefined without _)

end Undefined

theorem exists_partitions (base : ParseForest Form Scalar) (pairs : List (Pair Form Scalar))
    (time : Scalar) (exactEvaluation : Bool) :
    ∃ home, (ofPairs base pairs time exactEvaluation).Partitions pairs home := by
  obtain ⟨home, dealt⟩ := Group.exists_home_ofPairs pairs
  have gathers := Group.gathers_ofPairs pairs
  refine ⟨home, dealt, ?_, fun group member => (gathers.known group member).symm, ?_, ?_, ?_⟩
  · intro left right first second atLeft atRight
    rw [dealt.together atLeft atRight, Pair.sameResult_iff]
  · intro first rest groups defined
    rw [best, groups]
    exact allLargest_scalar Group.inside rest defined
  · intro first rest groups undefined
    rw [best, groups]
    exact allLargest_scalar_of_undefined Group.inside rest undefined
  · intro some defined
    obtain ⟨first, rest, groups⟩ := List.exists_cons_of_ne_nil (Group.ofPairs_ne_nil some)
    have here : (ofPairs base pairs time exactEvaluation).groups = first :: rest := groups
    rw [best, here]
    exact Group.largest_ne_nil rest (defined first (here ▸ List.mem_cons_self))

/-- A pair is the first of a list whose result is no key, because of a value of some kind. -/
def IsFirstUnhashable (pairs : List (Pair Form Scalar)) (container : String)
    (pair : Pair Form Scalar) : Prop :=
  ∃ before after, pairs = before ++ pair :: after ∧ pair.evaluation.result.IsUnhashable ∧
    pair.evaluation.result.unhashable? = some container ∧
      ∀ earlier ∈ before, ¬ earlier.evaluation.result.IsUnhashable

theorem isFirstUnhashable_of_malformedPair? {pairs : List (Pair Form Scalar)} {container : String}
    {pair : Pair Form Scalar} (found : malformedPair? pairs = some (container, pair)) :
    IsFirstUnhashable pairs container pair := by
  obtain ⟨before, first, after, rfl, here, none⟩ := List.findSome?_eq_some_iff.1 found
  obtain ⟨kind, obstacle, same⟩ := Option.map_eq_some_iff.1 here
  obtain ⟨rfl, rfl⟩ := Prod.mk.inj same
  refine ⟨before, after, rfl, ?_, obstacle, fun earlier member unhashable => ?_⟩
  · exact Value.isSome_unhashable?.1 (Option.isSome_iff_exists.2 ⟨kind, obstacle⟩)
  · have clear := Option.map_eq_none_iff.1 (none earlier member)
    have blocked := Value.isSome_unhashable?.2 unhashable
    rw [clear] at blocked
    cases blocked

theorem malformedPair?_eq_none_iff {pairs : List (Pair Form Scalar)} :
    malformedPair? pairs = none ↔ ∀ pair ∈ pairs, ¬ pair.evaluation.result.IsUnhashable := by
  rw [malformedPair?, List.findSome?_eq_none_iff]
  refine forall₂_congr fun pair _ => ?_
  rw [Option.map_eq_none_iff, ← Value.isSome_unhashable?, Bool.not_eq_true,
    Option.isSome_eq_false_iff, Option.isNone_iff_eq_none]

/-- What comes of building a joint forest from any list of pairs. A result that is no key is
reported, and always with the first pair that has one. Otherwise the groups partition the pairs,
unless a whole number is beyond the range of floats. -/
theorem assemble_partitions (base : ParseForest Form Scalar) (pairs : List (Pair Form Scalar))
    (time : Scalar) (exactEvaluation : Bool) :
    ((∃ container pair, assemble base pairs time exactEvaluation =
        .error (.malformed container pair)) ↔
      ∃ pair ∈ pairs, pair.evaluation.result.IsUnhashable) ∧
    match assemble base pairs time exactEvaluation with
    | .error (.malformed container pair) => IsFirstUnhashable pairs container pair
    | .error .outOfRange => ∃ pair ∈ pairs, pair.IsOutOfRange
    | .ok forest => ∃ home, forest.Partitions pairs home := by
  unfold assemble
  cases found : malformedPair? pairs with
  | some malformed =>
    obtain ⟨container, pair⟩ := malformed
    have first := isFirstUnhashable_of_malformedPair? found
    refine ⟨iff_of_true ⟨container, pair, rfl⟩ ?_, first⟩
    obtain ⟨before, after, rfl, unhashable, _⟩ := first
    exact ⟨pair, List.mem_append_right _ List.mem_cons_self, unhashable⟩
  | none =>
    have clear := malformedPair?_eq_none_iff.1 found
    have noObstacle : ¬ ∃ pair ∈ pairs, pair.evaluation.result.IsUnhashable :=
      fun ⟨pair, member, unhashable⟩ => clear pair member unhashable
    by_cases lost : (Group.ofPairs pairs).any Group.isLost = true
    · rw [ofPairs, if_pos lost]
      refine ⟨iff_of_false (fun ⟨_, _, malformed⟩ => ?_) noObstacle, ?_⟩
      · cases malformed
      · obtain ⟨group, groupMember, groupLost⟩ := List.any_eq_true.1 lost
        obtain ⟨pair, pairMember, pairLost⟩ := List.any_eq_true.1 groupLost
        have placed := List.mem_flatMap.2 ⟨group, groupMember, pairMember⟩
        exact ⟨pair, (Group.gathers_ofPairs pairs).members.mem_iff.1 placed,
          Pair.isOutOfRange_of_lost pairLost⟩
    · rw [ofPairs, if_neg lost]
      refine ⟨iff_of_false (fun ⟨_, _, malformed⟩ => ?_) noObstacle, ?_⟩
      · cases malformed
      · exact exists_partitions base pairs time exactEvaluation

/-- Pairs with one undefined number are a group, and so are pairs with tuples that hold it. -/
example (parse : Parse Form Scalar) :
    (Group.ofPairs ([.undefined 0, .tuple [.undefined 0], .undefined 1, .undefined 0,
        .tuple [.undefined 0]].map fun result => Pair.mk parse ⟨result, 0, .empty⟩)).map
      (fun group => (group.result, group.members.length)) =
        [(.undefined 0, 2), (.tuple [.undefined 0], 2), (.undefined 1, 1)] := by
  rfl

end JointForest

end WordArithmetic
