/-
This file shows that joint inference is a sum over joint derivations.

A joint derivation is a pair with a derivation of its form. The library never lists them: it sums
over groups, over the pairs of a group and over the derivations of a parse, collects the features of
derivations in one pass over the base forest with the masses of the evaluations as outside scores,
and skips whatever has no mass. Over exact numbers all of this is the plain sum. Nothing is asked of
the exponential, not even that it is positive.
-/

import Mathlib.Algebra.BigOperators.Group.List.Basic
import Mathlib.Algebra.BigOperators.Ring.List
import WordArithmetic.Lambda.Evaluation
import WordArithmetic.Proofs.Forest.Packing

namespace WordArithmetic

/-- Latent forms are packed by an equality that is an equivalence. -/
instance : EquivBEq LatentForm where
  symm {left right} same := by
    obtain ⟨kind, printed⟩ := (Bool.and_eq_true _ _).mp same
    exact (Bool.and_eq_true _ _).mpr ⟨BEq.symm kind, BEq.symm printed⟩
  trans {left middle right} first second := by
    obtain ⟨kind, printed⟩ := (Bool.and_eq_true _ _).mp first
    obtain ⟨kindRight, printedRight⟩ := (Bool.and_eq_true _ _).mp second
    exact (Bool.and_eq_true _ _).mpr ⟨BEq.trans kind kindRight, BEq.trans printed printedRight⟩
  rfl {form} := (Bool.and_eq_true _ _).mpr ⟨BEq.rfl, BEq.rfl⟩

namespace JointForest

section Derivations

variable {Form Number : Type} [BEq Form] [Mul Number] [LogScore Number]

/-- The joint derivations of the pairs whose result passes a test: each of these pairs with every
derivation of its form. -/
def jointDerivations (base : ParseForest Form Number) (pairs : List (Pair Form Number))
    (passes : Value → Bool) : List (Pair Form Number × Derivation Form Number) :=
  (pairs.filter fun pair => passes pair.evaluation.result).flatMap fun pair =>
    (base.derivations.filter fun derivation => derivation.form == pair.parse.form).map (pair, ·)

/-- The mass of a joint derivation. -/
def jointMass (joint : Pair Form Number × Derivation Form Number) : Number :=
  LogScore.exp joint.1.evaluation.score * LogScore.exp joint.2.score

end Derivations

/-- A sum over joint derivations is a sum over pairs and over the derivations of each. -/
theorem sum_map_flatMap {Left Right Number : Type} [AddCommMonoid Number] (lefts : List Left)
    (rights : Left → List Right) (value : Left × Right → Number) :
    ((lefts.flatMap fun left => (rights left).map (left, ·)).map value).sum =
      (lefts.map fun left => ((rights left).map fun right => value (left, right)).sum).sum := by
  induction lefts with
  | nil => rfl
  | cons first rest hypothesis =>
    rw [List.flatMap_cons, List.map_append, List.sum_append, hypothesis, List.map_cons,
      List.sum_cons, List.map_map]
    rfl

/-- A double sum over the related elements of two lists may start with either list. -/
theorem sum_map_filter_comm {Left Right Number : Type} [AddCommMonoid Number]
    (related : Left → Right → Bool) (value : Left → Right → Number) (lefts : List Left)
    (rights : List Right) :
    (lefts.map fun left =>
      ((rights.filter fun right => related left right).map fun right => value left right).sum).sum =
    (rights.map fun right =>
      ((lefts.filter fun left => related left right).map fun left => value left right).sum).sum := by
  simp only [sum_map_filter]
  induction lefts with
  | nil =>
    symm
    exact List.sum_eq_zero fun number member => by
      obtain ⟨right, _, rfl⟩ := List.mem_map.1 member
      rfl
  | cons first rest hypothesis =>
    simp only [List.map_cons, List.sum_cons, hypothesis]
    rw [← List.sum_map_add]

/-! ### Masses -/

/-- The mass of some groups is the sum of the masses of their members. -/
theorem norm_eq_sum_inside {Form Number : Type} [AddCommMonoid Number] [Mul Number] [BEq Number]
    [LogScore Number] (groups : List (Group Form Number)) :
    norm groups = ((groups.flatMap Group.members).map Pair.inside).sum := by
  rw [norm, total_eq_sum]
  induction groups with
  | nil => rfl
  | cons first rest hypothesis =>
    rw [List.map_cons, List.sum_cons, hypothesis, Group.inside, total_eq_sum, List.flatMap_cons,
      List.map_append, List.sum_append]

section Mass

variable {Form Number : Type} [CommSemiring Number] [LogScore Number]

/-- The mass of a parse times anything is a sum over the derivations of its form. -/
theorem mul_inside_eq_sum [BEq Form] [EquivBEq Form] [LT Number] [DecidableLT Number]
    {base : ParseForest Form Number} {parse : Parse Form Number}
    (member : parse ∈ base.parses) (factor : Number) :
    factor * parse.inside =
      ((base.derivations.filter fun derivation => derivation.form == parse.form).map
        fun derivation => factor * LogScore.exp derivation.score).sum := by
  rw [ParseForest.inside_eq_mass member, ParseForest.mass, ← List.sum_map_mul_left]

variable [BEq Number] [LawfulBEq Number]

/-- The mass of a pair is the product of two masses, whether or not one of them is zero. -/
theorem inside_eq_mul (pair : Pair Form Number) :
    pair.inside = LogScore.exp pair.evaluation.score * pair.parse.inside := by
  unfold Pair.inside
  split
  · rename_i none
    rw [beq_iff_eq.1 none, mul_zero]
  · rfl

/-- The mass of some groups is the sum over their members of the products of two masses. -/
theorem norm_eq_sum (groups : List (Group Form Number)) :
    norm groups = ((groups.flatMap Group.members).map fun pair =>
      LogScore.exp pair.evaluation.score * pair.parse.inside).sum := by
  rw [norm_eq_sum_inside]
  exact congrArg List.sum (List.map_congr_left fun pair _ => inside_eq_mul pair)

end Mass

/-! ### Features -/

section Features

variable {Form Number : Type} [CommSemiring Number] [LogScore Number]

/-- A derivation counts in the expected features of some groups with the masses of all evaluations
of its form, so the sum over derivations is one over pairs and their derivations. -/
theorem sum_outside_eq [BEq Form] [EquivBEq Form] (base : ParseForest Form Number)
    (groups : List (Group Form Number)) (value : Derivation Form Number → Number) :
    (base.derivations.map fun derivation =>
      outside groups derivation.form * LogScore.exp derivation.score * value derivation).sum =
    ((groups.flatMap Group.members).map fun pair =>
      ((base.derivations.filter fun derivation => derivation.form == pair.parse.form).map
        fun derivation => jointMass (pair, derivation) * value derivation).sum).sum := by
  have swapped := sum_map_filter_comm
    (fun (pair : Pair Form Number) (derivation : Derivation Form Number) =>
      derivation.form == pair.parse.form)
    (fun pair derivation => jointMass (pair, derivation) * value derivation)
    (groups.flatMap Group.members) base.derivations
  rw [swapped]
  congr 1
  refine List.map_congr_left fun derivation _ => ?_
  rw [outside, total_eq_sum, mul_assoc, ← List.sum_map_mul_right]
  have symmetric : (fun pair : Pair Form Number => pair.parse.form == derivation.form) =
      fun pair => derivation.form == pair.parse.form := by
    funext pair
    exact BEq.comm
  rw [symmetric]
  congr 1
  refine List.map_congr_left fun pair _ => ?_
  rw [jointMass, mul_assoc]

variable [BEq Number] [LawfulBEq Number]

theorem weight_expectedFeatures_base (base : ParseForest Form Number) (outside : Form → Number)
    (key : Symbol) :
    (base.expectedFeatures outside).weight key =
      (base.derivations.map fun derivation =>
        outside derivation.form * LogScore.exp derivation.score *
          derivation.features.weight key).sum := by
  rw [ParseForest.expectedFeatures]
  refine (FeatureVector.weight_foldl_addTimes _ _ _ (fun derivation none => ?_) _ _ key).trans ?_
  · rw [none, zero_mul]
  · rw [FeatureVector.weight_zero, zero_add]

theorem weight_addEvaluationFeatures (pairs : List (Pair Form Number))
    (expected : FeatureVector Number) (key : Symbol) :
    (addEvaluationFeatures pairs expected).weight key =
      expected.weight key +
        (pairs.map fun pair =>
          LogScore.exp pair.evaluation.score * pair.parse.inside *
            pair.evaluation.features.weight key).sum := by
  rw [addEvaluationFeatures]
  refine FeatureVector.weight_foldl_addTimes _ _ _ (fun pair none => ?_) _ _ key
  rw [none, mul_zero]

end Features

section Inference

variable {Form Number : Type} [BEq Form] [EquivBEq Form] [CommSemiring Number] [BEq Number]
  [LawfulBEq Number] [LT Number] [DecidableLT Number] [LogScore Number]

/-- Joint inference is a sum over joint derivations. Whatever pairs of parses of a forest with
evaluations are given, and whatever test decides on their results and treats equal ones alike: the
mass of the groups that pass it is the mass of the joint derivations of the pairs that pass it, and
their expected features are the features of these joint derivations, each with its mass. -/
theorem inference_eq_enumeration (base : ParseForest Form Number)
    (pairs : List (Pair Form Number)) (time : Number) (exactEvaluation : Bool)
    (accept : Value → Except Failure Bool) (passes : Value → Bool)
    (taken : ∀ pair ∈ pairs, pair.parse ∈ base.parses)
    (decides : ∀ pair ∈ pairs,
      accept pair.evaluation.result = .ok (passes pair.evaluation.result))
    (alike : ∀ left ∈ pairs, ∀ right ∈ pairs,
      left.evaluation.result.same right.evaluation.result = true →
        passes left.evaluation.result = passes right.evaluation.result) :
    let forest := ofPairs base pairs time exactEvaluation
    ∃ selected, Group.select forest.groups accept = .ok selected ∧
      norm selected = ((jointDerivations base pairs passes).map jointMass).sum ∧
      ∀ key, (forest.expectedFeatures selected).weight key =
        ((jointDerivations base pairs passes).map fun joint =>
          jointMass joint * (joint.2.features.weight key +
            joint.1.evaluation.features.weight key)).sum := by
  intro forest
  have gathers := Group.gathers_ofPairs pairs
  have placed : ∀ group ∈ Group.ofPairs pairs, ∀ pair ∈ group.members, pair ∈ pairs :=
    fun group member pair pairMember =>
      gathers.members.mem_iff.1 (List.mem_flatMap.2 ⟨group, member, pairMember⟩)
  have decided : ∀ group ∈ Group.ofPairs pairs,
      accept group.result = .ok (passes group.result) := by
    intro group member
    rw [← gathers.known group member]
    exact decides group.first (placed group member _ List.mem_cons_self)
  have order : ((forest.groups.filter fun group => passes group.result).flatMap
      Group.members).Perm (pairs.filter fun pair => passes pair.evaluation.result) :=
    gathers.members_filter alike
  have sameBase : forest.base = base := rfl
  refine ⟨_, Group.select_eq_filter decided, ?_, fun key => ?_⟩
  · rw [norm_eq_sum, (order.map _).sum_eq, jointDerivations, sum_map_flatMap]
    congr 1
    refine List.map_congr_left fun pair member => ?_
    exact mul_inside_eq_sum (taken pair (List.mem_of_mem_filter member)) _
  · rw [expectedFeatures, weight_addEvaluationFeatures, weight_expectedFeatures_base,
      sum_outside_eq, sameBase, (order.map _).sum_eq, (order.map _).sum_eq, jointDerivations,
      sum_map_flatMap, ← List.sum_map_add]
    congr 1
    refine List.map_congr_left fun pair member => ?_
    rw [mul_inside_eq_sum (taken pair (List.mem_of_mem_filter member)),
      ← List.sum_map_mul_right, ← List.sum_map_add]
    congr 1
    refine List.map_congr_left fun derivation _ => ?_
    rw [jointMass, mul_add]

end Inference

/-! ### Two forms and two results -/

/-- Natural numbers as scores, with powers of two as masses. -/
instance powersOfTwo : LogScore Nat where
  exp score := 2 ^ score
  lowest := 0
  isAboveLowest _ := true
  floor := none
  isTooLarge _ := false

/-- Three derivations of two forms. -/
def sampleBase : ParseForest LatentForm Nat where
  derivations :=
    [⟨⟨Term.free "a", "a"⟩, 1, Table.ofList [(.name "left", 1)]⟩,
      ⟨⟨Term.free "b", "b"⟩, 0, FeatureVector.zero⟩,
      ⟨⟨Term.free "a", "a"⟩, 2, Table.ofList [(.name "right", 3)]⟩]
  exact := true

/-- Every form is executed twice, with a number and with a text as results. -/
def samplePairs : List (Pair LatentForm Nat) :=
  sampleBase.parses.flatMap fun parse =>
    [⟨parse, ⟨.integer 6, 1, Table.ofList [(.name "six", 1)]⟩⟩,
      ⟨parse, ⟨.text "six", 0, FeatureVector.zero⟩⟩]

/-- Whether a value is a number. -/
def isNumber (value : Value) : Bool :=
  value.number?.isSome

theorem mem_samplePairs {pair : Pair LatentForm Nat} (member : pair ∈ samplePairs) :
    pair.parse ∈ sampleBase.parses ∧
      (pair.evaluation.result = .integer 6 ∨ pair.evaluation.result = .text "six") := by
  obtain ⟨parse, parseMember, made⟩ := List.mem_flatMap.1 member
  rcases List.mem_cons.1 made with rfl | later
  · exact ⟨parseMember, Or.inl rfl⟩
  · obtain rfl := List.mem_singleton.1 later
    exact ⟨parseMember, Or.inr rfl⟩

/-- The sums of the sample over the results that are numbers. -/
theorem inference_eq_enumeration_sample :
    (∀ pair ∈ samplePairs, pair.parse ∈ sampleBase.parses) ∧
    (∀ left ∈ samplePairs, ∀ right ∈ samplePairs,
      left.evaluation.result.same right.evaluation.result = true →
        isNumber left.evaluation.result = isNumber right.evaluation.result) ∧
    ∃ selected, Group.select (ofPairs sampleBase samplePairs 0 true).groups
        (fun result => .ok (isNumber result)) = .ok selected ∧
      norm selected = ((jointDerivations sampleBase samplePairs isNumber).map jointMass).sum ∧
      ∀ key, ((ofPairs sampleBase samplePairs 0 true).expectedFeatures selected).weight key =
        ((jointDerivations sampleBase samplePairs isNumber).map fun joint =>
          jointMass joint * (joint.2.features.weight key +
            joint.1.evaluation.features.weight key)).sum := by
  have taken : ∀ pair ∈ samplePairs, pair.parse ∈ sampleBase.parses :=
    fun pair member => (mem_samplePairs member).1
  have alike : ∀ left ∈ samplePairs, ∀ right ∈ samplePairs,
      left.evaluation.result.same right.evaluation.result = true →
        isNumber left.evaluation.result = isNumber right.evaluation.result := by
    intro left leftMember right rightMember same
    rcases (mem_samplePairs leftMember).2 with first | first <;>
      rcases (mem_samplePairs rightMember).2 with second | second <;>
      rw [first, second] at same ⊢ <;> cases same
  exact ⟨taken, alike, inference_eq_enumeration sampleBase samplePairs 0 true
    (fun result => .ok (isNumber result)) isNumber taken (fun _ _ => rfl) alike⟩

end JointForest

end WordArithmetic
