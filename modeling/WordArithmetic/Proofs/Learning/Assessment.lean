/-
This file says within which bounds an assessment lies.

An item adds to the tally whether it is right and the share of its valid mass, neither of which is
negative or more than one. Both divisions are guarded: the one by the mass of an item, and the one
by the number of items. So nothing is asked of a division by zero, which may come to anything.
-/

import Mathlib.Algebra.Order.Field.Rat
import WordArithmetic.Learning.Assessment
import WordArithmetic.Proofs.Forest.Conservation
import WordArithmetic.Proofs.Learning.Ascent

namespace WordArithmetic

open JointForest

variable {Form Number : Type}

/-! ### Items -/

namespace Item

/-- An item is parsed, and every hypothesis about a result of its forest is decided. -/
def IsDecided (theta : FeatureVector Number) (item : Item Form Number) : Prop :=
  ∃ report forest, item.parse theta = (report, .ok forest) ∧
    ∀ group ∈ forest.groups, ∀ form, ∃ answer, item.accepts form group.result = .ok answer

/-- The forest of an item, if it has one, has masses that are not negative. -/
def HasMasses [Zero Number] [LE Number] (theta : FeatureVector Number) (item : Item Form Number) :
    Prop :=
  ∀ report forest, item.parse theta = (report, .ok forest) → HaveMasses forest.groups

/-- The forest of an item, if it has one, has some mass, and all of its results are valid. -/
def IsCertain [Zero Number] [Add Number] [Mul Number] [LT Number] [BEq Number] [LogScore Number]
    (theta : FeatureVector Number) (item : Item Form Number) : Prop :=
  ∀ report forest, item.parse theta = (report, .ok forest) →
    0 < norm forest.groups ∧
      ∀ group ∈ forest.groups, item.accepts none group.result = .ok true

end Item

namespace Assessment

/-! ### Outcomes -/

section Outcome

variable [Zero Number] [Add Number] [Mul Number] [BEq Number] [LT Number] [DecidableLT Number]
  [LogScore Number] {item : Item Form Number} {forest : JointForest Form Number}

theorem exists_isCorrect
    (decided : ∀ group ∈ forest.groups, ∀ form,
      ∃ answer, item.accepts form group.result = .ok answer) :
    ∃ answer, isCorrect item forest = .ok answer := by
  unfold isCorrect
  split
  · rename_i group only
    have among : group ∈ forest.groups := by
      have first : group ∈ forest.best := only ▸ List.mem_singleton_self group
      revert first
      rw [JointForest.best, Group.largest]
      cases forest.groups with
      | nil => exact fun absent => absurd absent List.not_mem_nil
      | cons first rest => exact List.mem_of_mem_filter
    exact decided group among _
  · exact ⟨false, rfl⟩

variable [Div Number]

theorem exists_count
    (decided : ∀ group ∈ forest.groups, ∀ form,
      ∃ answer, item.accepts form group.result = .ok answer) (tally : Tally Number) :
    ∃ next, count item forest tally = .ok next := by
  obtain ⟨correct, answered⟩ := exists_isCorrect decided
  obtain ⟨passes, decides⟩ := Group.exists_passes fun group member => decided group member none
  unfold count
  rw [answered]
  by_cases massive : 0 < norm forest.groups
  · exact ⟨_, by simp only [massive, if_true, Group.select_eq_filter decides]; rfl⟩
  · exact ⟨_, by simp only [massive, if_false]; rfl⟩

/-- What counting a forest adds: it is right or not, and if it has any mass, the share of its valid
results is added. -/
theorem count_cases {tally next : Tally Number} (counted : count item forest tally = .ok next) :
    next.correct ≤ tally.correct + 1 ∧
      ((0 < norm forest.groups ∧ ∃ passes : Value → Bool,
          (∀ group ∈ forest.groups, item.accepts none group.result = .ok (passes group.result)) ∧
            next.mass = tally.mass + norm (forest.accepted passes) / norm forest.groups) ∨
        (¬ 0 < norm forest.groups ∧ next.mass = tally.mass)) := by
  obtain ⟨correct, answered, counted⟩ := bind_eq_ok counted
  have correct_le : (if correct = true then tally.correct + 1 else tally.correct) ≤
      tally.correct + 1 := by
    split
    · exact le_refl _
    · exact Nat.le_succ _
  by_cases massive : 0 < norm forest.groups
  · simp only [massive, if_true] at counted
    obtain ⟨valid, selected, counted⟩ := bind_eq_ok counted
    obtain ⟨passes, decides, rfl⟩ := Group.exists_passes_of_select selected
    obtain rfl := Except.ok.inj counted
    exact ⟨correct_le, Or.inl ⟨massive, passes, decides, rfl⟩⟩
  · simp only [massive, if_false] at counted
    obtain rfl := Except.ok.inj counted
    exact ⟨correct_le, Or.inr ⟨massive, rfl⟩⟩

variable {theta : FeatureVector Number}

/-- Items that are decided can be counted. -/
theorem exists_countAll {items : List (Item Form Number)}
    (decided : ∀ item ∈ items, item.IsDecided theta) (tally : Tally Number) :
    ∃ last, (countAll theta items tally).2 = .ok last := by
  induction items generalizing tally with
  | nil => exact ⟨tally, rfl⟩
  | cons item rest hypothesis =>
    obtain ⟨⟨report, forest, parsed, answered⟩, others⟩ := List.forall_mem_cons.1 decided
    obtain ⟨next, counted⟩ := exists_count answered tally
    obtain ⟨last, followed⟩ := hypothesis others next
    refine ⟨last, ?_⟩
    unfold countAll
    simp only [parsed, Except.bind, counted, Except.map]
    exact followed

/-- Where items have been counted, the first was parsed and counted before the others. -/
theorem countAll_cons {rest : List (Item Form Number)} {tally last : Tally Number}
    (counted : (countAll theta (item :: rest) tally).2 = .ok last) :
    ∃ report forest next, item.parse theta = (report, .ok forest) ∧
      count item forest tally = .ok next ∧ (countAll theta rest next).2 = .ok last := by
  unfold countAll at counted
  cases parsed : item.parse theta with
  | mk report outcome =>
    rw [parsed] at counted
    cases outcome with
    | error failure => cases counted
    | ok forest =>
      cases first : count item forest tally with
      | error failure =>
        simp only [Except.bind, first] at counted
        cases counted
      | ok next =>
        simp only [Except.bind, first, Except.map] at counted
        exact ⟨report, forest, next, rfl, first, counted⟩

end Outcome

/-! ### Bounds -/

/-- What some items add to a tally: each counts as right once at most, and adds a mass between zero
and one, which is one if the item is certain. -/
structure Tally.IsRaisedBy [Zero Number] [Add Number] [Mul Number] [LE Number] [LT Number]
    [BEq Number] [NatCast Number] [LogScore Number] (theta : FeatureVector Number)
    (items : List (Item Form Number)) (before after : Tally Number) : Prop where
  correct_le : after.correct ≤ before.correct + items.length
  le_mass : before.mass ≤ after.mass
  mass_le : after.mass ≤ before.mass + (items.length : Number)
  certain : (∀ item ∈ items, item.IsCertain theta) →
    after.mass = before.mass + (items.length : Number)

/-- An accuracy and a mean mass that both lie between zero and one. -/
structure IsBounded [Zero Number] [One Number] [LE Number] (assessment : Assessment Number) :
    Prop where
  accuracy_nonneg : 0 ≤ assessment.accuracy
  accuracy_le_one : assessment.accuracy ≤ 1
  mass_nonneg : 0 ≤ assessment.mass
  mass_le_one : assessment.mass ≤ 1

section Bounds

variable [CommRing Number] [LinearOrder Number] [IsStrictOrderedRing Number] [Div Number]

/-- A part of a whole that is not negative has a share between zero and one. -/
theorem div_mem_unit
    (divides : ∀ dividend divisor : Number, divisor ≠ 0 → dividend / divisor * divisor = dividend)
    {part whole : Number} (nonneg : 0 ≤ part) (bounded : part ≤ whole) (positive : 0 < whole) :
    0 ≤ part / whole ∧ part / whole ≤ 1 := by
  have product := divides part whole positive.ne'
  constructor
  · refine le_of_mul_le_mul_right ?_ positive
    rw [zero_mul, product]
    exact nonneg
  · refine le_of_mul_le_mul_right ?_ positive
    rw [one_mul, product]
    exact bounded

variable [BEq Number] [LogScore Number]
  (nonneg : ∀ score : Number, 0 ≤ LogScore.exp score)
  (divides : ∀ dividend divisor : Number, divisor ≠ 0 → dividend / divisor * divisor = dividend)
  {theta : FeatureVector Number}

include nonneg divides

/-- An item is right at most once, and adds a share of its mass. -/
theorem isRaisedBy_count {item : Item Form Number} {report : ParseReport}
    {forest : JointForest Form Number} (parsed : item.parse theta = (report, .ok forest))
    (masses : HaveMasses forest.groups) {before after : Tally Number}
    (counted : count item forest before = .ok after) :
    Tally.IsRaisedBy theta [item] before after := by
  obtain ⟨correct, ⟨massive, passes, decides, mass⟩ | ⟨massless, mass⟩⟩ := count_cases counted
  · have part := List.filter_sublist (p := fun group => passes group.result) (l := forest.groups)
    have positive := norm_nonneg nonneg fun group member => masses group (part.mem member)
    obtain ⟨atLeast, atMost⟩ :=
      div_mem_unit divides positive (norm_le_of_sublist nonneg masses part) massive
    refine ⟨correct, ?_, ?_, fun certain => ?_⟩
    · rw [mass]
      exact le_add_of_nonneg_right atLeast
    · rw [mass, List.length_singleton, Nat.cast_one]
      exact add_le_add_right atMost _
    · have allValid : forest.accepted passes = forest.groups := by
        refine List.filter_eq_self.2 fun group member => ?_
        have valid := (certain item (List.mem_singleton_self item) report forest parsed).2
        exact Except.ok.inj ((decides group member).symm.trans (valid group member))
      have whole : norm forest.groups / norm forest.groups = 1 := by
        refine mul_right_cancel₀ massive.ne' ?_
        rw [divides _ _ massive.ne', one_mul]
      rw [mass, allValid, whole, List.length_singleton, Nat.cast_one]
  · have atMost : before.mass ≤ before.mass + ([item].length : Number) :=
      le_add_of_nonneg_right (Nat.cast_nonneg _)
    refine ⟨correct, mass.ge, mass.trans_le atMost, fun certain => ?_⟩
    exact absurd (certain item (List.mem_singleton_self item) report forest parsed).1 massless

/-- All items together are right at most as often as there are items, and add shares. -/
theorem isRaisedBy_countAll {items : List (Item Form Number)}
    (masses : ∀ item ∈ items, item.HasMasses theta) {before after : Tally Number}
    (counted : (countAll theta items before).2 = .ok after) :
    Tally.IsRaisedBy theta items before after := by
  induction items generalizing before with
  | nil =>
    obtain rfl := Except.ok.inj counted
    refine ⟨le_refl _, le_refl _, ?_, fun _ => ?_⟩
    · rw [List.length_nil, Nat.cast_zero, add_zero]
    · rw [List.length_nil, Nat.cast_zero, add_zero]
  | cons item rest hypothesis =>
    obtain ⟨report, forest, next, parsed, first, followed⟩ := countAll_cons counted
    obtain ⟨here, others⟩ := List.forall_mem_cons.1 masses
    have one := isRaisedBy_count nonneg divides parsed (here report forest parsed) first
    have more := hypothesis others followed
    have count : ((item :: rest).length : Number) = ([item].length : Number) + rest.length := by
      rw [List.length_cons, List.length_singleton, Nat.cast_succ, Nat.cast_one, add_comm]
    refine ⟨?_, one.le_mass.trans more.le_mass, ?_, fun certain => ?_⟩
    · have step := one.correct_le
      have steps := more.correct_le
      rw [List.length_singleton] at step
      rw [List.length_cons]
      omega
    · rw [count, ← add_assoc]
      exact more.mass_le.trans (add_le_add_left one.mass_le _)
    · obtain ⟨certainHere, certainOthers⟩ := List.forall_mem_cons.1 certain
      rw [more.certain certainOthers, one.certain (List.forall_mem_singleton.2 certainHere), count,
        add_assoc]

omit nonneg in
/-- The assessment of items with a tally to which they have added. -/
theorem isBounded_ofTally {items : List (Item Form Number)} {tally : Tally Number}
    (raised : Tally.IsRaisedBy theta items .start tally) :
    (ofTally tally items.length).IsBounded ∧
      (items ≠ [] → (∀ item ∈ items, item.IsCertain theta) →
        (ofTally tally items.length).mass = 1) := by
  cases items with
  | nil => exact ⟨⟨le_refl 0, zero_le_one, le_refl 0, zero_le_one⟩, fun some => absurd rfl some⟩
  | cons item rest =>
    have counted : ofTally tally (item :: rest).length =
        ⟨(tally.correct : Number) / ((item :: rest).length : Number),
          tally.mass / ((item :: rest).length : Number)⟩ := if_neg (Nat.succ_ne_zero _)
    have positive : 0 < ((item :: rest).length : Number) := Nat.cast_pos.2 (Nat.succ_pos _)
    have correct : tally.correct ≤ (item :: rest).length := by
      rw [← Nat.zero_add (item :: rest).length]
      exact raised.correct_le
    have mass : tally.mass ≤ ((item :: rest).length : Number) := by
      rw [← zero_add ((item :: rest).length : Number)]
      exact raised.mass_le
    obtain ⟨accuracyNonneg, accuracyLe⟩ :=
      div_mem_unit divides (Nat.cast_nonneg tally.correct) (Nat.cast_le.2 correct) positive
    obtain ⟨massNonneg, massLe⟩ := div_mem_unit divides raised.le_mass mass positive
    rw [counted]
    refine ⟨⟨accuracyNonneg, accuracyLe, massNonneg, massLe⟩, fun _ certain => ?_⟩
    have whole : tally.mass = ((item :: rest).length : Number) :=
      (raised.certain certain).trans (zero_add _)
    refine mul_right_cancel₀ positive.ne' ?_
    rw [one_mul]
    exact (divides _ _ positive.ne').trans whole

end Bounds

/-- Mass is conserved. Over exact numbers, with masses that are not negative and a division of which
nothing is known where the divisor is zero: a test that decides on the groups of a forest splits
their mass in two parts that are not negative, and the groups of any pairs have the mass of all
pairs. So whatever an assessment of items under any weights comes to, its accuracy and its mean mass
lie between zero and one, and it comes to something if all items are parsed and decided. The mean
mass of some items is one if each of them has some mass and all of its results are valid. -/
theorem mass_is_conserved {Form Number : Type} [BEq Form] [CommRing Number] [LinearOrder Number]
    [IsStrictOrderedRing Number] [Div Number] [BEq Number] [LogScore Number]
    (nonneg : ∀ score : Number, 0 ≤ LogScore.exp score)
    (divides : ∀ dividend divisor : Number,
      divisor ≠ 0 → dividend / divisor * divisor = dividend) :
    (∀ (forest : JointForest Form Number) (accept : Value → Except Failure Bool),
      HaveMasses forest.groups →
      (∀ group ∈ forest.groups, ∃ answer, accept group.result = .ok answer) →
      ∃ accepted refused, Group.select forest.groups accept = .ok accepted ∧
        Group.select forest.groups (fun result => (accept result).map not) = .ok refused ∧
        norm accepted + norm refused = norm forest.groups ∧
        0 ≤ norm accepted ∧ norm accepted ≤ norm forest.groups) ∧
    (∀ (base : ParseForest Form Number) (pairs : List (Pair Form Number)) (time : Number)
        (exactEvaluation : Bool),
      norm (ofPairs base pairs time exactEvaluation).groups = (pairs.map Pair.inside).sum) ∧
    ∀ (theta : FeatureVector Number) (items : List (Item Form Number)),
      (∀ item ∈ items, item.HasMasses theta) →
      ((∀ item ∈ items, item.IsDecided theta) →
        ∃ assessment, (ofItems theta items).2 = .ok assessment) ∧
      ∀ assessment, (ofItems theta items).2 = .ok assessment →
        assessment.IsBounded ∧
          (items ≠ [] → (∀ item ∈ items, item.IsCertain theta) → assessment.mass = 1) := by
  refine ⟨fun forest accept masses answered => exists_split nonneg masses answered,
    fun base pairs time exactEvaluation => norm_ofPairs pairs,
    fun theta items masses => ⟨fun decided => ?_, fun assessment assessed => ?_⟩⟩
  · obtain ⟨tally, counted⟩ := exists_countAll decided .start
    exact ⟨ofTally tally items.length, congrArg (Except.map _) counted⟩
  · cases counted : (countAll theta items .start).2 with
    | error failure =>
      have failed : (ofItems theta items).2 = .error failure := congrArg (Except.map _) counted
      rw [failed] at assessed
      cases assessed
    | ok tally =>
      have made : (ofItems theta items).2 = .ok (ofTally tally items.length) :=
        congrArg (Except.map _) counted
      obtain rfl := Except.ok.inj (made.symm.trans assessed)
      exact isBounded_ofTally divides (isRaisedBy_countAll nonneg divides masses counted)

/-! ### Two items -/

/-- An item with a valid and an invalid result, and one whose only result is valid. -/
def assessedItems : List (Item String ℚ) :=
  [numeralItem [("six", 6), ("seven", 7)], numeralItem [("six", 6)]]

theorem exists_numerals_of_mem {item : Item String ℚ} (member : item ∈ assessedItems) :
    ∃ numerals, item = numeralItem numerals := by
  rcases List.mem_cons.1 member with rfl | later
  · exact ⟨_, rfl⟩
  · exact ⟨_, List.mem_singleton.1 later⟩

/-- The even and the odd results of the first forest have its mass, which is two. The two items are
assessed within the bounds, and the second one alone has the mean mass one. -/
theorem mass_is_conserved_numerals :
    (∃ accepted refused,
      Group.select (numeralForest [("six", 6), ("seven", 7)]).groups
        (fun result => .ok (isEven result)) = .ok accepted ∧
      Group.select (numeralForest [("six", 6), ("seven", 7)]).groups
        (fun result => .ok (!isEven result)) = .ok refused ∧
      norm accepted + norm refused = 2 ∧ 0 ≤ norm accepted) ∧
    (∃ assessment, (ofItems FeatureVector.zero assessedItems).2 = .ok assessment ∧
      assessment.IsBounded) ∧
    ∃ assessment, (ofItems FeatureVector.zero [numeralItem [("six", 6)]]).2 = .ok assessment ∧
      assessment.IsBounded ∧ assessment.mass = 1 := by
  have nonneg : ∀ score : ℚ, 0 ≤ LogScore.exp score := fun score => (ExactScore.exp_pos score).le
  have divides : ∀ dividend divisor : ℚ, divisor ≠ 0 → dividend / divisor * divisor = dividend :=
    fun dividend divisor some => div_mul_cancel₀ dividend some
  have masses : ∀ numerals, HaveMasses (numeralForest numerals).groups := fun numerals =>
    HaveMasses.of_isBasedOn nonneg (isBasedOn_numeralForest numerals)
  have hasMasses : ∀ item ∈ assessedItems, item.HasMasses FeatureVector.zero := by
    intro item member report forest parsed
    obtain ⟨numerals, rfl⟩ := exists_numerals_of_mem member
    obtain rfl := Except.ok.inj (Prod.mk.inj parsed).2
    exact masses numerals
  have decided : ∀ item ∈ assessedItems, item.IsDecided FeatureVector.zero := by
    intro item member
    obtain ⟨numerals, rfl⟩ := exists_numerals_of_mem member
    exact ⟨_, _, rfl, fun group _ form => ⟨isEven group.result, rfl⟩⟩
  have last : ∀ item ∈ [numeralItem [("six", 6)]], item ∈ assessedItems :=
    fun item member => List.mem_cons_of_mem _ member
  have certain : ∀ item ∈ [numeralItem [("six", 6)]], item.IsCertain FeatureVector.zero := by
    intro item member report forest parsed
    obtain rfl := List.mem_singleton.1 member
    obtain rfl := Except.ok.inj (Prod.mk.inj parsed).2
    decide +kernel
  obtain ⟨splits, -, assesses⟩ := @mass_is_conserved String ℚ _ _ _ _ _ _ _ nonneg divides
  obtain ⟨accepted, refused, selected, others, sum, positive, -⟩ :=
    splits (numeralForest [("six", 6), ("seven", 7)]) (fun result => .ok (isEven result))
      (masses _) fun group _ => ⟨isEven group.result, rfl⟩
  have two : norm (numeralForest [("six", 6), ("seven", 7)]).groups = 2 := by decide +kernel
  obtain ⟨outcome, bounded⟩ := assesses FeatureVector.zero assessedItems hasMasses
  obtain ⟨assessment, assessed⟩ := outcome decided
  obtain ⟨lastOutcome, lastBounded⟩ := assesses FeatureVector.zero [numeralItem [("six", 6)]]
    fun item member => hasMasses item (last item member)
  obtain ⟨lastAssessment, lastAssessed⟩ :=
    lastOutcome fun item member => decided item (last item member)
  obtain ⟨inside, full⟩ := lastBounded lastAssessment lastAssessed
  exact ⟨⟨accepted, refused, selected, others, sum.trans two, positive⟩,
    ⟨assessment, assessed, (bounded assessment assessed).1⟩,
    lastAssessment, lastAssessed, inside, full (List.cons_ne_nil _ _) certain⟩

end Assessment

end WordArithmetic
