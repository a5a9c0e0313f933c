/-
This file says what saturated masses do to the mass and to the expected features of a forest.

A pair weighs the product of two masses, and where one of them is zero it should count for nothing,
even if the other is plus infinity. One of the two is always tested for zero before it is
multiplied: in the mass of a pair that of the parse, and in the expected features of the derivations
that of the evaluations. A zero that is tested counts for nothing indeed. The other zero does not
where it meets plus infinity: an evaluation of mass zero then makes the mass of the pair undefined,
and a parse of mass zero the expected features of its derivations.
-/

import WordArithmetic.Proofs.Forest.Conservation
import WordArithmetic.Proofs.Number.Extended

namespace WordArithmetic

namespace JointForest

variable {Form Number : Type}

/-! ### Contributions to expected features -/

section Contributions

variable [BEq Form] [AddCommMonoid Number] [Mul Number] [BEq Number] [LogScore Number]

/-- What a derivation adds to the expected features of some groups under a key. -/
def derivationPart (groups : List (Group Form Number)) (key : Symbol)
    (derivation : Derivation Form Number) : Number :=
  if outside groups derivation.form == 0 then 0
  else FeatureVector.contribution
    (outside groups derivation.form * LogScore.exp derivation.score) derivation.features key

omit [BEq Form] in
/-- What the evaluation of a pair adds to the expected features under a key. -/
def evaluationPart (key : Symbol) (pair : Pair Form Number) : Number :=
  if pair.parse.inside == 0 then 0
  else FeatureVector.contribution
    (LogScore.exp pair.evaluation.score * pair.parse.inside) pair.evaluation.features key

/-- Expected features are made of the parts of all derivations and of all evaluations. -/
theorem weight_expectedFeatures_eq_sum (forest : JointForest Form Number)
    (groups : List (Group Form Number)) (key : Symbol) :
    (forest.expectedFeatures groups).weight key =
      (forest.base.derivations.map (derivationPart groups key)).sum +
        ((groups.flatMap Group.members).map (evaluationPart key)).sum := by
  rw [expectedFeatures, addEvaluationFeatures, FeatureVector.weight_foldl_eq_add_sum,
    ParseForest.expectedFeatures]
  congr 1
  refine (FeatureVector.weight_foldl_eq_add_sum _ _ _ _ _ key).trans ?_
  exact zero_add _

omit [Mul Number] [BEq Number] in
theorem outside_eq_sum (groups : List (Group Form Number)) (form : Form) :
    outside groups form =
      ((groups.flatMap Group.members).map fun pair =>
        if pair.parse.form == form then LogScore.exp pair.evaluation.score else 0).sum := by
  rw [outside, total_eq_sum, sum_map_filter]

omit [Mul Number] [BEq Number] in
/-- Forms that are equal have the same outside score. -/
theorem outside_congr [EquivBEq Form] (groups : List (Group Form Number)) {left right : Form}
    (same : (left == right) = true) : outside groups left = outside groups right := by
  have test : ∀ form : Form, (form == left) = (form == right) := fun form => BEq.congr_right same
  rw [outside_eq_sum, outside_eq_sum]
  simp only [test]

variable {groups rest : List (Group Form Number)} {pair : Pair Form Number}
  (split : (groups.flatMap Group.members).Perm (pair :: rest.flatMap Group.members))

include split

/-! ### Taking a pair away -/

omit [BEq Form] in
theorem norm_split : norm groups = pair.inside + norm rest := by
  rw [norm_eq_sum_inside, norm_eq_sum_inside, (split.map Pair.inside).sum_eq, List.map_cons,
    List.sum_cons]

omit [Mul Number] [BEq Number] in
theorem outside_split (form : Form) :
    outside groups form =
      (if pair.parse.form == form then LogScore.exp pair.evaluation.score else 0) +
        outside rest form := by
  rw [outside_eq_sum, outside_eq_sum, (split.map _).sum_eq, List.map_cons, List.sum_cons]

omit [BEq Form] in
theorem sum_evaluationPart_split (key : Symbol) :
    ((groups.flatMap Group.members).map (evaluationPart key)).sum =
      evaluationPart key pair + ((rest.flatMap Group.members).map (evaluationPart key)).sum := by
  rw [(split.map (evaluationPart key)).sum_eq, List.map_cons, List.sum_cons]

/-- If taking away a pair changes neither what the derivations add nor what the evaluations do, it
does not change the expected features. -/
theorem weight_expectedFeatures_split {forest : JointForest Form Number} {key : Symbol}
    (none : evaluationPart key pair = 0)
    (same : ∀ derivation ∈ forest.base.derivations,
      derivationPart groups key derivation = derivationPart rest key derivation) :
    (forest.expectedFeatures groups).weight key = (forest.expectedFeatures rest).weight key := by
  rw [weight_expectedFeatures_eq_sum, weight_expectedFeatures_eq_sum,
    sum_evaluationPart_split split, none, zero_add, List.map_congr_left same]

end Contributions

/-! ### Forests of defined scores -/

section Extended

variable [BEq Form] [Field Number] [LinearOrder Number] [SaturatingExp Number]

/-- Groups whose parses are parses of a forest, and no score among the derivations of the forest or
the evaluations of the groups is undefined. -/
structure AreScored (base : ParseForest Form (Extended Number))
    (groups : List (Group Form (Extended Number))) : Prop where
  based : IsBasedOn base groups
  derivations : ∀ derivation ∈ base.derivations, derivation.score ≠ .undefined
  evaluations : ∀ group ∈ groups, ∀ pair ∈ group.members, pair.evaluation.score ≠ .undefined

variable {base : ParseForest Form (Extended Number)}
  {groups : List (Group Form (Extended Number))} {pair : Pair Form (Extended Number)}

theorem AreScored.of_subset (scored : AreScored base groups)
    {selected : List (Group Form (Extended Number))} (part : selected ⊆ groups) :
    AreScored base selected where
  based group member := scored.based group (part member)
  derivations := scored.derivations
  evaluations group member := scored.evaluations group (part member)

variable [IsStrictOrderedRing Number] (scored : AreScored base groups)
  (member : pair ∈ groups.flatMap Group.members)

include scored

omit [IsStrictOrderedRing Number] in
theorem AreScored.isMass_exp (member : pair ∈ groups.flatMap Group.members) :
    (LogScore.exp pair.evaluation.score).IsMass := by
  obtain ⟨group, groupMember, pairMember⟩ := List.mem_flatMap.1 member
  exact Extended.isMass_exp (scored.evaluations group groupMember pair pairMember)

theorem AreScored.isMass_outside (form : Form) : (outside groups form).IsMass := by
  rw [outside, total_eq_sum]
  exact Extended.isMass_sum (List.forall_mem_map.2 fun pair member =>
    scored.isMass_exp (List.mem_of_mem_filter member))

variable [EquivBEq Form]

omit [IsStrictOrderedRing Number] in
/-- The masses of the derivations of a form, whose sum is the mass of its parse. -/
theorem AreScored.exists_masses (member : pair ∈ groups.flatMap Group.members) :
    ∃ masses : List (Extended Number), (∀ mass ∈ masses, mass.IsMass) ∧
      pair.parse.inside = masses.sum ∧
      ∀ derivation ∈ base.derivations, (derivation.form == pair.parse.form) = true →
        LogScore.exp derivation.score ∈ masses := by
  refine ⟨_, List.forall_mem_map.2 fun derivation derived => ?_,
    ParseForest.inside_eq_mass (scored.based.parse_mem member), fun derivation derived same => ?_⟩
  · exact Extended.isMass_exp (scored.derivations derivation (List.mem_of_mem_filter derived))
  · exact List.mem_map_of_mem (List.mem_filter.2 ⟨derived, same⟩)

include member

theorem AreScored.isMass_inside : pair.parse.inside.IsMass := by
  obtain ⟨masses, each, sum, _⟩ := scored.exists_masses member
  rw [sum]
  exact Extended.isMass_sum each

/-- The derivations of a parse without mass have no mass. -/
theorem AreScored.exp_eq_zero (none : pair.parse.inside = 0) :
    ∀ derivation ∈ base.derivations, (derivation.form == pair.parse.form) = true →
      LogScore.exp derivation.score = 0 := by
  obtain ⟨masses, each, sum, all⟩ := scored.exists_masses member
  exact fun derivation derived same =>
    Extended.eq_zero_of_sum_eq_zero each (sum.symm.trans none) _ (all derivation derived same)

/-- The mass of a pair is undefined if its evaluation has no mass and its parse has saturated, and
only then. -/
theorem AreScored.inside_of_member :
    ¬ pair.inside < 0 ∧ (pair.inside = .undefined ↔
      LogScore.exp pair.evaluation.score = 0 ∧ pair.parse.inside = .positiveInfinity) := by
  have parseMass := scored.isMass_inside member
  have evaluationMass := scored.isMass_exp member
  unfold Pair.inside
  split
  · rename_i none
    rw [Extended.beq_zero_iff.1 none]
    exact ⟨Extended.not_finite_neg.2 (le_refl 0), iff_of_false nofun nofun⟩
  · rename_i some
    obtain ⟨notNegative, undefined⟩ := Extended.mul_of_not_neg evaluationMass.1 parseMass.1
    refine ⟨notNegative, undefined.trans ⟨?_, fun both => Or.inr (Or.inr (Or.inl both))⟩⟩
    rintro (unscored | unscored | both | ⟨_, none⟩)
    · exact absurd unscored evaluationMass.2
    · exact absurd unscored parseMass.2
    · exact both
    · exact absurd (Extended.beq_zero_iff.2 none) some

omit member in
/-- The mass of groups is not below zero, and it is undefined if the mass of one of their pairs is,
and only then. -/
theorem AreScored.norm_of_groups :
    ¬ norm groups < 0 ∧ (norm groups = .undefined ↔ ∃ group ∈ groups, ∃ pair ∈ group.members,
      LogScore.exp pair.evaluation.score = 0 ∧ pair.parse.inside = .positiveInfinity) := by
  have each : ∀ mass ∈ (groups.flatMap Group.members).map Pair.inside, ¬ mass < 0 :=
    List.forall_mem_map.2 fun pair member => (scored.inside_of_member member).1
  obtain ⟨notNegative, undefined⟩ := Extended.sum_of_not_neg each
  rw [norm_eq_sum_inside, undefined, List.mem_map]
  refine ⟨notNegative, ?_, ?_⟩
  · rintro ⟨pair, member, lost⟩
    obtain ⟨group, groupMember, pairMember⟩ := List.mem_flatMap.1 member
    exact ⟨group, groupMember, pair, pairMember, (scored.inside_of_member member).2.1 lost⟩
  · rintro ⟨group, groupMember, pair, pairMember, both⟩
    have member := List.mem_flatMap.2 ⟨group, groupMember, pairMember⟩
    exact ⟨pair, member, (scored.inside_of_member member).2.2 both⟩

/-! ### Pairs without mass -/

omit [BEq Form] [EquivBEq Form] [IsStrictOrderedRing Number] [SaturatingExp Number] scored member in
theorem contribution_zero (features : FeatureVector (Extended Number)) (key : Symbol) :
    FeatureVector.contribution 0 features key = 0 :=
  if_pos (Extended.beq_zero_iff.2 rfl)

omit [BEq Form] [EquivBEq Form] [IsStrictOrderedRing Number] scored member in
/-- A parse without mass makes a pair without mass, and its evaluation adds no features. -/
theorem parts_of_inside_eq_zero (none : pair.parse.inside = 0) :
    pair.inside = 0 ∧ ∀ key, evaluationPart key pair = 0 :=
  ⟨if_pos (Extended.beq_zero_iff.2 none), fun _ => if_pos (Extended.beq_zero_iff.2 none)⟩

/-- An evaluation without mass makes a pair without mass and adds no features, unless the parse has
saturated. -/
theorem AreScored.parts_of_exp_eq_zero (none : LogScore.exp pair.evaluation.score = 0)
    (bounded : pair.parse.inside ≠ .positiveInfinity) :
    pair.inside = 0 ∧ ∀ key, evaluationPart key pair = 0 := by
  have product : LogScore.exp pair.evaluation.score * pair.parse.inside = 0 := by
    rw [none]
    exact Extended.zero_mul_of_isFinite ((scored.isMass_inside member).isFinite bounded)
  unfold Pair.inside evaluationPart
  rw [product]
  refine ⟨ite_self 0, fun key => ?_⟩
  rw [contribution_zero, ite_self]

variable {rest : List (Group Form (Extended Number))}
  (split : (groups.flatMap Group.members).Perm (pair :: rest.flatMap Group.members))

include split

omit [EquivBEq Form] [IsStrictOrderedRing Number] scored member in
/-- A pair whose evaluation has no mass adds nothing to the outside scores. -/
theorem derivationPart_of_exp_eq_zero (none : LogScore.exp pair.evaluation.score = 0)
    (key : Symbol) : derivationPart groups key = derivationPart rest key := by
  have outsides : ∀ form, outside groups form = outside rest form := by
    intro form
    rw [outside_split split, none, ite_self, zero_add]
  funext derivation
  unfold derivationPart
  rw [outsides]

/-- The derivations of a parse without mass add nothing, unless the outside score of its form has
saturated. -/
theorem AreScored.derivationPart_of_inside_eq_zero (none : pair.parse.inside = 0)
    (bounded : outside groups pair.parse.form ≠ .positiveInfinity) (key : Symbol) :
    ∀ derivation ∈ base.derivations,
      derivationPart groups key derivation = derivationPart rest key derivation := by
  intro derivation derived
  by_cases same : (derivation.form == pair.parse.form) = true
  · have zero := scored.exp_eq_zero member none derivation derived same
    have whole : (outside groups derivation.form).IsFinite := by
      rw [outside_congr groups same]
      exact (scored.isMass_outside _).isFinite bounded
    have remainder : (outside rest derivation.form).IsFinite := by
      rw [outside_split split] at whole
      exact (Extended.isFinite_add.1 whole).2
    unfold derivationPart
    rw [zero, Extended.mul_zero_of_isFinite whole, Extended.mul_zero_of_isFinite remainder,
      contribution_zero, ite_self, ite_self]
  · have other : (pair.parse.form == derivation.form) = false := by
      rw [BEq.comm]
      exact Bool.eq_false_iff.2 same
    unfold derivationPart
    rw [outside_split split, other, if_neg Bool.false_ne_true, zero_add]

end Extended

/-- Zero masses that are tested count for nothing. Let no score of a forest be undefined and let a
test decide on its groups. Then the mass of the groups that pass is undefined exactly if they have a
pair whose evaluation has no mass and whose parse has saturated. A pair with a parse without mass,
however large its evaluation, adds nothing to their mass, and nothing to their expected features
either unless the outside score of its form has saturated; and a pair with an evaluation without
mass adds nothing to both unless its parse has saturated. -/
theorem zero_mass_adds_nothing [BEq Form] [EquivBEq Form] [Field Number] [LinearOrder Number]
    [IsStrictOrderedRing Number] [SaturatingExp Number]
    (forest : JointForest Form (Extended Number)) (accept : Value → Except Failure Bool)
    (scored : AreScored forest.base forest.groups)
    (answered : ∀ group ∈ forest.groups, ∃ answer, accept group.result = .ok answer) :
    ∃ selected, Group.select forest.groups accept = .ok selected ∧
      (norm selected = .undefined ↔ ∃ group ∈ selected, ∃ pair ∈ group.members,
        LogScore.exp pair.evaluation.score = 0 ∧ pair.parse.inside = .positiveInfinity) ∧
      ∀ (pair : Pair Form (Extended Number)) (rest : List (Group Form (Extended Number))),
        (selected.flatMap Group.members).Perm (pair :: rest.flatMap Group.members) →
        (pair.parse.inside = 0 → norm selected = norm rest ∧
          (outside selected pair.parse.form ≠ .positiveInfinity → ∀ key,
            (forest.expectedFeatures selected).weight key =
              (forest.expectedFeatures rest).weight key)) ∧
        (LogScore.exp pair.evaluation.score = 0 → pair.parse.inside ≠ .positiveInfinity →
          norm selected = norm rest ∧ ∀ key,
            (forest.expectedFeatures selected).weight key =
              (forest.expectedFeatures rest).weight key) := by
  obtain ⟨passes, decides⟩ := Group.exists_passes answered
  let selected := forest.groups.filter fun group => passes group.result
  have scoredSelected : AreScored forest.base selected :=
    scored.of_subset (List.filter_subset_self _)
  refine ⟨selected, Group.select_eq_filter decides, scoredSelected.norm_of_groups.2,
    fun pair rest split => ⟨fun none => ?_, fun none bounded => ?_⟩⟩
  · obtain ⟨massless, featureless⟩ := parts_of_inside_eq_zero none
    have member : pair ∈ selected.flatMap Group.members := split.mem_iff.2 List.mem_cons_self
    refine ⟨?_, fun bounded key => ?_⟩
    · rw [norm_split split, massless, zero_add]
    · exact weight_expectedFeatures_split split (featureless key)
        (scoredSelected.derivationPart_of_inside_eq_zero member split none bounded key)
  · have member : pair ∈ selected.flatMap Group.members := split.mem_iff.2 List.mem_cons_self
    obtain ⟨massless, featureless⟩ := scoredSelected.parts_of_exp_eq_zero member none bounded
    refine ⟨?_, fun key => ?_⟩
    · rw [norm_split split, massless, zero_add]
    · exact weight_expectedFeatures_split split (featureless key) fun derivation _ =>
        congrFun (derivationPart_of_exp_eq_zero split none key) derivation

/-! ### Names with scores -/

/-- A name of a number, with the score of its one derivation and with that of its execution. -/
structure ScoredName where
  name : String
  number : Int
  derived : Extended ℚ
  executed : Extended ℚ

/-- The derivation of a name, which has the name as its one feature. -/
def ScoredName.derivation (scored : ScoredName) : Derivation String (Extended ℚ) :=
  ⟨scored.name, scored.derived, Table.ofList [(.name scored.name, 1)]⟩

/-- The pair of a name. -/
def ScoredName.pair (scored : ScoredName) : Pair String (Extended ℚ) :=
  ⟨(Parse.start scored.name).add scored.derived scored.derivation.features,
    .integer scored.number, scored.executed, FeatureVector.zero⟩

/-- The forest of some names. -/
def scoredForest (names : List ScoredName) : JointForest String (Extended ℚ) :=
  .ofPairs ⟨names.map ScoredName.derivation, true⟩ (names.map ScoredName.pair) 0 true

theorem exists_name_of_mem {names : List ScoredName} {group : Group String (Extended ℚ)}
    (groupMember : group ∈ (scoredForest names).groups) {pair : Pair String (Extended ℚ)}
    (pairMember : pair ∈ group.members) : ∃ scored ∈ names, scored.pair = pair := by
  have placed := List.mem_flatMap.2 ⟨group, groupMember, pairMember⟩
  exact List.mem_map.1 ((Group.gathers_ofPairs _).members.mem_iff.1 placed)

theorem areScored_scoredForest {names : List ScoredName}
    (distinct : (scoredForest names).base.parses = names.map fun scored => scored.pair.parse)
    (defined : ∀ scored ∈ names, scored.derived ≠ .undefined ∧ scored.executed ≠ .undefined) :
    AreScored (scoredForest names).base (scoredForest names).groups where
  based := by
    refine IsBasedOn.ofPairs (List.forall_mem_map.2 fun scored member => ?_)
    rw [distinct]
    exact List.mem_map_of_mem member
  derivations := List.forall_mem_map.2 fun scored member => (defined scored member).1
  evaluations := by
    intro group groupMember pair pairMember
    obtain ⟨scored, member, rfl⟩ := exists_name_of_mem groupMember pairMember
    exact (defined scored member).2

/-- A name that has saturated beside one that is not derived with any mass: the second one adds
nothing to the mass, although its execution has saturated. -/
theorem zero_mass_adds_nothing_six :
    let large : ScoredName := ⟨"six", 6, .finite 710, 0⟩
    let void : ScoredName := ⟨"half a dozen", 6, .negativeInfinity, .finite 710⟩
    let forest := scoredForest [large, void]
    AreScored forest.base forest.groups ∧
      Group.select forest.groups (fun _ => .ok true) = .ok forest.groups ∧
        norm forest.groups ≠ .undefined ∧
          norm forest.groups = norm (scoredForest [large]).groups := by
  intro large void forest
  have scored : AreScored forest.base forest.groups := areScored_scoredForest rfl (by decide)
  have chosen : Group.select forest.groups (fun _ => .ok true) = .ok forest.groups := rfl
  obtain ⟨selected, alsoChosen, undefined, removed⟩ :=
    zero_mass_adds_nothing forest (fun _ => .ok true) scored fun _ _ => ⟨true, rfl⟩
  obtain rfl := Except.ok.inj (alsoChosen.symm.trans chosen)
  have split : (forest.groups.flatMap Group.members).Perm
      (void.pair :: (scoredForest [large]).groups.flatMap Group.members) := List.Perm.swap _ _ []
  refine ⟨scored, chosen, fun lost => ?_, ((removed void.pair _ split).1 (by decide +kernel)).1⟩
  exact absurd (undefined.1 lost) (by decide +kernel)

/-- A pair of zero mass does not always count for nothing. An execution without mass makes the mass
of the forest undefined if the form has saturated, and a form without mass makes the expected weight
of its feature undefined if the execution has saturated, although without the pair it is zero. -/
theorem zero_mass_undefines :
    let executedInVain := scoredForest [⟨"six", 6, .finite 710, .negativeInfinity⟩]
    let derivedInVain := scoredForest [⟨"six", 6, .negativeInfinity, .finite 710⟩]
    AreScored executedInVain.base executedInVain.groups ∧
      (∀ group ∈ executedInVain.groups, ∀ pair ∈ group.members,
        LogScore.exp pair.evaluation.score = 0) ∧
      norm executedInVain.groups = .undefined ∧
    AreScored derivedInVain.base derivedInVain.groups ∧
      (∀ group ∈ derivedInVain.groups, ∀ pair ∈ group.members, pair.parse.inside = 0) ∧
      (derivedInVain.expectedFeatures derivedInVain.groups).weight (.name "six") = .undefined ∧
      (derivedInVain.expectedFeatures []).weight (.name "six") = 0 := by
  intro executedInVain derivedInVain
  have scoredExecuted : AreScored executedInVain.base executedInVain.groups :=
    areScored_scoredForest rfl (by decide)
  have scoredDerived : AreScored derivedInVain.base derivedInVain.groups :=
    areScored_scoredForest rfl (by decide)
  exact ⟨scoredExecuted, by decide +kernel, by decide +kernel, scoredDerived, by decide +kernel,
    by decide +kernel, by decide +kernel⟩

end JointForest

end WordArithmetic
