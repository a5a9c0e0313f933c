/-
This file shows what the score of a result is.

A parse keeps the best of its derivations and a group the best of its pairs, and the score of either
is the product of the weights with its features. So over exact numbers the score of a group, found
in two selections one after the other, is the largest product of the weights with the features of
any derivation of any of its forms together with those of the evaluation.
-/

import Mathlib.Algebra.Order.Ring.Defs
import Mathlib.Data.List.Sort
import Mathlib.Order.Bounds.Defs
import WordArithmetic.Proofs.Forest.Best
import WordArithmetic.Proofs.Forest.Enumeration
import WordArithmetic.Proofs.Search.Score

namespace WordArithmetic

/-! ### Pairs and groups of scored derivations -/

section Scored

variable {Form Number : Type} [BEq Form] [EquivBEq Form] [CommRing Number] [LinearOrder Number]
  [IsStrictOrderedRing Number] [BEq Number] [LawfulBEq Number] [LogScore Number]
  [ExactScore Number]

/-- The product of a weight vector with the features of a derivation and of an evaluation. -/
def jointScore (theta : FeatureVector Number) (derivation : Derivation Form Number)
    (evaluation : Evaluation Number) : Number :=
  theta.dot (derivation.features.add evaluation.features)

/-- The joint scores of a group: those of its pairs, each with any derivation of its form. -/
def Group.jointScores (theta : FeatureVector Number) (derivations : List (Derivation Form Number))
    (group : Group Form Number) : Set Number :=
  {score | ∃ pair ∈ group.members, ∃ derivation ∈ derivations,
    (derivation.form == pair.parse.form) = true ∧
      score = jointScore theta derivation pair.evaluation}

variable {theta : FeatureVector Number} {forest : ParseForest Form Number}

/-- The score of a pair and the product of the weights with its features are the joint score of one
of its derivations, and no other one of them has a larger joint score. -/
theorem Pair.exists_best
    (scored : ∀ derivation ∈ forest.derivations, derivation.score = theta.dot derivation.features)
    {pair : Pair Form Number} (member : pair.parse ∈ forest.parses)
    (evaluated : pair.evaluation.score = theta.dot pair.evaluation.features) :
    ∃ derivation ∈ forest.derivations, (derivation.form == pair.parse.form) = true ∧
      pair.viterbi = jointScore theta derivation pair.evaluation ∧
        theta.dot (pair.parse.features.add pair.evaluation.features) = pair.viterbi ∧
          ∀ other ∈ forest.derivations, (other.form == pair.parse.form) = true →
            jointScore theta other pair.evaluation ≤ pair.viterbi := by
  obtain ⟨derivation, derived, form, best, largest⟩ := forest.hasBest_parses pair.parse member
  have score : pair.parse.score = derivation.score := by rw [Parse.score, best]
  have features : pair.parse.features = derivation.features := by rw [Parse.features, best]
  have joint : ∀ other ∈ forest.derivations,
      jointScore theta other pair.evaluation = other.score + pair.evaluation.score := by
    intro other otherMember
    rw [jointScore, FeatureVector.dot_add, ← scored other otherMember, evaluated]
  refine ⟨derivation, derived, form, ?_, ?_, fun other otherMember same => ?_⟩
  · rw [joint derivation derived, Pair.viterbi, score]
  · rw [features, Pair.viterbi, score, ← joint derivation derived]
    rfl
  · rw [joint other otherMember, Pair.viterbi, score]
    exact add_le_add_left (largest other otherMember same) _

/-- The score of a group is the product of the weights with its features, and it is the greatest
joint score of its pairs with their derivations. -/
theorem Group.isGreatest_score
    (scored : ∀ derivation ∈ forest.derivations, derivation.score = theta.dot derivation.features)
    {group : Group Form Number} (parsed : ∀ pair ∈ group.members, pair.parse ∈ forest.parses)
    (evaluated : ∀ pair ∈ group.members,
      pair.evaluation.score = theta.dot pair.evaluation.features) :
    group.score = theta.dot group.features ∧
      IsGreatest (group.jointScores theta forest.derivations) group.score := by
  have best := group.best_mem
  obtain ⟨derivation, derived, form, score, product, _⟩ :=
    Pair.exists_best scored (parsed _ best) (evaluated _ best)
  refine ⟨product.symm, ⟨group.best, best, derivation, derived, form, score⟩, ?_⟩
  rintro joint ⟨pair, member, other, otherMember, same, rfl⟩
  obtain ⟨_, _, _, _, _, largest⟩ := Pair.exists_best scored (parsed pair member)
    (evaluated pair member)
  exact (largest other otherMember same).trans (group.viterbi_le_score pair member)

end Scored

/-! ### The pairs that a parser makes -/

namespace Parser

variable {Number : Type} [Zero Number] [One Number] [Add Number] [Mul Number]

/-- The score of an evaluation is the product of the weights with its features. -/
theorem score_of_execute {depth : Nat} {theta : FeatureVector Number} {term : Term}
    {evaluation : Evaluation Number}
    (executed : execute depth theta term = .evaluation evaluation) :
    evaluation.score = theta.dot evaluation.features := by
  rw [execute] at executed
  split at executed
  · cases executed
  · cases executed
  · split at executed
    · cases executed
    · obtain rfl := Executed.evaluation.inj executed
      rfl

/-- The pairs that come of executing parses are these parses with what their execution gave. -/
theorem mem_executeAll {depth : Nat} {theta : FeatureVector Number}
    {parses : List (Parse LatentForm Number)} {before pairs : List (Pair LatentForm Number)}
    {undefined report : List String}
    (executed : executeAll depth theta parses before undefined = (report, .ok pairs)) :
    ∀ pair ∈ pairs, pair ∈ before ∨ pair.parse ∈ parses ∧
      execute depth theta pair.parse.form.term = .evaluation pair.evaluation := by
  induction parses generalizing before undefined with
  | nil =>
    obtain rfl := Except.ok.inj (Prod.mk.inj executed).2
    exact fun pair member => Or.inl (List.mem_reverse.1 member)
  | cons first rest hypothesis =>
    intro pair member
    rw [executeAll] at executed
    split at executed
    · rename_i evaluation outcome
      rcases hypothesis executed pair member with earlier | ⟨later, given⟩
      · rcases List.mem_cons.1 earlier with rfl | old
        · exact Or.inr ⟨List.mem_cons_self, outcome⟩
        · exact Or.inl old
      · exact Or.inr ⟨List.mem_cons_of_mem _ later, given⟩
    · rcases hypothesis executed pair member with earlier | ⟨later, given⟩
      · exact Or.inl earlier
      · exact Or.inr ⟨List.mem_cons_of_mem _ later, given⟩
    · cases executed

/-- What joint inference gives comes from the forest of the question and from the pairs of its
parses with what their execution gave. -/
theorem exists_of_parse [BEq Number] [LT Number] [DecidableLT Number] [LogScore Number]
    {parser : Parser} {words : Array Word} {theta : FeatureVector Number} {report : ParseReport}
    {forest : JointForest LatentForm Number}
    (parsed : parser.parse words theta = (report, .ok forest)) :
    ∃ untypedShifts pairs, parser.parseBase words theta = .ok (forest.base, untypedShifts) ∧
      forest = JointForest.ofPairs forest.base pairs 0 true ∧
        ∀ pair ∈ pairs, pair.parse ∈ forest.base.parses ∧
          execute parser.depth theta pair.parse.form.term = .evaluation pair.evaluation := by
  unfold parse at parsed
  split at parsed
  · cases (Prod.mk.inj parsed).2
  · rename_i base untypedShifts based
    have joined := (Prod.mk.inj parsed).2
    cases executed : executeAll parser.depth theta base.parses [] [] with
    | mk undefined outcome =>
      rw [executed] at joined
      cases outcome with
      | error failure => cases joined
      | ok pairs =>
        obtain rfl := Except.ok.inj joined
        refine ⟨untypedShifts, pairs, based, rfl, fun pair member => ?_⟩
        rcases mem_executeAll executed pair member with before | made
        · cases before
        · exact made

end Parser

/-! ### What a parser scores -/

/-- Over exact numbers, for any parser, words and weights: the score of every derivation that the
parser gives, added up during the search, is the product of the weights with the features that are
counted afterwards. So the score of every group of the joint forest is the product of the weights
with the features of the group, and it is the greatest joint score of its pairs with their
derivations. -/
theorem Parser.scores_are_products {Number : Type} [CommRing Number] [LinearOrder Number]
    [IsStrictOrderedRing Number] [BEq Number] [LawfulBEq Number] [LogScore Number]
    [ExactScore Number] (parser : Parser) (words : Array Word) (theta : FeatureVector Number) :
    (∀ forest untypedShifts, parser.parseBase words theta = .ok (forest, untypedShifts) →
      ∀ derivation ∈ forest.derivations, derivation.score = theta.dot derivation.features) ∧
    ∀ report (forest : JointForest LatentForm Number),
      parser.parse words theta = (report, .ok forest) →
        ∀ group ∈ forest.groups, group.score = theta.dot group.features ∧
          IsGreatest (group.jointScores theta forest.base.derivations) group.score := by
  refine ⟨fun forest untypedShifts parsed => score_eq_dot parsed, ?_⟩
  intro report forest parsed group member
  obtain ⟨untypedShifts, pairs, based, joined, made⟩ := exists_of_parse parsed
  have groups : forest.groups = Group.ofPairs pairs := by rw [joined]; rfl
  have placed : ∀ pair ∈ group.members, pair ∈ pairs := by
    intro pair pairMember
    rw [groups] at member
    exact (Group.gathers_ofPairs pairs).members.mem_iff.1
      (List.mem_flatMap.2 ⟨group, member, pairMember⟩)
  exact Group.isGreatest_score (score_eq_dot based)
    (fun pair pairMember => (made pair (placed pair pairMember)).1)
    fun pair pairMember => score_of_execute (made pair (placed pair pairMember)).2

/-! ### A question with several derivations -/

section Sorting

/-- An element is inserted behind those that it does not precede if it precedes all others. -/
theorem orderedInsert_append {Element : Type} (precedes : Element → Element → Prop)
    [DecidableRel precedes] (element : Element) {before after : List Element}
    (passed : ∀ other ∈ before, ¬ precedes element other)
    (stopped : ∀ other ∈ after, precedes element other) :
    (before ++ after).orderedInsert precedes element = before ++ element :: after := by
  induction before with
  | nil =>
    cases after with
    | nil => rfl
    | cons next rest => exact List.orderedInsert_cons_of_le _ _ (stopped next List.mem_cons_self)
  | cons first rest hypothesis =>
    obtain ⟨here, later⟩ := List.forall_mem_cons.1 passed
    rw [List.cons_append, List.orderedInsert_of_not_le _ _ here, hypothesis later,
      List.cons_append]

/-- For a test that any two elements pass in some order, merging and inserting sort alike, since both
are stable: elements that may precede each other keep their order. -/
theorem mergeSort_eq_insertionSort_of_total {Element : Type}
    (precedes : Element → Element → Prop) [DecidableRel precedes]
    (trans : ∀ first second third, precedes first second → precedes second third →
      precedes first third)
    (total : ∀ first second, precedes first second ∨ precedes second first)
    (elements : List Element) :
    elements.mergeSort (fun left right => decide (precedes left right)) =
      elements.insertionSort precedes := by
  have decideTrans (first second third : Element) (left : decide (precedes first second) = true)
      (right : decide (precedes second third) = true) : decide (precedes first third) = true :=
    decide_eq_true (trans first second third (of_decide_eq_true left) (of_decide_eq_true right))
  have decideTotal (first second : Element) :
      (decide (precedes first second) || decide (precedes second first)) = true := by
    rw [Bool.or_eq_true, decide_eq_true_eq, decide_eq_true_eq]
    exact total first second
  induction elements with
  | nil => exact List.mergeSort_nil
  | cons first rest hypothesis =>
    obtain ⟨before, after, whole, parts, passed⟩ :=
      List.mergeSort_cons decideTrans decideTotal first rest
    have sorted := List.pairwise_mergeSort decideTrans decideTotal (first :: rest)
    rw [whole] at sorted
    have behind := (List.pairwise_cons.1 (List.pairwise_append.1 sorted).2.1).1
    rw [List.insertionSort_cons, ← hypothesis, parts, whole, orderedInsert_append]
    · intro other member stays
      have skipped := passed other member
      rw [decide_eq_true stays] at skipped
      cases skipped
    · exact fun other member => of_decide_eq_true (behind other member)

/-- Over exact numbers predictions are sorted as if they were inserted one after the other, which is
a sort that can be carried out in a proof. -/
theorem Prediction.sort_eq_insertionSort {Number : Type} [LinearOrder Number] [BEq Number]
    [LawfulBEq Number] (predictions : List (Prediction Number)) :
    sort predictions = predictions.insertionSort fun left right => ¬ left.score < right.score := by
  have merged : sort predictions =
      predictions.mergeSort fun left right => decide (¬ left.score < right.score) := by
    simp only [decide_not]
    exact if_pos (List.all_eq_true.2 fun prediction _ => beq_self_eq_true prediction.score)
  rw [merged, mergeSort_eq_insertionSort_of_total]
  · intro first second third left right
    rw [not_lt] at left right ⊢
    exact right.trans left
  · intro first second
    rw [not_lt, not_lt]
    exact le_total second.score first.score

end Sorting

/-- A lexicon in which one word has the name of its meaning, and the other word has three meanings,
two of which are the same number. -/
def luckyLines : List LexicalLine :=
  [⟨"twice", "twice", "(lambda (x:num) (* 2 x))"⟩, ⟨"lucky", "HALF", "3.5"⟩,
    ⟨"lucky", "LUCK", "7"⟩, ⟨"lucky", "SEVEN", "7"⟩]

/-- The words of a question in which the first word may be dropped. -/
def luckyWords : Array Word :=
  (((Lexicon.ofLines Session.arithmetic luckyLines).toOption.getD
    (Lexicon.empty Session.arithmetic)).words "Twice lucky").toArray

/-- A parser for the meanings of these words. -/
def luckyParser : Parser :=
  ⟨Action.all ["HALF", "LUCK", "SEVEN", "twice"], Parser.defaultWidth, Term.defaultDepth⟩

/-- Weights for some actions in view of some observations, and for whole results. As long as the
word that has the name of its meaning stands alone on the stack it is observed twice. -/
def luckyWeights : FeatureVector ℚ :=
  let weigh := fun (names : List String) (label : String) (weight : ℚ) =>
    (FeatureVector.conjunction (Configuration.observation names) (.name label), weight)
  Table.ofList
    [weigh ["B", "twice", "lucky"] "D" 4, weigh ["BIAS"] "S[twice]" 1,
      weigh ["B", "lucky", "#END#"] "S[HALF]" 2, weigh ["B", "lucky", "#END#"] "S[LUCK]" 1,
      weigh ["S", "twice", "#START#"] "S[SEVEN]" 1, weigh ["BIAS"] ">" 5,
      (Configuration.observation ["EXEC", "integer"], 1)]

/-- Six derivations are found, four forms among them, two of which have one result. -/
theorem exists_parse_luckyWords :
    ∃ report forest, luckyParser.parse luckyWords luckyWeights = (report, .ok forest) ∧
      forest.base.derivations.map Derivation.score = [6, 5, 4, 8, 8, 7] ∧
        forest.base.parses.map Parse.score = [6, 5, 8, 8] ∧
          forest.groups.map (fun group => group.members.map Pair.viterbi) = [[6], [6, 9], [9]] := by
  have weighting : (fun key => luckyWeights.index.getD key 0) = luckyWeights.weight :=
    funext luckyWeights.getD_index
  have size : luckyWords.size = 2 := by decide +kernel
  have parsed : (luckyParser.parse luckyWords luckyWeights).2.toOption.any (fun forest =>
      forest.base.derivations.map Derivation.score == [6, 5, 4, 8, 8, 7] &&
        (forest.base.parses.map Parse.score == [6, 5, 8, 8] &&
          forest.groups.map (fun group => group.members.map Pair.viterbi) ==
            [[6], [6, 9], [9]])) = true := by
    unfold Parser.parse Parser.parseBase
    simp only [weighting, Beam.search, Beam.roundBound, size, Beam.searchFrom, Beam.predict,
      Prediction.sort_eq_insertionSort]
    decide +kernel
  cases outcome : luckyParser.parse luckyWords luckyWeights with
  | mk report result =>
    rw [outcome] at parsed
    cases result with
    | error failure => cases parsed
    | ok forest =>
      obtain ⟨derivations, both⟩ := Bool.and_eq_true_iff.1 parsed
      obtain ⟨parses, groups⟩ := Bool.and_eq_true_iff.1 both
      exact ⟨report, forest, rfl, beq_iff_eq.1 derivations, beq_iff_eq.1 parses,
        beq_iff_eq.1 groups⟩

/-- The number seven is the result of a number with two derivations and of twice its half. Its group
has the score of the latter, which is the product of the weights with the features of its only
derivation. -/
theorem Parser.scores_are_products_lucky :
    ∃ report forest, luckyParser.parse luckyWords luckyWeights = (report, .ok forest) ∧
      forest.base.derivations.map Derivation.score = [6, 5, 4, 8, 8, 7] ∧
        forest.base.parses.map Parse.score = [6, 5, 8, 8] ∧
        forest.groups.map (fun group => group.members.map Pair.viterbi) = [[6], [6, 9], [9]] ∧
        (∀ derivation ∈ forest.base.derivations,
          derivation.score = luckyWeights.dot derivation.features) ∧
        ∀ group ∈ forest.groups, group.score = luckyWeights.dot group.features ∧
          IsGreatest (group.jointScores luckyWeights forest.base.derivations) group.score := by
  obtain ⟨report, forest, parsed, derivationScores, parseScores, pairScores⟩ :=
    exists_parse_luckyWords
  obtain ⟨untypedShifts, _, based, _⟩ := exists_of_parse parsed
  obtain ⟨derivations, groups⟩ := scores_are_products luckyParser luckyWords luckyWeights
  exact ⟨report, forest, parsed, derivationScores, parseScores, pairScores,
    derivations forest.base untypedShifts based, groups report forest parsed⟩

end WordArithmetic
