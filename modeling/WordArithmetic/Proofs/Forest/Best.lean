/-
This file shows that a parse packs the derivations of its form.

Derivations are dealt to parses by their forms. A parse has the masses and the number of its
derivations, and a derivation takes the place of the best one only if its score is larger. So over
exact numbers the score and the features of a parse are those of the first of its best derivations.
One level up the best pair of a group is one of its members, and no member is better.
-/

import Mathlib.Algebra.Order.Monoid.Defs
import WordArithmetic.Proofs.Forest.Packing
import WordArithmetic.Proofs.Score

namespace WordArithmetic

variable {Form Number : Type}

namespace ParseForest

variable [BEq Form]

/-- A parse that packs a list of derivations: it has the form of the first, and all have that form;
and it has the masses of all, their number, and the score and the features of the first best one. -/
structure IsPacked [Zero Number] [Add Number] [LinearOrder Number] [LogScore Number]
    (derivations : List (Derivation Form Number)) (parse : Parse Form Number) : Prop where
  first : derivations.head?.map Derivation.form = some parse.form
  form : ∀ derivation ∈ derivations, (derivation.form == parse.form) = true
  inside : parse.inside = (derivations.map fun derivation => LogScore.exp derivation.score).sum
  count : parse.count = derivations.length
  best : ∃ derivation, IsFirstLargest Derivation.score derivations derivation ∧
    parse.best = some (derivation.score, derivation.features)

/-- A parse has kept the best of the derivations of its form. -/
def HasBest [LE Number] (derivations : List (Derivation Form Number))
    (parse : Parse Form Number) : Prop :=
  ∃ derivation ∈ derivations, (derivation.form == parse.form) = true ∧
    parse.best = some (derivation.score, derivation.features) ∧
    ∀ other ∈ derivations, (other.form == parse.form) = true → other.score ≤ derivation.score

section Best

variable [LinearOrder Number] [AddCommMonoid Number] [LogScore Number]
  {derivations : List (Derivation Form Number)} {parse : Parse Form Number}

omit [BEq Form] in
/-- Every derivation is counted. -/
theorem count_foldl (derivations : List (Derivation Form Number)) (parse : Parse Form Number) :
    (derivations.foldl
      (fun parse derivation => parse.add derivation.score derivation.features) parse).count =
      parse.count + derivations.length := by
  induction derivations generalizing parse with
  | nil => rfl
  | cons first rest hypothesis =>
    rw [List.foldl_cons, hypothesis, List.length_cons, Nat.add_comm rest.length, ← Nat.add_assoc]
    rfl

omit [BEq Form] in
/-- Of the derivations that make a parse the first best one is kept. -/
theorem best_foldl [ExactScore Number] (form : Form) (first : Derivation Form Number)
    (rest : List (Derivation Form Number)) :
    ((first :: rest).foldl (fun parse derivation => parse.add derivation.score derivation.features)
      (Parse.start form)).best =
      some ((firstLargest Derivation.score first rest).score,
        (firstLargest Derivation.score first rest).features) := by
  induction rest using List.reverseRecOn with
  | nil =>
    exact if_pos (ExactScore.isAboveLowest first.score)
  | append_singleton rest last hypothesis =>
    rw [← List.cons_append, List.foldl_append, firstLargest_append_singleton]
    refine (congrArg (fun best => if Parse.improves best last.score
      then some (last.score, last.features) else best) hypothesis).trans ?_
    simp only [Parse.improves, decide_eq_true_eq]
    split
    · rfl
    · rfl

/-- A parse packs the derivations that make it. -/
theorem IsMadeOf.isPacked [ExactScore Number] (of : IsMadeOf derivations parse) :
    IsPacked derivations parse where
  first := of.first
  form := of.form
  inside := by
    have whole := congrArg Parse.inside of.made
    rw [inside_foldl] at whole
    exact whole.trans (zero_add _)
  count := by
    have whole := congrArg Parse.count of.made
    rw [count_foldl] at whole
    exact whole.trans (Nat.zero_add _)
  best := by
    obtain ⟨first, rest, rfl⟩ : ∃ first rest, derivations = first :: rest := by
      obtain ⟨leader, head, _⟩ := Option.map_eq_some_iff.1 of.first
      exact ⟨leader, _, List.eq_cons_of_mem_head? head⟩
    have whole := congrArg Parse.best of.made
    rw [best_foldl] at whole
    exact ⟨_, isFirstLargest_firstLargest Derivation.score first rest, whole⟩

/-- The score and the features of a parse are those of the first best derivation. -/
theorem IsPacked.exists_best (packed : IsPacked derivations parse) :
    ∃ derivation, IsFirstLargest Derivation.score derivations derivation ∧
      parse.score = derivation.score ∧ parse.features = derivation.features := by
  obtain ⟨derivation, largest, best⟩ := packed.best
  exact ⟨derivation, largest, by rw [Parse.score, best], by rw [Parse.features, best]⟩

variable [EquivBEq Form] [ExactScore Number]

/-- A parse packs the derivations of its form. -/
theorem isPacked_of_mem {forest : ParseForest Form Number} (member : parse ∈ forest.parses) :
    IsPacked (forest.derivations.filter fun derivation => derivation.form == parse.form) parse :=
  (isMadeOf_of_mem member).isPacked

/-- The parses of a forest have kept the best derivations of their forms. -/
theorem hasBest_parses (forest : ParseForest Form Number) :
    ∀ parse ∈ forest.parses, HasBest forest.derivations parse := by
  intro parse member
  obtain ⟨derivation, largest, best⟩ := (isPacked_of_mem member).best
  obtain ⟨derived, form⟩ := List.mem_filter.1 largest.mem
  exact ⟨derivation, derived, form, best, fun other otherMember same =>
    largest.le other (List.mem_filter.2 ⟨otherMember, same⟩)⟩

end Best

end ParseForest

namespace Group

section Best

variable [Add Number] [LinearOrder Number] [LogScore Number] (group : Group Form Number)

theorem best_mem : group.best ∈ group.members :=
  firstLargest_mem Pair.viterbi group.first group.rest

/-- No member of a group is better than the best one. -/
theorem viterbi_le_score : ∀ pair ∈ group.members, pair.viterbi ≤ group.score :=
  le_firstLargest Pair.viterbi group.first group.rest

end Best

end Group

end WordArithmetic
