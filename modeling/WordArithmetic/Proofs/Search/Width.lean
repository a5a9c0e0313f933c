/-
This file says what the width of the beam decides.

A search is a sequence of rounds. A round generates the predictions of its beam, sorts them and
carries out the first of them, as many as the beam is wide. As long as a width prunes nothing, the
rounds do not depend on it, so that a wider beam goes through the same rounds and finds the same
cells. What a width does prune are predictions that score no higher than any that is kept: the sort
is stable, and it compares scores that are in a total order, provided that none of them is
undefined.
-/

import WordArithmetic.Proofs.Number.Comparison
import WordArithmetic.Proofs.Search.Enumeration

namespace WordArithmetic

/-! ### Sorting what is comparable -/

/-- Sorting by a test that is a total preorder on the elements of a list: what comes out is in
order, and the elements of a kind that are in order already stay in their order. -/
theorem mergeSort_of_comparable {Element : Type} (precedes : Element → Element → Bool)
    {comparable : Element → Prop}
    (trans : ∀ first second third, comparable first → comparable second → comparable third →
      precedes first second = true → precedes second third = true → precedes first third = true)
    (total : ∀ first second, comparable first → comparable second →
      (precedes first second || precedes second first) = true)
    {elements : List Element} (all : ∀ element ∈ elements, comparable element) :
    (elements.mergeSort precedes).Pairwise (fun first second => precedes first second = true) ∧
      ∀ kind : Element → Bool,
        (elements.filter kind).Pairwise (fun first second => precedes first second = true) →
          (elements.filter kind).Sublist (elements.mergeSort precedes) := by
  -- the laws hold of the comparable elements, so the list is sorted as a list of those
  let among := elements.attachWith comparable all
  let order := fun first second : { element // comparable element } =>
    precedes first.val second.val
  have forget : among.map Subtype.val = elements := List.attachWith_map_subtype_val all
  have sorted : (among.mergeSort order).map Subtype.val = elements.mergeSort precedes := by
    have moved : (among.mergeSort order).map Subtype.val =
        (among.map Subtype.val).mergeSort precedes := List.map_mergeSort fun _ _ _ _ => rfl
    rw [moved, forget]
  have orderTrans : ∀ first second third, order first second = true → order second third = true →
      order first third = true := fun first second third =>
    trans first.val second.val third.val first.property second.property third.property
  have orderTotal : ∀ first second, (order first second || order second first) = true :=
    fun first second => total first.val second.val first.property second.property
  rw [← sorted]
  refine ⟨?_, fun kind inOrder => ?_⟩
  · rw [List.pairwise_map]
    exact List.pairwise_mergeSort orderTrans orderTotal among
  · have part : elements.filter kind = (among.filter (kind ∘ Subtype.val)).map Subtype.val := by
      rw [← List.filter_map, forget]
    rw [part, List.pairwise_map] at inOrder
    rw [part]
    exact (List.sublist_mergeSort orderTrans orderTotal inOrder List.filter_sublist).map _

namespace Prediction

/-- Whether the score of a prediction is a number. -/
def IsScored (prediction : Prediction Scalar) : Prop :=
  prediction.score.point ≠ .undefined

/-- Whether a prediction may stand before another one. -/
def precedes (left right : Prediction Scalar) : Bool :=
  !decide (left.score < right.score)

theorem precedes_iff {left right : Prediction Scalar} :
    left.precedes right = true ↔ ¬ left.score < right.score := by
  rw [precedes, Bool.not_eq_true', decide_eq_false_iff_not]

theorem precedes_trans {first second third : Prediction Scalar} (scoredFirst : first.IsScored)
    (scoredSecond : second.IsScored) (before : first.precedes second = true)
    (after : second.precedes third = true) : first.precedes third = true := by
  rw [precedes_iff] at before after ⊢
  exact fun less => after (Scalar.lt_of_not_lt_of_lt scoredSecond scoredFirst before less)

theorem precedes_total (first second : Prediction Scalar) :
    (first.precedes second || second.precedes first) = true := by
  rw [Bool.or_eq_true, precedes_iff, precedes_iff, ← not_and_or]
  exact fun ⟨less, more⟩ => Scalar.lt_irrefl _ (Scalar.lt_trans less more)

/-- Predictions of one score may stand in any order. -/
theorem precedes_of_beq {left right : Prediction Scalar} {score : Scalar}
    (sameLeft : (left.score == score) = true) (sameRight : (right.score == score) = true) :
    left.precedes right = true := by
  rw [precedes_iff, Scalar.lt_iff, (Scalar.beq_iff.1 sameLeft).2, (Scalar.beq_iff.1 sameRight).2]
  exact ExtendedRat.below_irrefl _

variable {predictions : List (Prediction Scalar)}
  (scored : ∀ prediction ∈ predictions, prediction.IsScored)

include scored

theorem sort_eq_mergeSort : sort predictions = predictions.mergeSort precedes := by
  refine if_pos (List.all_eq_true.2 fun prediction member => ?_)
  exact Scalar.beq_iff.2 ⟨scored prediction member, rfl⟩

theorem mergeSort_precedes :
    (predictions.mergeSort precedes).Pairwise (fun left right => left.precedes right = true) ∧
      ∀ kind : Prediction Scalar → Bool,
        (predictions.filter kind).Pairwise (fun left right => left.precedes right = true) →
          (predictions.filter kind).Sublist (predictions.mergeSort precedes) :=
  mergeSort_of_comparable precedes
    (fun _ _ _ scoredFirst scoredSecond _ => precedes_trans scoredFirst scoredSecond)
    (fun first second _ _ => precedes_total first second) scored

/-- No prediction scores higher than one that stands before it. -/
theorem pairwise_sort :
    (sort predictions).Pairwise fun left right => ¬ left.score < right.score := by
  rw [sort_eq_mergeSort scored]
  exact (mergeSort_precedes scored).1.imp precedes_iff.1

/-- Predictions of one score keep their order. -/
theorem filter_sort (score : Scalar) :
    (sort predictions).filter (fun prediction => prediction.score == score) =
      predictions.filter fun prediction => prediction.score == score := by
  let same := fun prediction : Prediction Scalar => prediction.score == score
  have level : (predictions.filter same).Pairwise fun left right => left.precedes right = true :=
    List.pairwise_of_forall_mem_list fun left leftMember right rightMember =>
      precedes_of_beq (List.mem_filter.1 leftMember).2 (List.mem_filter.1 rightMember).2
  have part : (predictions.filter same).Sublist (sort predictions) := by
    rw [sort_eq_mergeSort scored]
    exact (mergeSort_precedes scored).2 same level
  have inside : (predictions.filter same).Sublist ((sort predictions).filter same) := by
    have filtered := part.filter same
    rw [List.filter_filter] at filtered
    simpa only [Bool.and_self] using filtered
  exact (inside.eq_of_length ((sort_perm predictions).filter same).length_eq.symm).symm

end Prediction

namespace Beam

/-! ### What is kept of a round -/

section Kept

variable {Number : Type}

/-- A width that is not negative keeps as many predictions as the beam is wide, from the front. -/
theorem kept_eq_take {width : Int} (nonneg : 0 ≤ width) (predictions : List (Prediction Number)) :
    kept width predictions = predictions.take width.toNat := by
  by_cases longer : cuts width predictions
  · rw [kept, if_pos longer, Prediction.prune, if_neg (not_lt.2 nonneg)]
  · have fits : (predictions.length : Int) ≤ width := not_lt.1 longer
    rw [kept, if_neg longer, List.take_of_length_le (by omega)]

theorem length_kept_le {width : Int} (nonneg : 0 ≤ width)
    (predictions : List (Prediction Number)) : ((kept width predictions).length : Int) ≤ width := by
  rw [kept_eq_take nonneg, List.length_take]
  omega

end Kept

/-- What a round of some width makes of the predictions that it has generated: `kept` are carried
out and `pruned` are not. -/
structure Selects (width : Int) (generated kept pruned : List (Prediction Scalar)) : Prop where
  /-- Every prediction is kept or pruned. -/
  all : (kept ++ pruned).Perm generated
  /-- As many are kept as the beam is wide, or all of them if they are fewer. -/
  length : (kept.length : Int) = min (generated.length : Int) width
  /-- No pruned prediction scores higher than a kept one. -/
  best : (∀ prediction ∈ generated, prediction.IsScored) →
    ∀ better ∈ kept, ∀ worse ∈ pruned, ¬ better.score < worse.score
  /-- Predictions of one score stay in the order in which they were generated. -/
  stable : (∀ prediction ∈ generated, prediction.IsScored) → ∀ score : Scalar,
    (kept ++ pruned).filter (fun prediction => prediction.score == score) =
      generated.filter fun prediction => prediction.score == score

/-- A round keeps the first of the sorted predictions. -/
theorem selects_kept {width : Int} (nonneg : 0 ≤ width) (generated : List (Prediction Scalar)) :
    ∃ pruned, Selects width generated (kept width (Prediction.sort generated)) pruned := by
  have order := Prediction.sort_perm generated
  have whole := List.take_append_drop width.toNat (Prediction.sort generated)
  rw [kept_eq_take nonneg]
  refine ⟨(Prediction.sort generated).drop width.toNat, ?_, ?_, fun scored => ?_,
    fun scored score => ?_⟩
  · rw [whole]
    exact order
  · rw [List.length_take, order.length_eq]
    omega
  · have sorted := Prediction.pairwise_sort scored
    rw [← whole, List.pairwise_append] at sorted
    exact sorted.2.2
  · rw [whole]
    exact Prediction.filter_sort scored score

/-! ### Rounds -/

/-- A round of a search: the beam with which it begins, and the cells that it reaches. -/
structure Round (Number : Type) where
  beam : List (Cell Number)
  reached : List (Cell Number)

section Rounds

variable {Number : Type} [Zero Number] [Add Number] [BEq Number] [LT Number] [DecidableLT Number]

/-- The rounds of a search from a beam on. Each of them carries out what it keeps of its sorted
predictions, and the cells that it reaches are the beam of the next round unless they end a
derivation. The search is over when the beam is empty. -/
inductive Runs (actions : List Action) (width : Int) (words : Array Word)
    (weighting : Symbol → Number) : List (Cell Number) → List (Round Number) → Prop
  | finished : Runs actions width words weighting [] []
  | round {beam reached : List (Cell Number)} {later : List (Round Number)} (going : beam ≠ [])
      (carried : (kept width (predict actions words weighting beam)).mapM
        (Prediction.execute words) = .ok reached)
      (after : Runs actions width words weighting
        (reached.filter fun cell => !cell.configuration.isFinal) later) :
      Runs actions width words weighting beam (⟨beam, reached⟩ :: later)

/-- The cells that end derivations, round by round. -/
def ended (rounds : List (Round Number)) : List (Cell Number) :=
  rounds.flatMap fun round => round.reached.filter fun cell => cell.configuration.isFinal

variable {actions : List Action} {words : Array Word} {weighting : Symbol → Number}

/-- A search does not become exact again once it has pruned something. -/
theorem exact_of_searchFrom {width : Int} {rounds : Nat} {cells : List (Cell Number)}
    {found result : Found Number}
    (searched : searchFrom actions width words weighting rounds cells found = .ok result)
    (exact : result.exact = true) : found.exact = true := by
  induction rounds generalizing cells found with
  | zero =>
    obtain rfl := Except.ok.inj searched
    exact exact
  | succ rounds hypothesis =>
    cases cells with
    | nil =>
      obtain rfl := Except.ok.inj searched
      exact exact
    | cons first others =>
      obtain ⟨_, _, later⟩ := exists_reached searched
      exact (Bool.and_eq_true_iff.1 (hypothesis later)).1

/-- A search that has pruned nothing finds the same with a wider beam. -/
theorem searchFrom_wider {narrow wide : Int} (wider : narrow ≤ wide) {rounds : Nat}
    {cells : List (Cell Number)} {found result : Found Number}
    (searched : searchFrom actions narrow words weighting rounds cells found = .ok result)
    (exact : result.exact = true) :
    searchFrom actions wide words weighting rounds cells found = .ok result := by
  induction rounds generalizing cells found with
  | zero => exact searched
  | succ rounds hypothesis =>
    cases cells with
    | nil => exact searched
    | cons first others =>
      let predictions := predict actions words weighting (first :: others)
      obtain ⟨reached, carried, later⟩ := exists_reached searched
      -- nothing is pruned in this round, since the search would not be exact otherwise
      have uncut : ¬ cuts narrow predictions := by
        have still := (Bool.and_eq_true_iff.1 (exact_of_searchFrom later exact)).2
        rw [Bool.not_eq_true', decide_eq_false_iff_not] at still
        exact still
      have uncutWide : ¬ cuts wide predictions := fun cut => uncut (wider.trans_lt cut)
      have keptNarrow : kept narrow predictions = predictions := if_neg uncut
      have keptWide : kept wide predictions = predictions := if_neg uncutWide
      simp only [predictions] at uncut uncutWide keptNarrow keptWide
      rw [searchFrom_cons]
      simp only [keptNarrow, uncut] at carried later
      simp only [keptWide, uncutWide, carried]
      exact hypothesis later

/-! ### The rounds of a search -/

/-- After a round from cells that hold derivations the cells that are reached do, too. -/
theorem derived_reached {macros : List String} {width : Int} {beam reached : List (Cell Number)}
    {length : Nat}
    (derived : ∀ cell ∈ beam, IsDerivation (Action.all macros) words cell.history
      cell.configuration ∧ cell.history.length = length)
    (carried : (kept width (predict (Action.all macros) words weighting beam)).mapM
      (Prediction.execute words) = .ok reached) :
    ∀ cell ∈ reached, IsDerivation (Action.all macros) words cell.history cell.configuration ∧
      cell.history.length = length + 1 := by
  intro next member
  obtain ⟨cell, cellMember, action, actionMember, allowed, executed⟩ :=
    exists_of_mem_reached carried member
  obtain ⟨configuration, stepped, rfl⟩ := Prediction.exists_of_execute executed
  obtain ⟨derivation, sameLength⟩ := derived cell cellMember
  exact ⟨derivation.step actionMember allowed stepped, congrArg (· + 1) sameLength⟩

/-- A search that ends well is a sequence of rounds. What it finds is what ends in them, and it is
exact if none of them has more predictions than the beam is wide. -/
theorem exists_runs {macros : List String} {width : Int} {rounds length : Nat}
    {cells : List (Cell Number)} {found result : Found Number}
    (derived : ∀ cell ∈ cells, IsDerivation (Action.all macros) words cell.history
      cell.configuration ∧ cell.history.length = length)
    (enough : 2 * words.size < length + rounds)
    (searched : searchFrom (Action.all macros) width words weighting rounds cells found =
      .ok result) :
    ∃ passed, Runs (Action.all macros) width words weighting cells passed ∧
      result.cells = found.cells ++ ended passed ∧
      (result.exact = true ↔ found.exact = true ∧ ∀ round ∈ passed,
        ¬ cuts width (predict (Action.all macros) words weighting round.beam)) := by
  have finished : ∀ found : Found Number, ∃ passed,
      Runs (Action.all macros) width words weighting [] passed ∧
      found.cells = found.cells ++ ended passed ∧
      (found.exact = true ↔ found.exact = true ∧ ∀ round ∈ passed,
        ¬ cuts width (predict (Action.all macros) words weighting round.beam)) := fun found =>
    ⟨[], .finished, (List.append_nil _).symm, (and_iff_left (List.forall_mem_nil _)).symm⟩
  induction rounds generalizing cells found length with
  | zero =>
    obtain rfl : cells = [] := by
      refine List.eq_nil_iff_forall_not_mem.2 fun cell member => ?_
      obtain ⟨derivation, sameLength⟩ := derived cell member
      have bound := derivation.length_le
      omega
    obtain rfl := Except.ok.inj searched
    exact finished found
  | succ rounds hypothesis =>
    cases cells with
    | nil =>
      obtain rfl := Except.ok.inj searched
      exact finished found
    | cons first others =>
      obtain ⟨reached, carried, later⟩ := exists_reached searched
      have next := derived_reached derived carried
      obtain ⟨passed, runs, cells, exact⟩ := hypothesis
        (fun cell member => next cell (List.mem_of_mem_filter member)) (by omega) later
      refine ⟨⟨first :: others, reached⟩ :: passed, .round (List.cons_ne_nil _ _) carried runs,
        ?_, ?_⟩
      · rw [cells, List.append_assoc]
        rfl
      · rw [exact, Bool.and_eq_true_iff, List.forall_mem_cons, and_assoc]
        simp only [Bool.not_eq_true', decide_eq_false_iff_not]

/-- A round reaches at most as many cells as the beam is wide. -/
theorem Runs.length_reached_le {width : Int} (nonneg : 0 ≤ width) {beam : List (Cell Number)}
    {passed : List (Round Number)} (runs : Runs actions width words weighting beam passed) :
    ∀ round ∈ passed, (round.reached.length : Int) ≤ width := by
  induction runs with
  | finished => exact List.forall_mem_nil _
  | round _ carried _ hypothesis =>
    refine List.forall_mem_cons.2 ⟨?_, hypothesis⟩
    rw [← (forall₂_of_mapM carried).length_eq]
    exact length_kept_le nonneg _

end Rounds

/-- What the width of the beam decides, for any meanings, words and weights. A search that is exact
finds the same cells in the same order with any wider beam, and is exact with it. And whatever the
width, a search passes through rounds which reach at most as many cells as the beam is wide, and in
every round, of any beam, what is pruned scores no higher than what is kept, and what scores the
same stays in its order. -/
theorem search_of_wider (macros : List String) (words : Array Word) (weighting : Symbol → Scalar)
    {narrow wide : Int} (nonneg : 0 ≤ narrow) (wider : narrow ≤ wide) :
    let actions := Action.all macros
    (∀ found, search actions narrow words weighting = .ok found → found.exact = true →
      search actions wide words weighting = .ok found) ∧
    (∀ found, search actions narrow words weighting = .ok found →
      ∃ passed, Runs actions narrow words weighting [.start words.size] passed ∧
        found.cells = ended passed ∧
        (found.exact = true ↔
          ∀ round ∈ passed, ¬ cuts narrow (predict actions words weighting round.beam)) ∧
        ∀ round ∈ passed, (round.reached.length : Int) ≤ narrow) ∧
    ∀ beam, ∃ pruned, Selects narrow (beam.flatMap (Cell.predictions actions words weighting))
      (kept narrow (predict actions words weighting beam)) pruned := by
  intro actions
  refine ⟨fun found searched exact => searchFrom_wider wider searched exact,
    fun found searched => ?_, fun beam => selects_kept nonneg _⟩
  have derived : ∀ cell ∈ ([Cell.start words.size] : List (Cell Scalar)),
      IsDerivation (Action.all macros) words cell.history cell.configuration ∧
        cell.history.length = 0 := by
    intro cell member
    obtain rfl := List.mem_singleton.1 member
    exact ⟨.start, rfl⟩
  have enough : 2 * words.size < 0 + roundBound words.size := by
    unfold roundBound
    omega
  obtain ⟨passed, runs, cells, exact⟩ := exists_runs derived enough searched
  exact ⟨passed, runs, cells, exact.trans (and_iff_right rfl), runs.length_reached_le nonneg⟩

/-- The search for the parses of a sum with a beam that has room for all of them, and with a wider
one. -/
theorem search_of_wider_plus :
    let actions := Action.all plusLexicon.macros
    let room : Int := ((actions.length ^ roundBound plusWords.size : Nat) : Int)
    0 ≤ room ∧ room ≤ room + 1 ∧ ∃ found : Found Scalar,
      search actions room plusWords (fun _ => 0) = .ok found ∧ found.exact = true ∧
      search actions (room + 1) plusWords (fun _ => 0) = .ok found ∧
      ∃ passed, Runs actions room plusWords (fun _ => 0) [.start plusWords.size] passed ∧
        found.cells = ended passed ∧
        ∀ round ∈ passed, (round.reached.length : Int) ≤ room := by
  intro actions room
  have nonneg : 0 ≤ room := Int.natCast_nonneg _
  have wider : room ≤ room + 1 := by omega
  have typed : AreTyped plusWords := fun word member name has =>
    Lexicon.exists_logicalType exists_typecheck_plusLexicon (List.mem_toArray.1 member) has
  obtain ⟨found, searched, _⟩ :=
    exists_search typed plusLexicon.nodup_macros room (fun _ => (0 : Scalar))
  have some : 0 < actions.length := by decide +kernel
  have exact : found.exact = true :=
    exact_of_wide some searched rfl (by rw [List.length_singleton, Nat.one_mul])
  obtain ⟨same, rounds, _⟩ :=
    search_of_wider plusLexicon.macros plusWords (fun _ => (0 : Scalar)) nonneg wider
  obtain ⟨passed, runs, cells, _, narrow⟩ := rounds found searched
  exact ⟨nonneg, wider, found, searched, exact, same found searched exact, passed, runs, cells,
    narrow⟩

end Beam

end WordArithmetic
