/-
This file shows that the score of a derivation is the product of the weights with its features.

A search adds up scores on the way: every step adds the weights of what is observed in the
configuration, together with the label of the action. The features of a derivation are counted
afterwards, when its steps are known. Both are sums over the same steps, whatever the actions and
however often a feature is repeated, since the product with the weights is linear.
-/

import WordArithmetic.Proofs.FeatureVector.Product
import WordArithmetic.Proofs.Search.Enumeration

namespace WordArithmetic

/-! ### What a search keeps -/

section Search

variable {Number : Type} [Zero Number] [Add Number] {actions : List Action} {words : Array Word}
  {weighting : Symbol → Number} [BEq Number] [LT Number] [DecidableLT Number]

/-- What holds of the cells of a beam, and still does after an action has been carried out, holds
of the cells that are found. -/
theorem Beam.forall_searchFrom {holds : Cell Number → Prop}
    (kept : ∀ cell action next, holds cell →
      (cell.prediction weighting (cell.configuration.observations words) action).execute words =
        .ok next → holds next)
    {width : Int} {rounds : Nat} {cells : List (Cell Number)} {found result : Found Number}
    (searched : searchFrom actions width words weighting rounds cells found = .ok result)
    (going : ∀ cell ∈ cells, holds cell) (ended : ∀ cell ∈ found.cells, holds cell) :
    ∀ cell ∈ result.cells, holds cell := by
  induction rounds generalizing cells found with
  | zero =>
    obtain rfl := Except.ok.inj searched
    exact ended
  | succ rounds hypothesis =>
    match cells with
    | [] =>
      obtain rfl := Except.ok.inj searched
      exact ended
    | first :: others =>
      obtain ⟨reached, carried, later⟩ := exists_reached searched
      have reachedHold : ∀ cell ∈ reached, holds cell := by
        intro next member
        obtain ⟨cell, cellMember, action, _, _, executed⟩ := exists_of_mem_reached carried member
        exact kept cell action next (going cell cellMember) executed
      refine hypothesis later (fun cell member => ?_) fun cell member => ?_
      · exact reachedHold cell (List.mem_of_mem_filter member)
      · rcases List.mem_append.1 member with earlier | now
        · exact ended cell earlier
        · exact reachedHold cell (List.mem_of_mem_filter now)

end Search

/-! ### Scores of steps -/

/-- The score of a configuration is the one with which the action was carried out. -/
theorem Configuration.score_of_execute {Number : Type} {words : Array Word}
    {configuration next : Configuration Number} {action : Action} {score : Number}
    (executed : configuration.execute words action score = .ok next) : next.score = score := by
  unfold execute at executed
  split at executed
  · split at executed
    · cases executed
    · split at executed
      · cases executed
      · rename_i word _
        simp only at executed
        cases typed : word.logicalType (action.macroName.getD "") with
        | error failure =>
          rw [typed] at executed
          cases executed
        | ok type =>
          rw [typed] at executed
          obtain rfl := Except.ok.inj executed
          rfl
  · obtain rfl := Except.ok.inj executed
    rfl
  · split at executed
    · obtain rfl := Except.ok.inj executed
      rfl
    · cases executed

section Score

variable {Number : Type} [CommSemiring Number] (weighting : Symbol → Number) (words : Array Word)

/-- What a step adds to the score. -/
def stepScore (step : Configuration Number × Action) : Number :=
  FeatureVector.totalConjoined weighting (step.1.observations words) (.name step.2.label)

/-- The score of a cell is what the steps that led to it have added. -/
def Cell.IsScored (cell : Cell Number) : Prop :=
  cell.configuration.score = (cell.history.map (stepScore weighting words)).sum

variable {weighting words}

/-- Carrying out an action keeps cells scored. -/
theorem Cell.IsScored.execute {cell next : Cell Number} (scored : cell.IsScored weighting words)
    {action : Action}
    (executed : (cell.prediction weighting (cell.configuration.observations words)
      action).execute words = .ok next) : next.IsScored weighting words := by
  obtain ⟨configuration, reached, rfl⟩ := Prediction.exists_of_execute executed
  rw [IsScored, Configuration.score_of_execute reached]
  show cell.configuration.score + stepScore weighting words (cell.configuration, action) = _
  rw [scored, List.map_cons, List.sum_cons, add_comm]
  rfl

/-- The features of a derivation count what is observed in its steps. -/
theorem featurize_eq_countSteps [BEq Number] (words : Array Word)
    (steps : List (Configuration Number × Action)) :
    Configuration.featurize words steps =
      FeatureVector.countSteps (steps.map fun step =>
        (step.1.observations words, .name step.2.label)) := by
  rw [FeatureVector.countSteps, List.foldl_map]
  rfl

/-- The product of the weights with the features of a derivation is what its steps add. -/
theorem dot_featurize [BEq Number] [LawfulBEq Number] (theta : FeatureVector Number)
    (steps : List (Configuration Number × Action)) :
    theta.dot (Configuration.featurize words steps) =
      (steps.map (stepScore theta.weight words)).sum := by
  rw [featurize_eq_countSteps, FeatureVector.dot_countSteps, List.map_map]
  rfl

end Score

/-! ### The derivations of a parser -/

namespace Parser

variable {Number : Type} [CommSemiring Number] [BEq Number] [LawfulBEq Number] [LT Number]
  [DecidableLT Number]

/-- The score of every derivation is the product of the weights with its features. -/
theorem score_eq_dot {parser : Parser} {words : Array Word} {theta : FeatureVector Number}
    {forest : ParseForest LatentForm Number} {untypedShifts : Nat}
    (parsed : parser.parseBase words theta = .ok (forest, untypedShifts)) :
    ∀ derivation ∈ forest.derivations, derivation.score = theta.dot derivation.features := by
  have weighting : (fun key => theta.index.getD key 0) = theta.weight :=
    funext theta.getD_index
  unfold parseBase at parsed
  simp only [weighting] at parsed
  cases searched : Beam.search parser.actions parser.width words theta.weight with
  | error interrupted =>
    rw [searched] at parsed
    cases parsed
  | ok found =>
    rw [searched] at parsed
    have scored : ∀ cell ∈ found.cells, cell.IsScored theta.weight words := by
      refine Beam.forall_searchFrom (fun _ _ _ scored executed => scored.execute executed)
        searched (List.forall_mem_singleton.2 ?_) (List.forall_mem_nil _)
      rfl
    cases built : found.cells.mapM (derivation words) with
    | error failure =>
      simp only [bind, Except.bind, built] at parsed
      cases parsed
    | ok derivations =>
      simp only [bind, Except.bind, built] at parsed
      obtain rfl := (Prod.mk.inj (Except.ok.inj parsed)).1
      intro derivation member
      obtain ⟨cell, cellMember, made⟩ := exists_of_mem_mapM built derivation member
      rw [Parser.derivation] at made
      cases formed : Configuration.logicalForm words cell.steps with
      | error failure =>
        rw [formed] at made
        cases made
      | ok term =>
        rw [formed] at made
        obtain rfl := Except.ok.inj made
        show cell.configuration.score = theta.dot (Configuration.featurize words cell.steps)
        rw [dot_featurize, Cell.steps, List.map_reverse, List.sum_reverse, scored cell cellMember]

end Parser

end WordArithmetic
