/-
This file follows the beam through its rounds.

After every round the cells that have been found and those in the beam hold derivations, no two of
them with the same actions (`BeamState`). As long as nothing has been pruned they also leave no
derivation out (`Covers`): the finished ones are among those found and the others of this length
are in the beam. A round keeps both, and since every action shrinks twice the number of words to
come plus the height of the stack, the rounds do not run out before the beam is empty.
-/

import Mathlib.Data.List.Perm.Subperm
import WordArithmetic.Proofs.Failure
import WordArithmetic.Proofs.Search.Canonical

namespace WordArithmetic

section Steps

variable {Number : Type} {macros : List String} {words : Array Word}

/-- The actions of a sequence of steps that is kept latest first, in the order in which they were
taken. -/
def takenIn (history : List (Configuration Number × Action)) : List Action :=
  (history.map Prod.snd).reverse

theorem takenIn_cons (configuration : Configuration Number) (action : Action)
    (history : List (Configuration Number × Action)) :
    takenIn ((configuration, action) :: history) = takenIn history ++ [action] :=
  List.reverse_cons

theorem length_takenIn (history : List (Configuration Number × Action)) :
    (takenIn history).length = history.length := by
  rw [takenIn, List.length_reverse, List.length_map]

/-- The last action is the last one taken. -/
theorem head?_of_takenIn_eq {history other : List (Configuration Number × Action)}
    (same : takenIn history = takenIn other) :
    history.head?.map Prod.snd = other.head?.map Prod.snd := by
  rw [← List.head?_map, ← List.head?_map, List.reverse_inj.1 same]

/-- What every meaning of a sequence of words has to have for the search not to fail: a type. -/
def AreTyped (words : Array Word) : Prop :=
  ∀ word ∈ words, ∀ name, word.meanings.contains name = true →
    ∃ type, word.logicalType name = .ok type

/-- An allowed action can be carried out. -/
theorem Configuration.exists_execute (typed : AreTyped words)
    {configuration : Configuration Number} {previous : Option Action} {action : Action}
    (member : action ∈ Action.all macros)
    (allowed : configuration.allows words previous action = true) (score : Number) :
    ∃ next, configuration.execute words action score = .ok next := by
  rcases (Action.mem_all macros action).1 member with rfl | ⟨direction, rfl⟩ | ⟨name, _, rfl⟩
  · obtain ⟨filled, _⟩ := allows_drop.1 allowed
    obtain ⟨position, rest, front⟩ := List.exists_cons_of_ne_nil filled
    exact ⟨_, execute_drop _ front⟩
  · obtain ⟨upper, lower, rest, top, _⟩ := (allows_reduction direction).1 allowed
    exact ⟨_, execute_reduction _ direction top⟩
  · obtain ⟨position, rest, word, front, found, known⟩ := (allows_shift name).1 allowed
    obtain ⟨type, logical⟩ := typed word (Array.mem_of_getElem? found) name known
    rw [execute_shift _ _ front found, logical]
    exact ⟨_, rfl⟩

/-- A configuration that ends a derivation allows no action. -/
theorem Configuration.allows_of_isFinal {configuration : Configuration Number}
    (final : configuration.isFinal = true) (previous : Option Action) {action : Action}
    (member : action ∈ Action.all macros) :
    configuration.allows words previous action = false := by
  obtain ⟨empty, element, only⟩ : configuration.buffer = [] ∧
      ∃ element, configuration.stack = [element] := by
    unfold isFinal at final
    split at final
    · rename_i element only
      simp only [Bool.and_eq_true, List.isEmpty_iff] at final
      exact ⟨final.1, element, only⟩
    · simp at final
  refine Bool.eq_false_iff.2 fun allowed => ?_
  rcases (Action.mem_all macros action).1 member with rfl | ⟨direction, rfl⟩ | ⟨name, _, rfl⟩
  · exact (allows_drop.1 allowed).1 empty
  · obtain ⟨upper, lower, rest, top, _⟩ := (allows_reduction direction).1 allowed
    rw [only] at top
    cases top
  · obtain ⟨position, rest, word, front, _⟩ := (allows_shift name).1 allowed
    rw [empty] at front
    cases front

/-- Whether a configuration ends a derivation hangs on the stack and the words to come only. -/
theorem Configuration.isFinal_congr {left right : Configuration Number}
    (stack : left.stack = right.stack) (buffer : left.buffer = right.buffer) :
    left.isFinal = right.isFinal := by
  unfold isFinal
  rw [stack, buffer]

/-- What is allowed and what comes of it hang on the stack and the words to come only. -/
theorem Configuration.step_agrees {left right next : Configuration Number}
    {previous : Option Action} {action : Action} {score : Number}
    (stack : left.stack = right.stack) (buffer : left.buffer = right.buffer)
    (member : action ∈ Action.all macros) (allowed : left.allows words previous action = true)
    (executed : left.execute words action score = .ok next) (other : Number) :
    right.allows words previous action = true ∧
      right.execute words action other = .ok ⟨next.stack, next.buffer, other⟩ := by
  have sameAllowed : left.allows words previous action = right.allows words previous action := by
    unfold allows
    rw [stack, buffer]
  refine ⟨sameAllowed ▸ allowed, ?_⟩
  rcases step_cases member allowed executed with
    ⟨name, place, rest, word, type, rfl, front, found, _, logical, rfl⟩ |
    ⟨place, rest, rfl, front, _, rfl⟩ |
    ⟨direction, upper, lower, rest, rfl, top, _, rfl⟩
  · rw [execute_shift _ _ (buffer ▸ front) found, logical, ← stack]
    rfl
  · rw [execute_drop _ (buffer ▸ front), ← stack]
  · rw [execute_reduction _ direction (stack ▸ top), ← buffer]

/-- Twice the number of words to come plus the height of the stack. -/
def Configuration.remaining (configuration : Configuration Number) : Nat :=
  2 * configuration.buffer.length + configuration.stack.length

/-- Every step makes twice the number of words to come plus the height of the stack smaller. -/
theorem Configuration.remaining_lt {configuration next : Configuration Number}
    {previous : Option Action} {action : Action} {score : Number}
    (member : action ∈ Action.all macros)
    (allowed : configuration.allows words previous action = true)
    (executed : configuration.execute words action score = .ok next) :
    next.remaining < configuration.remaining := by
  rcases step_cases member allowed executed with
    ⟨name, place, rest, word, type, rfl, front, _, _, _, rfl⟩ |
    ⟨place, rest, rfl, front, _, rfl⟩ |
    ⟨direction, upper, lower, rest, rfl, top, _, rfl⟩
  · simp only [remaining, front, List.length_cons]
    omega
  · simp only [remaining, front, List.length_cons]
    omega
  · simp only [remaining, top, List.length_cons]
    omega

variable [Zero Number]

/-- Derivations with the same actions lead to the same stack and the same words to come. -/
theorem IsDerivation.agrees {history other : List (Configuration Number × Action)}
    {configuration reached : Configuration Number}
    (derivation : IsDerivation (Action.all macros) words history configuration)
    (second : IsDerivation (Action.all macros) words other reached)
    (same : takenIn history = takenIn other) :
    configuration.stack = reached.stack ∧ configuration.buffer = reached.buffer := by
  induction derivation generalizing other reached with
  | start =>
    cases second with
    | start => exact ⟨rfl, rfl⟩
    | step => simp [takenIn] at same
  | @step history configuration next action score earlier member allowed executed hypothesis =>
    cases second with
    | start => simp [takenIn] at same
    | @step others before _ taken otherScore earlierOther _ _ executedOther =>
      rw [takenIn_cons, takenIn_cons] at same
      obtain ⟨sameEarlier, sameAction⟩ := List.append_inj' same rfl
      obtain rfl : action = taken := List.singleton_inj.1 sameAction
      obtain ⟨stack, buffer⟩ := hypothesis earlierOther sameEarlier
      rw [(Configuration.step_agrees stack buffer member allowed executed otherScore).2]
        at executedOther
      cases executedOther
      exact ⟨rfl, rfl⟩

/-- A derivation has used up at least as much as it has steps. -/
theorem IsDerivation.length_le {history : List (Configuration Number × Action)}
    {configuration : Configuration Number}
    (derivation : IsDerivation (Action.all macros) words history configuration) :
    history.length + configuration.remaining ≤ 2 * words.size := by
  induction derivation with
  | start => simp [Configuration.start, Configuration.remaining]
  | step earlier member allowed executed hypothesis =>
    have smaller := Configuration.remaining_lt member allowed executed
    rw [List.length_cons]
    omega

/-- A derivation passes through derivations of every smaller length, none of which ends there. -/
theorem IsDerivation.exists_earlier {history : List (Configuration Number × Action)}
    {configuration : Configuration Number}
    (derivation : IsDerivation (Action.all macros) words history configuration) {length : Nat}
    (shorter : length < history.length) :
    ∃ (start : List (Configuration Number × Action)) (before : Configuration Number),
      IsDerivation (Action.all macros) words start before ∧ start.length = length ∧
        before.isFinal = false := by
  induction derivation with
  | start => cases shorter
  | @step history configuration next action score earlier member allowed executed hypothesis =>
    rcases Nat.lt_succ_iff_lt_or_eq.1 shorter with further | exact
    · exact hypothesis further
    · refine ⟨history, configuration, earlier, exact.symm, ?_⟩
      refine Bool.eq_false_iff.2 fun final => ?_
      rw [Configuration.allows_of_isFinal final _ member] at allowed
      cases allowed

end Steps

/-! ### The predictions of a round -/

section Predictions

variable {Number : Type} {macros : List String} {words : Array Word}

/-- The actions that led to a cell. -/
def Cell.taken (cell : Cell Number) : List Action :=
  takenIn cell.history

/-- The actions that lead to the cell of a prediction. -/
def Prediction.takes (prediction : Prediction Number) : List Action :=
  prediction.cell.taken ++ [prediction.action]

theorem Prediction.execute_eq {prediction : Prediction Number} {next : Configuration Number}
    (executed : prediction.cell.configuration.execute words prediction.action prediction.score =
      .ok next) :
    prediction.execute words = .ok
      ⟨next, (prediction.cell.configuration, prediction.action) :: prediction.cell.history⟩ := by
  simp only [Prediction.execute, executed]
  rfl

/-- What is reached by carrying out a prediction. -/
theorem Prediction.exists_of_execute {prediction : Prediction Number} {reached : Cell Number}
    (executed : prediction.execute words = .ok reached) :
    ∃ next, prediction.cell.configuration.execute words prediction.action prediction.score =
        .ok next ∧
      reached =
        ⟨next, (prediction.cell.configuration, prediction.action) :: prediction.cell.history⟩ := by
  obtain ⟨next, carried, made⟩ := bind_eq_ok executed
  exact ⟨next, carried, (Except.ok.inj made).symm⟩

variable [Zero Number] [Add Number]

theorem Cell.mem_predictions {actions : List Action} {weighting : Symbol → Number}
    {cell : Cell Number} {prediction : Prediction Number} :
    prediction ∈ cell.predictions actions words weighting ↔
      ∃ action ∈ actions, cell.configuration.allows words cell.lastAction action = true ∧
        cell.prediction weighting (cell.configuration.observations words) action = prediction := by
  simp only [Cell.predictions, Cell.allowed, List.mem_map, List.mem_filter, and_assoc]

/-- The predictions of cells with different actions have different actions. -/
theorem nodup_takes {actions : List Action} (distinctActions : actions.Nodup)
    (weighting : Symbol → Number) {cells : List (Cell Number)}
    (distinct : (cells.map Cell.taken).Nodup) :
    ((cells.flatMap (Cell.predictions actions words weighting)).map Prediction.takes).Nodup := by
  rw [List.map_flatMap, List.nodup_flatMap]
  constructor
  · intro cell _
    have same : (cell.predictions actions words weighting).map Prediction.takes =
        (cell.allowed actions words).map fun action => cell.taken ++ [action] := by
      simp only [Cell.predictions, List.map_map]
      rfl
    rw [same]
    refine (distinctActions.filter _).map fun left right equal => ?_
    exact List.singleton_inj.1 (List.append_cancel_left equal)
  · refine (List.pairwise_map.1 distinct).imp fun {left right} different => ?_
    intro sequence inLeft inRight
    obtain ⟨first, firstMember, rfl⟩ := List.mem_map.1 inLeft
    obtain ⟨second, secondMember, equal⟩ := List.mem_map.1 inRight
    obtain ⟨action, _, _, rfl⟩ := Cell.mem_predictions.1 firstMember
    obtain ⟨other, _, _, rfl⟩ := Cell.mem_predictions.1 secondMember
    exact different (List.append_inj' equal rfl).1.symm

/-- The predictions of a round are those of its cells, in another order. -/
theorem Beam.predict_perm [BEq Number] [LT Number] [DecidableLT Number] (actions : List Action)
    (words : Array Word) (weighting : Symbol → Number) (cells : List (Cell Number)) :
    (Beam.predict actions words weighting cells).Perm
      (cells.flatMap (Cell.predictions actions words weighting)) :=
  Prediction.sort_perm _

end Predictions

/-! ### The rounds -/

section Rounds

variable {Number : Type} [Zero Number] {macros : List String} {words : Array Word}

/-- What holds of the cells that have been found and of those in the beam after a number of
rounds. -/
structure BeamState (macros : List String) (words : Array Word) (round : Nat)
    (found cells : List (Cell Number)) : Prop where
  derived : ∀ cell ∈ found ++ cells,
    IsDerivation (Action.all macros) words cell.history cell.configuration
  final : ∀ cell ∈ found, cell.configuration.isFinal = true
  early : ∀ cell ∈ found, cell.history.length ≤ round
  level : ∀ cell ∈ cells, cell.history.length = round
  distinct : ((found ++ cells).map Cell.taken).Nodup

/-- Nothing has been left out after a number of rounds: the derivations up to this length that end
there have been found, and those of this length that go on are in the beam. -/
structure Covers (macros : List String) (words : Array Word) (round : Nat)
    (found cells : List (Cell Number)) : Prop where
  ended : ∀ (history : List (Configuration Number × Action)) (configuration : Configuration Number),
    IsDerivation (Action.all macros) words history configuration →
      configuration.isFinal = true → history.length ≤ round →
      ∃ cell ∈ found, cell.taken = takenIn history
  going : ∀ (history : List (Configuration Number × Action)) (configuration : Configuration Number),
    IsDerivation (Action.all macros) words history configuration →
      configuration.isFinal = false → history.length = round →
      ∃ cell ∈ cells, cell.taken = takenIn history

theorem BeamState.start :
    BeamState macros words 0 ([] : List (Cell Number)) [.start words.size] where
  derived := by
    intro cell member
    obtain rfl := List.mem_singleton.1 member
    exact IsDerivation.start
  final := nofun
  early := nofun
  level := by
    intro cell member
    obtain rfl := List.mem_singleton.1 member
    rfl
  distinct := List.nodup_singleton _

theorem Covers.start :
    Covers macros words 0 ([] : List (Cell Number)) [.start words.size] where
  ended := by
    intro history configuration derivation final short
    obtain rfl := List.length_eq_zero_iff.1 (Nat.le_zero.1 short)
    cases derivation
    simp [Configuration.isFinal, Configuration.start] at final
  going := by
    intro history configuration derivation _ short
    obtain rfl := List.length_eq_zero_iff.1 short
    exact ⟨_, List.mem_singleton_self _, rfl⟩

/-- The action of a prediction in the beam can be carried out, and leads to a derivation. -/
theorem BeamState.exists_execute [Add Number] (typed : AreTyped words) {round : Nat}
    {found cells : List (Cell Number)} (state : BeamState macros words round found cells)
    {weighting : Symbol → Number} {prediction : Prediction Number}
    (member : prediction ∈
      cells.flatMap (Cell.predictions (Action.all macros) words weighting)) :
    ∃ reached, prediction.execute words = .ok reached ∧
      (IsDerivation (Action.all macros) words reached.history reached.configuration ∧
        reached.history.length = round + 1) ∧ reached.taken = prediction.takes := by
  obtain ⟨cell, cellMember, predicted⟩ := List.mem_flatMap.1 member
  obtain ⟨action, actionMember, allowed, rfl⟩ := Cell.mem_predictions.1 predicted
  obtain ⟨next, executed⟩ := Configuration.exists_execute typed actionMember allowed _
  have derivation := state.derived cell (List.mem_append_right _ cellMember)
  refine ⟨_, Prediction.execute_eq executed,
    ⟨derivation.step actionMember allowed executed, ?_⟩, ?_⟩
  · exact congrArg (· + 1) (state.level cell cellMember)
  · exact takenIn_cons _ _ _

/-- What a round makes of the beam: the predictions that are kept can be carried out, and after it
the beam is in order again. -/
theorem BeamState.next [Add Number] (typed : AreTyped words) (distinctNames : macros.Nodup)
    {round : Nat} {found cells : List (Cell Number)}
    (state : BeamState macros words round found cells) {weighting : Symbol → Number}
    {kept : List (Prediction Number)}
    (some : kept.Subperm (cells.flatMap (Cell.predictions (Action.all macros) words weighting))) :
    ∃ reached, kept.mapM (Prediction.execute words) = .ok reached ∧
      reached.map Cell.taken = kept.map Prediction.takes ∧
      BeamState macros words (round + 1)
        (found ++ reached.filter fun cell => cell.configuration.isFinal)
        (reached.filter fun cell => !cell.configuration.isFinal) := by
  obtain ⟨reached, carried, holds, taken⟩ := exists_mapM_ok kept fun prediction member =>
    state.exists_execute typed (some.subset member)
  refine ⟨reached, carried, taken, ?_, ?_, ?_, ?_, ?_⟩
  · intro cell member
    rcases List.mem_append.1 member with older | going
    · rcases List.mem_append.1 older with earlier | ended
      · exact state.derived cell (List.mem_append_left _ earlier)
      · exact (holds cell (List.mem_of_mem_filter ended)).1
    · exact (holds cell (List.mem_of_mem_filter going)).1
  · intro cell member
    rcases List.mem_append.1 member with earlier | ended
    · exact state.final cell earlier
    · exact (List.mem_filter.1 ended).2
  · intro cell member
    rcases List.mem_append.1 member with earlier | ended
    · exact Nat.le_succ_of_le (state.early cell earlier)
    · exact Nat.le_of_eq (holds cell (List.mem_of_mem_filter ended)).2
  · exact fun cell member => (holds cell (List.mem_of_mem_filter member)).2
  · have order : (found ++ reached).Perm
        ((found ++ reached.filter fun cell => cell.configuration.isFinal) ++
          reached.filter fun cell => !cell.configuration.isFinal) := by
      rw [List.append_assoc]
      exact (List.filter_append_perm _ reached).symm.append_left found
    refine (order.map Cell.taken).nodup_iff.1 ?_
    rw [List.map_append, taken]
    have foundDistinct := state.distinct
    rw [List.map_append] at foundDistinct
    refine List.nodup_append.2 ⟨(List.nodup_append.1 foundDistinct).1, ?_, ?_⟩
    · obtain ⟨chosen, order, part⟩ := some
      exact (order.map _).nodup_iff.1 ((nodup_takes (Action.nodup_all distinctNames) weighting
        (List.nodup_append.1 foundDistinct).2.1).sublist (part.map _))
    · -- what has been found is shorter than what is reached now
      intro old oldMember new newMember equal
      rw [← taken] at newMember
      obtain ⟨before, beforeMember, rfl⟩ := List.mem_map.1 oldMember
      obtain ⟨after, afterMember, rfl⟩ := List.mem_map.1 newMember
      have lengths := congrArg List.length equal
      rw [Cell.taken, Cell.taken, length_takenIn, length_takenIn,
        (holds after afterMember).2] at lengths
      have short := state.early before beforeMember
      omega

/-- A round that keeps all predictions leaves no derivation out. -/
theorem Covers.next [Add Number] {round : Nat} {found cells : List (Cell Number)}
    (state : BeamState macros words round found cells)
    (covers : Covers macros words round found cells) {weighting : Symbol → Number}
    {kept : List (Prediction Number)} {reached : List (Cell Number)}
    (all : ∀ prediction ∈ cells.flatMap (Cell.predictions (Action.all macros) words weighting),
      prediction ∈ kept)
    (taken : reached.map Cell.taken = kept.map Prediction.takes)
    (reachedState : ∀ cell ∈ reached,
      IsDerivation (Action.all macros) words cell.history cell.configuration) :
    Covers macros words (round + 1)
      (found ++ reached.filter fun cell => cell.configuration.isFinal)
      (reached.filter fun cell => !cell.configuration.isFinal) := by
  have complete : ∀ (history : List (Configuration Number × Action))
      (configuration : Configuration Number),
      IsDerivation (Action.all macros) words history configuration →
      history.length = round + 1 →
      ∃ cell ∈ reached, cell.taken = takenIn history ∧
        cell.configuration.isFinal = configuration.isFinal := by
    intro history configuration derivation length
    cases derivation with
    | start => cases length
    | @step history before _ action score earlier member allowed executed =>
      have going : before.isFinal = false :=
        Bool.eq_false_iff.2 fun final => by
          rw [Configuration.allows_of_isFinal final _ member] at allowed
          cases allowed
      obtain ⟨cell, cellMember, sameTaken⟩ :=
        covers.going history before earlier going (Nat.succ.inj length)
      have cellDerivation := state.derived cell (List.mem_append_right _ cellMember)
      obtain ⟨stack, buffer⟩ := earlier.agrees cellDerivation sameTaken.symm
      obtain ⟨allowedThere, _⟩ :=
        Configuration.step_agrees stack buffer member allowed executed score
      rw [← head?_of_takenIn_eq sameTaken] at allowedThere
      have predicted := all _ (List.mem_flatMap.2 ⟨cell, cellMember,
        Cell.mem_predictions.2 ⟨action, member, allowedThere, rfl⟩⟩)
      obtain ⟨other, otherMember, otherTaken⟩ :=
        List.mem_map.1 (taken ▸ List.mem_map_of_mem (f := Prediction.takes) predicted)
      have same : other.taken = takenIn ((before, action) :: history) := by
        rw [otherTaken, takenIn_cons, ← sameTaken]
        rfl
      refine ⟨other, otherMember, same, ?_⟩
      obtain ⟨stackEnd, bufferEnd⟩ := (reachedState other otherMember).agrees
        (earlier.step member allowed executed) same
      exact Configuration.isFinal_congr stackEnd bufferEnd
  constructor
  · intro history configuration derivation final short
    rcases Nat.le_succ_iff.1 short with earlier | last
    · obtain ⟨cell, member, same⟩ := covers.ended history configuration derivation final earlier
      exact ⟨cell, List.mem_append_left _ member, same⟩
    · obtain ⟨cell, member, same, ends⟩ := complete history configuration derivation last
      exact ⟨cell, List.mem_append_right _ (List.mem_filter.2 ⟨member, ends.trans final⟩), same⟩
  · intro history configuration derivation going last
    obtain ⟨cell, member, same, ends⟩ := complete history configuration derivation last
    refine ⟨cell, List.mem_filter.2 ⟨member, ?_⟩, same⟩
    rw [ends, going]
    rfl

end Rounds

end WordArithmetic
