/-
This file bounds the rounds of a search.

A search goes on as long as its beam holds a cell, and nothing counts the rounds. `Passes` follows it
to its end, be it that the beam is empty or that an action fails. What makes it end is twice the
number of words to come plus the height of the stack: every action makes it smaller, and once a word
has been shifted it cannot become zero. All cells of a beam have taken equally many actions, so a
beam that holds one comes early, and a search never needs as many rounds as it is granted.
-/

import WordArithmetic.Proofs.Search.Width

namespace WordArithmetic

/-! ### The length of a derivation -/

section Length

variable {Number : Type} [Zero Number] {macros : List String} {words : Array Word}
  {history : List (Configuration Number × Action)} {configuration : Configuration Number}

/-- As long as the stack is empty, every step has dropped a word. -/
theorem IsDerivation.length_add_buffer
    (derivation : IsDerivation (Action.all macros) words history configuration)
    (empty : configuration.stack = []) :
    history.length + configuration.buffer.length = words.size := by
  induction derivation with
  | start => simp [Configuration.start]
  | step earlier member allowed executed hypothesis =>
    rcases Configuration.step_cases member allowed executed with
      ⟨name, place, rest, word, type, rfl, _, _, _, _, rfl⟩ |
      ⟨place, rest, rfl, front, _, rfl⟩ |
      ⟨direction, upper, lower, rest, rfl, _, _, rfl⟩
    · cases empty
    · have before := hypothesis empty
      rw [front] at before
      simp only [List.length_cons] at before ⊢
      omega
    · cases empty

/-- A derivation over some words has fewer steps than twice as many, and one that ends with a number
does in any case. -/
theorem IsDerivation.length_lt
    (derivation : IsDerivation (Action.all macros) words history configuration)
    (counts : 0 < words.size ∨ configuration.isFinal = true) :
    history.length < 2 * words.size := by
  cases stack : configuration.stack with
  | nil =>
    have dropped := derivation.length_add_buffer stack
    rcases counts with some | final
    · omega
    · simp [Configuration.isFinal, stack] at final
  | cons top rest =>
    have bound := derivation.length_le
    rw [Configuration.remaining, stack, List.length_cons] at bound
    omega

/-- A beam whose cells hold derivations of one length and that is not empty comes before twice as
many rounds as there are words, or it is the first one. -/
theorem Beam.length_lt_of_ne_nil {beam : List (Cell Number)} {length : Nat} (going : beam ≠ [])
    (derived : ∀ cell ∈ beam, IsDerivation (Action.all macros) words cell.history
      cell.configuration ∧ cell.history.length = length) :
    length < max 1 (2 * words.size) := by
  obtain ⟨cell, member⟩ := List.exists_mem_of_ne_nil beam going
  obtain ⟨derivation, rfl⟩ := derived cell member
  rcases Nat.eq_zero_or_pos words.size with none | some
  · have bound := derivation.length_le
    omega
  · exact (derivation.length_lt (.inl some)).trans_le (le_max_right _ _)

end Length

namespace Beam

variable {Number : Type} [Zero Number] [Add Number] [BEq Number] [LT Number] [DecidableLT Number]

/-! ### Searching without a bound -/

/-- How a search goes on from a beam, with what has been found so far: the number of rounds that it
passes through and what it comes to. The round in which an action fails is the last one. -/
inductive Passes (actions : List Action) (width : Int) (words : Array Word)
    (weighting : Symbol → Number) :
    List (Cell Number) → Found Number → Nat → Except Interrupted (Found Number) → Prop
  | finished (found : Found Number) : Passes actions width words weighting [] found 0 (.ok found)
  | interrupted {beam : List (Cell Number)} {found : Found Number} {failure : Failure}
      (going : beam ≠ [])
      (failed : (kept width (predict actions words weighting beam)).mapM
        (Prediction.execute words) = .error failure) :
      Passes actions width words weighting beam found 1
        (.error ⟨failure, found.untypedShifts +
          Prediction.countUntyped words (kept width (predict actions words weighting beam))⟩)
  | round {beam reached : List (Cell Number)} {found : Found Number} {count : Nat}
      {outcome : Except Interrupted (Found Number)} (going : beam ≠ [])
      (carried : (kept width (predict actions words weighting beam)).mapM
        (Prediction.execute words) = .ok reached)
      (after : Passes actions width words weighting
        (reached.filter fun cell => !cell.configuration.isFinal)
        ⟨found.cells ++ reached.filter fun cell => cell.configuration.isFinal,
          found.exact && !decide (cuts width (predict actions words weighting beam)),
          found.untypedShifts +
            Prediction.countUntyped words (kept width (predict actions words weighting beam))⟩
        count outcome) :
      Passes actions width words weighting beam found (count + 1) outcome

variable {words : Array Word} {weighting : Symbol → Number} {width : Int}

/-- A search that is granted enough rounds comes to what it would come to without a bound. -/
theorem Passes.searchFrom_eq {actions : List Action} {beam : List (Cell Number)}
    {found : Found Number} {count : Nat} {outcome : Except Interrupted (Found Number)}
    (passes : Passes actions width words weighting beam found count outcome) {rounds : Nat}
    (enough : count ≤ rounds) :
    searchFrom actions width words weighting rounds beam found = outcome := by
  induction passes generalizing rounds with
  | finished found => cases rounds <;> rfl
  | @interrupted beam found failure going failed =>
    obtain ⟨first, others, rfl⟩ := List.exists_cons_of_ne_nil going
    obtain ⟨rounds, rfl⟩ := Nat.exists_eq_add_of_le' enough
    rw [searchFrom_cons]
    simp only [failed]
  | @round beam reached found count outcome going carried _ hypothesis =>
    obtain ⟨first, others, rfl⟩ := List.exists_cons_of_ne_nil going
    obtain ⟨rounds, rfl⟩ := Nat.exists_eq_add_of_le' (Nat.le_of_add_left_le enough)
    rw [searchFrom_cons]
    simp only [carried]
    exact hypothesis (by omega)

section Bound

variable {macros : List String}

/-- The rounds that a search passes through from a beam on are over in time. -/
theorem Passes.count_le {beam : List (Cell Number)} {found : Found Number} {count length : Nat}
    {outcome : Except Interrupted (Found Number)}
    (passes : Passes (Action.all macros) width words weighting beam found count outcome)
    (derived : ∀ cell ∈ beam, IsDerivation (Action.all macros) words cell.history
      cell.configuration ∧ cell.history.length = length) :
    count = 0 ∨ length + count ≤ max 1 (2 * words.size) := by
  induction passes generalizing length with
  | finished found => exact .inl rfl
  | interrupted going _ => exact .inr (length_lt_of_ne_nil going derived)
  | @round beam reached found count outcome going carried _ hypothesis =>
    have early := length_lt_of_ne_nil going derived
    have next := derived_reached derived carried
    rcases hypothesis fun cell member => next cell (List.mem_of_mem_filter member) with
      last | later
    · omega
    · omega

/-- The cells that a search finds hold derivations that end. -/
theorem Passes.derived_found {beam : List (Cell Number)} {found result : Found Number}
    {count length : Nat} {outcome : Except Interrupted (Found Number)}
    (passes : Passes (Action.all macros) width words weighting beam found count outcome)
    (derived : ∀ cell ∈ beam, IsDerivation (Action.all macros) words cell.history
      cell.configuration ∧ cell.history.length = length)
    (ended : ∀ cell ∈ found.cells, IsDerivation (Action.all macros) words cell.history
      cell.configuration ∧ cell.configuration.isFinal = true) (ok : outcome = .ok result) :
    ∀ cell ∈ result.cells, IsDerivation (Action.all macros) words cell.history
      cell.configuration ∧ cell.configuration.isFinal = true := by
  induction passes generalizing length with
  | finished found =>
    obtain rfl := Except.ok.inj ok
    exact ended
  | interrupted _ _ => cases ok
  | round _ carried _ hypothesis =>
    have next := derived_reached derived carried
    refine hypothesis (fun cell member => next cell (List.mem_of_mem_filter member))
      (fun cell member => ?_) ok
    rcases List.mem_append.1 member with earlier | reached
    · exact ended cell earlier
    · obtain ⟨among, final⟩ := List.mem_filter.1 reached
      exact ⟨(next cell among).1, final⟩

/-- Whatever is in the beam, a search comes to its end. -/
theorem exists_passes (rounds : Nat) {beam : List (Cell Number)} {length : Nat}
    (found : Found Number)
    (derived : ∀ cell ∈ beam, IsDerivation (Action.all macros) words cell.history
      cell.configuration ∧ cell.history.length = length)
    (enough : max 1 (2 * words.size) ≤ length + rounds) :
    ∃ count outcome,
      Passes (Action.all macros) width words weighting beam found count outcome := by
  induction rounds generalizing beam length found with
  | zero =>
    have empty : beam = [] := by
      by_contra going
      have early := length_lt_of_ne_nil going derived
      omega
    exact ⟨0, .ok found, empty ▸ .finished found⟩
  | succ rounds hypothesis =>
    by_cases empty : beam = []
    · exact ⟨0, .ok found, empty ▸ .finished found⟩
    · cases carried : (kept width (predict (Action.all macros) words weighting beam)).mapM
          (Prediction.execute words) with
      | error failure => exact ⟨1, _, .interrupted empty carried⟩
      | ok reached =>
        have next := derived_reached derived carried
        obtain ⟨count, outcome, passes⟩ := hypothesis _
          (fun cell member => next cell (List.mem_of_mem_filter member)) (by omega)
        exact ⟨count + 1, outcome, .round empty carried passes⟩

end Bound

/-- A search ends, for any meanings, words, weights and width of the beam. Every allowed action makes
twice the number of words to come plus the height of the stack smaller. So a derivation has fewer
steps than twice the number of words, at whatever point it is if there are words and at its end in
any case, as each one that is found; and the rounds that a search passes through, which nothing
bounds but that the beam is empty or an action fails, are twice as many as there are words at most,
or a single one. The search that is granted a number of rounds comes to the same. -/
theorem search_passes (macros : List String) (words : Array Word) (weighting : Symbol → Number)
    (width : Int) :
    let actions := Action.all macros
    (∀ (configuration next : Configuration Number) (previous : Option Action), ∀ action ∈ actions,
      ∀ score, configuration.allows words previous action = true →
        configuration.execute words action score = .ok next →
          next.remaining < configuration.remaining) ∧
    (∀ (history : List (Configuration Number × Action)) (configuration : Configuration Number),
      IsDerivation actions words history configuration →
        (0 < words.size ∨ configuration.isFinal = true) → history.length < 2 * words.size) ∧
    ∃ count outcome,
      Passes actions width words weighting [.start words.size] ⟨[], true, 0⟩ count outcome ∧
        count ≤ max 1 (2 * words.size) ∧ search actions width words weighting = outcome ∧
        ∀ found, outcome = .ok found → ∀ cell ∈ found.cells,
          cell.steps.length < 2 * words.size := by
  intro actions
  refine ⟨fun configuration next previous action member score allowed executed =>
      Configuration.remaining_lt member allowed executed,
    fun history configuration derivation counts => derivation.length_lt counts, ?_⟩
  have derived : ∀ cell ∈ ([Cell.start words.size] : List (Cell Number)),
      IsDerivation actions words cell.history cell.configuration ∧ cell.history.length = 0 := by
    intro cell member
    obtain rfl := List.mem_singleton.1 member
    exact ⟨.start, rfl⟩
  obtain ⟨count, outcome, passes⟩ : ∃ count outcome,
      Passes actions width words weighting [.start words.size] ⟨[], true, 0⟩ count outcome :=
    exists_passes (max 1 (2 * words.size)) ⟨[], true, 0⟩ derived (Nat.le_add_left _ _)
  have bound : count ≤ max 1 (2 * words.size) := by
    rcases passes.count_le derived with none | few
    · omega
    · omega
  refine ⟨count, outcome, passes, bound, passes.searchFrom_eq (by unfold roundBound; omega),
    fun found ok cell member => ?_⟩
  obtain ⟨derivation, final⟩ := passes.derived_found derived (List.forall_mem_nil _) ok cell member
  rw [Cell.steps, List.length_reverse]
  exact derivation.length_lt (.inr final)

end Beam

end WordArithmetic
