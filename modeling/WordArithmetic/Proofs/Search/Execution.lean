/-
This file shows that everything that a search finds can be built, printed and executed.

The terms of the derivations that a search ends with are numbers. A number that is written and
whose indexes stay below the reserved one is reduced to a constant, and the only thing that can
happen to the computation of a constant is a division by zero, which leaves the term undefined.
Every other value is a float that can be rounded. So an execution comes to an evaluation or to
that one reason for having none, and whatever has to be printed on the way can be printed.
-/

import WordArithmetic.Proofs.Forest.Enumeration
import WordArithmetic.Proofs.Lambda.Printing
import WordArithmetic.Proofs.Lambda.Reference
import WordArithmetic.Proofs.Lexicon.Built
import WordArithmetic.Proofs.Number.Places
import WordArithmetic.Proofs.Search.Enumeration
import WordArithmetic.Proofs.Search.Replay

namespace WordArithmetic

/-! ### Evaluation -/

/-- A run to some depth comes to this outcome: with enough depth it is reached, and with less it is
reached as well or the run is reported as too deep. -/
def ComesTo {Outcome : Type} (run : Nat → Outcome) (tooDeep outcome : Outcome) : Prop :=
  Settles run outcome ∧ ∀ depth, run depth = outcome ∨ run depth = tooDeep

/-- What is computed from the outcome of a run. -/
theorem ComesTo.map {Outcome Result : Type} {run : Nat → Outcome} {tooDeep outcome : Outcome}
    (comes : ComesTo run tooDeep outcome) (change : Outcome → Result) :
    ComesTo (fun depth => change (run depth)) (change tooDeep) (change outcome) := by
  obtain ⟨⟨bound, all⟩, each⟩ := comes
  exact ⟨⟨bound, fun depth enough => congrArg change (all depth enough)⟩,
    fun depth => (each depth).imp (congrArg change) (congrArg change)⟩

namespace Term

/-- The evaluation of a written number comes to a float or to a division by zero. -/
theorem Written.evaluates {term : Term} (written : term.Written)
    (typed : term.typecheck = .ok TypeCode.number) (below : term.copy.StaysBelow) :
    (∃ number : Float, ComesTo (fun depth => term.evaluate depth) (.failed .reductionTooDeep)
        (.value (.float number))) ∨
      ComesTo (fun depth => term.evaluate depth) (.failed .reductionTooDeep)
        (.undefined Failure.divisionByZero.message) := by
  obtain ⟨meaning, value, _, reduces, constant, valueIs, fails⟩ := written.reducesTo typed below
  have comes : ∀ outcome, (∀ depth, term.copy.reduce? depth = some value →
      term.evaluate depth = outcome) →
        ComesTo (fun depth => term.evaluate depth) (.failed .reductionTooDeep) outcome := by
    intro outcome found
    obtain ⟨bound, all⟩ := reduces
    refine ⟨⟨bound, fun depth enough => found depth (all depth enough)⟩, fun depth => ?_⟩
    cases reduced : term.copy.reduce? depth with
    | none =>
      right
      show term.evaluate depth = .failed .reductionTooDeep
      rw [evaluate, reduced]
    | some other =>
      obtain rfl := reduce?_unique (all bound (Nat.le_refl _)) reduced
      exact Or.inl (found depth reduced)
  cases means : meaning () with
  | ok number =>
    rw [means] at valueIs
    refine Or.inl ⟨number, comes _ fun depth reduced => ?_⟩
    rw [evaluate, reduced]
    simp only [constant, if_true, valueIs]
    rfl
  | error failure =>
    obtain rfl := fails failure means
    rw [means] at valueIs
    refine Or.inr (comes _ fun depth reduced => ?_)
    rw [evaluate, reduced]
    simp only [constant, if_true, valueIs]
    rfl

end Term

namespace Parser

variable {Number : Type} [Zero Number] [One Number] [Add Number] [Mul Number]

/-- What the execution of a term makes of its evaluation. -/
def afterEvaluation (theta : FeatureVector Number) : Term.Evaluated → Executed Number
  | .failed failure => .failed failure
  | .undefined reason => .undefined reason
  | .value value =>
    match value.toFloat.bind (roundTo resultPlaces) with
    | .error failure => .failed failure
    | .ok result =>
      let features := resultFeatures result
      .evaluation ⟨.float result, theta.dot features, features⟩

theorem execute_eq (depth : Nat) (theta : FeatureVector Number) (term : Term) :
    execute depth theta term = afterEvaluation theta (term.evaluate depth) := by
  rw [execute]
  cases term.evaluate depth with
  | value value => rfl
  | undefined reason => rfl
  | failed failure => rfl

/-- The execution of a term comes to this outcome. -/
def ExecutesTo (theta : FeatureVector Number) (term : Term) (outcome : Executed Number) : Prop :=
  ComesTo (fun depth => execute depth theta term) (.failed .reductionTooDeep) outcome

/-- The execution of a written number comes to an evaluation or to a division by zero. -/
theorem executesTo_of_written (theta : FeatureVector Number) {term : Term}
    (written : term.Written) (typed : term.typecheck = .ok TypeCode.number)
    (below : term.copy.StaysBelow) :
    (∃ evaluation, ExecutesTo theta term (.evaluation evaluation)) ∨
      ExecutesTo theta term (.undefined Failure.divisionByZero.message) := by
  have same : (fun depth => execute depth theta term) =
      fun depth => afterEvaluation theta (term.evaluate depth) :=
    funext fun depth => execute_eq depth theta term
  rw [ExecutesTo, same]
  rcases written.evaluates typed below with ⟨number, comes⟩ | comes
  · obtain ⟨result, rounded⟩ := exists_roundTo 6 number
    refine Or.inl ⟨⟨.float result, theta.dot (resultFeatures result), resultFeatures result⟩, ?_⟩
    have after : afterEvaluation theta (.value (.float number)) =
        .evaluation ⟨.float result, theta.dot (resultFeatures result), resultFeatures result⟩ := by
      have bound : (Value.float number).toFloat.bind (roundTo resultPlaces) = .ok result := rounded
      rw [afterEvaluation, bound]
    rw [← after]
    exact comes.map (afterEvaluation theta)
  · exact Or.inr (comes.map (afterEvaluation theta))

/-! ### What a search finds -/

/-- At every step of a cell the replay agrees with the configuration that the search recorded. -/
def IsReplayed (words : Array Word) (cell : Cell Number) : Prop :=
  ∀ earlier later, cell.steps = earlier ++ later →
    ∃ terms trees, Replays words earlier (configurationBefore later cell.configuration) terms trees

section Cells

variable {macros : List String} {words : Array Word} {cell : Cell Number}

omit [One Number] [Add Number] [Mul Number] in
theorem isReplayed_of_isTyped (written : HaveWrittenTerms words)
    (derivation : IsDerivation (Action.all macros) words cell.history cell.configuration)
    (typed : cell.configuration.IsTyped) : IsReplayed words cell := by
  intro earlier later split
  rw [← List.reverse_reverse cell.history, ← Cell.steps, split] at derivation
  obtain ⟨passed, passedTyped⟩ := derivation.passes typed
  have replays := passed.replays written passedTyped
  rw [List.reverse_reverse] at replays
  exact replays

/-- The replay of a cell ends with one term, that of the tree which is read off its steps, and the
term is a written number. -/
def EndsWithNumber (words : Array Word) (cell : Cell Number) (term : Term) : Prop :=
  replayTerms words cell.steps = .ok [term] ∧ term.Written ∧
    term.typecheck = .ok TypeCode.number ∧
    ∃ tree, ParseTree.ofSteps? cell.steps = some tree ∧ tree.term? words = some term

omit [One Number] [Add Number] [Mul Number] in
/-- A derivation that ends with one number is replayed to the end, where there is one term, which
is a number. -/
theorem exists_endsWithNumber (written : HaveWrittenTerms words)
    (derivation : IsDerivation (Action.all macros) words cell.history cell.configuration)
    (final : cell.configuration.isFinal = true) :
    IsReplayed words cell ∧ ∃ term, EndsWithNumber words cell term := by
  obtain ⟨element, only, number⟩ := Configuration.exists_only_of_isFinal final
  have typed : cell.configuration.IsTyped := by
    intro other member
    rw [only] at member
    rw [List.mem_singleton.1 member, number]
    decide
  refine ⟨isReplayed_of_isTyped written derivation typed, ?_⟩
  obtain ⟨terms, trees, replays⟩ := derivation.replays written typed
  obtain ⟨built, readOff, termsWritten, meanings, types, heads⟩ := replays
  rw [only] at types heads
  obtain ⟨term, rest, termTyped, restTypes, rfl⟩ := List.forall₂_cons_right_iff.1 types
  obtain rfl := List.forall₂_nil_right_iff.1 restTypes
  obtain ⟨tree, restTrees, _, restHeads, rfl⟩ := List.forall₂_cons_right_iff.1 heads
  obtain rfl := List.forall₂_nil_right_iff.1 restHeads
  refine ⟨term, built, termsWritten term List.mem_cons_self, number ▸ termTyped, tree, ?_,
    (List.forall₂_cons.1 meanings).1⟩
  rw [ParseTree.ofSteps?, Cell.steps, readOff]

/-- The derivation of a cell whose replay ends with one term. -/
theorem derivation_eq [BEq Number] {term : Term}
    (built : replayTerms words cell.steps = .ok [term]) :
    derivation words cell = .ok ⟨LatentForm.ofTerm term, cell.configuration.score,
      Configuration.featurize words cell.steps⟩ := by
  have formed : Configuration.logicalForm words cell.steps = .ok term := by
    rw [replayTerms] at built
    rw [Configuration.logicalForm, built]
    rfl
  rw [derivation, formed]
  rfl

end Cells

section Parsing

variable [BEq Number] [LT Number] [DecidableLT Number]

/-- If the cells that a search finds have derivations, a question has a forest. -/
theorem parseBase_eq {parser : Parser} {words : Array Word} {theta : FeatureVector Number}
    {found : Found Number} {derivations : List (Derivation LatentForm Number)}
    (searched : Beam.search parser.actions parser.width words theta.weight = .ok found)
    (built : found.cells.mapM (derivation words) = .ok derivations) :
    parser.parseBase words theta = .ok (⟨derivations, found.exact⟩, found.untypedShifts) := by
  have weighting : (fun key => theta.index.getD key 0) = theta.weight :=
    funext theta.getD_index
  unfold parseBase
  simp only [weighting]
  rw [searched]
  simp only [bind, Except.bind, built]
  rfl

variable [LogScore Number]

/-- For words that a lexicon of typed terms, built over the session of arithmetic, cuts questions
into, whatever the model and the width of the beam: the search ends, and the replay of each of the
cells that it finds agrees with all the configurations of the cell and ends with one term, which is
a number. The derivations of these cells are the forest of the question. Their forms, which are
those of its parses, can be printed, and the execution of a form comes to an evaluation or to a
division by zero, as long as no index reaches the reserved one. -/
theorem finds_executable_numbers {lexicon : Lexicon} (built : lexicon.Built Session.arithmetic)
    (typed : lexicon.IsTyped) (width : Int) {words : Array Word} (cuts : lexicon.Cuts words)
    (theta : FeatureVector Number) :
    let parser := ofLexicon lexicon width
    ∃ (found : Found Number) (forest : ParseForest LatentForm Number),
      Beam.search parser.actions parser.width words theta.weight = .ok found ∧
        parser.parseBase words theta = .ok (forest, found.untypedShifts) ∧
        found.cells.mapM (derivation words) = .ok forest.derivations ∧
        (∀ cell ∈ found.cells, IsReplayed words cell ∧ ∃ term, EndsWithNumber words cell term) ∧
        (∀ parse ∈ forest.parses, ∃ derivation ∈ forest.derivations,
          derivation.form = parse.form) ∧
        ∀ derivation ∈ forest.derivations,
          derivation.form.term.print = .ok derivation.form.printed ∧
            (derivation.form.term.copy.StaysBelow →
              (∃ evaluation, ExecutesTo theta derivation.form.term (.evaluation evaluation)) ∨
                ExecutesTo theta derivation.form.term
                  (.undefined Failure.divisionByZero.message)) := by
  intro parser
  have areTyped : AreTyped words :=
    fun word member name has => cuts.exists_logicalType typed member has
  have written : HaveWrittenTerms words :=
    fun word member name term found => built.written Session.IsWritten.arithmetic cuts member found
  obtain ⟨found, searched, harvest⟩ :=
    Beam.exists_search areTyped lexicon.nodup_macros width theta.weight
  have replayed : ∀ cell ∈ found.cells, IsReplayed words cell ∧
      ∃ term, EndsWithNumber words cell term :=
    fun cell member => exists_endsWithNumber written (harvest.derived cell member)
      (harvest.final cell member)
  have each : ∀ cell ∈ found.cells, ∃ made, derivation words cell = .ok made := by
    intro cell member
    obtain ⟨_, term, replay, _⟩ := replayed cell member
    exact ⟨_, derivation_eq replay⟩
  obtain ⟨derivations, mapped⟩ := exists_mapM each
  refine ⟨found, ⟨derivations, found.exact⟩, searched, parseBase_eq searched mapped, mapped,
    replayed, fun parse member => ParseForest.exists_form_eq member, fun made member => ?_⟩
  obtain ⟨cell, cellMember, derived⟩ := exists_of_mem_mapM mapped made member
  obtain ⟨_, term, replay, termWritten, termTyped, _⟩ := replayed cell cellMember
  rw [derivation_eq replay] at derived
  obtain rfl := Except.ok.inj derived
  exact ⟨termWritten.print_eq, executesTo_of_written theta termWritten termTyped⟩

end Parsing

end Parser

/-! ### A question about half of a number -/

/-- The lexicon of arithmetic questions. -/
def arithmeticLexicon : Lexicon :=
  Lexicon.default.toOption.getD (Lexicon.empty Session.arithmetic)

/-- The words of a question about half of a number. -/
def halfWords : Array Word :=
  (arithmeticLexicon.words "What is half of 7?").toArray

/-- The tree in which the function is applied to the number. -/
def halfTree : ParseTree :=
  .node .forward (.leaf 2 "HALF") (.leaf 4 "NUM")

/-- A model without weights. -/
def noWeights : FeatureVector Scalar :=
  FeatureVector.zero

theorem built_arithmeticLexicon : arithmeticLexicon.Built Session.arithmetic := by
  have made : Lexicon.default.toBool = true := by decide +kernel
  unfold arithmeticLexicon
  cases lexicon : Lexicon.default with
  | error failure =>
    rw [lexicon] at made
    cases made
  | ok found => exact Lexicon.built_ofLines lexicon

theorem isTyped_arithmeticLexicon : arithmeticLexicon.IsTyped :=
  Lexicon.isTyped_of_checksTypes (by decide +kernel)

theorem cuts_halfWords : arithmeticLexicon.Cuts halfWords :=
  fun _ member => ⟨_, List.mem_toArray.1 member⟩

theorem isParse_halfTree : halfTree.IsParse halfWords where
  increasing := by decide
  isNumber := by decide +kernel

/-- The term of the tree stays below the reserved index when it is reduced. -/
theorem staysBelow_halfTree :
    ∃ term, halfTree.term? halfWords = some term ∧ term.copy.StaysBelow := by
  have checked : (halfTree.term? halfWords).any (fun term => term.copy.checksBelow 20) = true := by
    decide +kernel
  obtain ⟨term, found, below⟩ := (Option.any_eq_true _ _).1 checked
  exact ⟨term, found, Term.staysBelow_of_checksBelow below⟩

theorem length_actions_arithmeticLexicon :
    (Action.all arithmeticLexicon.macros).length = 11 := by
  have macros : arithmeticLexicon.macros.length = 8 := by
    rw [Lexicon.macros, (List.mergeSort_perm _ _).length_eq]
    decide +kernel
  rw [Action.all, List.length_append, List.length_map, macros]
  rfl

/-- In a beam that has room for everything the question is parsed with this tree among others, and
its term is executed. -/
theorem Parser.finds_executable_numbers_half :
    arithmeticLexicon.Built Session.arithmetic ∧ arithmeticLexicon.IsTyped ∧
      arithmeticLexicon.Cuts halfWords ∧
      ∃ (forest : ParseForest LatentForm Scalar) (untypedShifts : Nat),
        (ofLexicon arithmeticLexicon (10 ^ 14)).parseBase halfWords noWeights =
            .ok (forest, untypedShifts) ∧
          ∃ derivation ∈ forest.derivations,
            halfTree.term? halfWords = some derivation.form.term ∧
              derivation.form.term.copy.StaysBelow ∧
              ((∃ evaluation,
                  ExecutesTo noWeights derivation.form.term (.evaluation evaluation)) ∨
                ExecutesTo noWeights derivation.form.term
                  (.undefined Failure.divisionByZero.message)) := by
  refine ⟨built_arithmeticLexicon, isTyped_arithmeticLexicon, cuts_halfWords, ?_⟩
  obtain ⟨found, forest, searched, parsed, mapped, ends, _, forms⟩ :=
    finds_executable_numbers built_arithmeticLexicon isTyped_arithmeticLexicon (10 ^ 14)
      cuts_halfWords noWeights
  obtain ⟨same, searchedSame, harvest⟩ := Beam.exists_search
    (fun word member name has =>
      cuts_halfWords.exists_logicalType isTyped_arithmeticLexicon member has)
    arithmeticLexicon.nodup_macros (10 ^ 14) noWeights.weight
  obtain rfl := Except.ok.inj (searchedSame.symm.trans searched)
  have exact : same.exact = true := by
    refine Beam.exact_of_wide ?_ searchedSame rfl ?_
    · rw [length_actions_arithmeticLexicon]
      decide
    · have size : halfWords.size = 6 := by decide +kernel
      rw [length_actions_arithmeticLexicon, size]
      decide
  obtain ⟨cell, member, readOff⟩ := harvest.exists_cell
    (fun word wordMember name has => cuts_halfWords.mem_macros wordMember has) exact
    isParse_halfTree
  obtain ⟨_, term, replay, _, _, tree, readSame, meaning⟩ := ends cell member
  obtain rfl := Option.some.inj (readSame.symm.trans readOff)
  obtain ⟨derivation, derivationMember, derived⟩ := exists_result_of_mapM mapped cell member
  rw [derivation_eq replay] at derived
  obtain rfl := Except.ok.inj derived
  obtain ⟨known, knownMeaning, below⟩ := staysBelow_halfTree
  obtain rfl := Option.some.inj (knownMeaning.symm.trans meaning)
  exact ⟨forest, _, parsed, _, derivationMember, meaning, below,
    (forms _ derivationMember).2 below⟩

end WordArithmetic
