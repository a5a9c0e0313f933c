/-
This file shows what a search finds: the trees that parse the question, each of them once.

A round leads from one state of the beam to the next, and the rounds last until the beam is empty,
so the two invariants of the beam hold when the search is over. What they say about sequences of
actions is then read as a statement about trees, since a derivation and its tree determine each
other. Pruning loses trees and is the only thing that does; it never makes one appear twice.
-/

import Mathlib.Algebra.Group.Nat.Defs
import WordArithmetic.Proofs.Lexicon.Macros
import WordArithmetic.Proofs.Search.Beam
import WordArithmetic.Search.Parser

namespace WordArithmetic

/-! ### What is carried out in a round -/

section Pruning

variable {Number : Type}

/-- Whether a round has more predictions than the beam is wide. -/
def Beam.cuts (width : Int) (predictions : List (Prediction Number)) : Prop :=
  (predictions.length : Int) > width

instance (width : Int) (predictions : List (Prediction Number)) :
    Decidable (Beam.cuts width predictions) :=
  inferInstanceAs (Decidable ((predictions.length : Int) > width))

/-- The predictions of a round that are carried out. -/
def Beam.kept (width : Int) (predictions : List (Prediction Number)) :
    List (Prediction Number) :=
  if Beam.cuts width predictions then Prediction.prune width predictions else predictions

theorem Beam.kept_sublist (width : Int) (predictions : List (Prediction Number)) :
    (Beam.kept width predictions).Sublist predictions := by
  unfold kept Prediction.prune
  split
  · split
    · exact List.take_sublist _ _
    · exact List.take_sublist _ _
  · exact List.Sublist.refl _

/-- The cells that a round reaches are those that end there and those that go on. -/
theorem BeamState.derived_reached [Zero Number] {macros : List String} {words : Array Word}
    {round : Nat} {found reached : List (Cell Number)}
    (state : BeamState macros words round
      (found ++ reached.filter fun cell => cell.configuration.isFinal)
      (reached.filter fun cell => !cell.configuration.isFinal)) :
    ∀ cell ∈ reached, IsDerivation (Action.all macros) words cell.history cell.configuration := by
  intro cell member
  refine state.derived cell ?_
  cases ends : cell.configuration.isFinal with
  | true =>
    exact List.mem_append_left _ (List.mem_append_right _ (List.mem_filter.2 ⟨member, ends⟩))
  | false =>
    refine List.mem_append_right _ (List.mem_filter.2 ⟨member, ?_⟩)
    rw [ends]
    rfl

end Pruning

/-! ### The end of a search -/

/-- What holds of the cells that a search has found when it is over: they hold derivations that end
with one number, no two with the same actions, and all of them unless something was pruned. -/
structure IsHarvest {Number : Type} [Zero Number] (macros : List String) (words : Array Word)
    (found : Found Number) : Prop where
  derived : ∀ cell ∈ found.cells,
    IsDerivation (Action.all macros) words cell.history cell.configuration
  final : ∀ cell ∈ found.cells, cell.configuration.isFinal = true
  distinct : (found.cells.map Cell.taken).Nodup
  complete : found.exact = true →
    ∀ (history : List (Configuration Number × Action)) (configuration : Configuration Number),
      IsDerivation (Action.all macros) words history configuration →
        configuration.isFinal = true → ∃ cell ∈ found.cells, cell.taken = takenIn history

section Search

variable {Number : Type} [Zero Number] {macros : List String} {words : Array Word}

/-- When the beam is empty, nothing is left to be found. -/
theorem BeamState.isHarvest {round : Nat} {found : Found Number}
    (state : BeamState macros words round found.cells [])
    (covers : found.exact = true → Covers macros words round found.cells []) :
    IsHarvest macros words found where
  derived := fun cell member => state.derived cell (List.mem_append_left _ member)
  final := state.final
  distinct := by
    have distinct := state.distinct
    rw [List.append_nil] at distinct
    exact distinct
  complete := by
    intro exact history configuration derivation final
    rcases Nat.lt_or_ge round history.length with longer | short
    · obtain ⟨start, before, earlier, length, going⟩ := derivation.exists_earlier longer
      obtain ⟨cell, member, _⟩ := (covers exact).going start before earlier going length
      cases member
    · exact (covers exact).ended history configuration derivation final short

/-- After twice as many rounds as there are words the beam is empty. -/
theorem BeamState.eq_nil {round : Nat} {found cells : List (Cell Number)}
    (state : BeamState macros words round found cells) (late : 2 * words.size < round) :
    cells = [] := by
  refine List.eq_nil_iff_forall_not_mem.2 fun cell member => ?_
  have bound := (state.derived cell (List.mem_append_right _ member)).length_le
  have level := state.level cell member
  omega

/-! ### Derivations as trees -/

/-- The cells of a harvest are read as trees that parse the question, whose actions are those of
the cells. -/
theorem exists_trees {cells : List (Cell Number)}
    (derived : ∀ cell ∈ cells,
      IsDerivation (Action.all macros) words cell.history cell.configuration)
    (final : ∀ cell ∈ cells, cell.configuration.isFinal = true) :
    ∃ trees : List ParseTree,
      cells.map (fun cell => ParseTree.ofSteps? cell.steps) = trees.map some ∧
        (∀ tree ∈ trees, tree.IsParse words) ∧
        cells.map Cell.taken = trees.map fun tree => ParseTree.stackActions words.size [tree] := by
  induction cells with
  | nil => exact ⟨[], rfl, nofun, rfl⟩
  | cons cell rest hypothesis =>
    obtain ⟨tree, readOff, parse, actions⟩ :=
      (derived cell List.mem_cons_self).exists_tree (final cell List.mem_cons_self)
    obtain ⟨trees, readAll, parses, actionsAll⟩ :=
      hypothesis (fun other member => derived other (List.mem_cons_of_mem _ member))
        fun other member => final other (List.mem_cons_of_mem _ member)
    refine ⟨tree :: trees, ?_, List.forall_mem_cons.2 ⟨parse, parses⟩, ?_⟩
    · rw [List.map_cons, List.map_cons, readAll]
      exact congrArg (· :: _) readOff
    · rw [List.map_cons, List.map_cons, actionsAll]
      exact congrArg (· :: _) actions

/-- Trees that parse a question are told apart by their actions. -/
theorem ParseTree.IsParse.eq_of_stackActions_eq {left right : ParseTree}
    (leftParse : left.IsParse words) (rightParse : right.IsParse words)
    (same : stackActions words.size [left] = stackActions words.size [right]) : left = right :=
  ParseTree.eq_of_stackActions_eq leftParse.increasing rightParse.increasing
    (fun _ member => lt_size_of_mem_positions leftParse.isNumber member)
    (fun _ member => lt_size_of_mem_positions rightParse.isNumber member) same

/-- If nothing was pruned, every tree that parses the question is read off a cell. -/
theorem IsHarvest.exists_cell {found : Found Number} (harvest : IsHarvest macros words found)
    (known : ∀ word ∈ words, ∀ name, word.meanings.contains name = true → name ∈ macros)
    (exact : found.exact = true) {tree : ParseTree} (parse : tree.IsParse words) :
    ∃ cell ∈ found.cells, ParseTree.ofSteps? cell.steps = some tree := by
  obtain ⟨history, configuration, derivation, final, taken⟩ :=
    @ParseTree.IsParse.exists_derivation Number _ _ _ known _ parse
  obtain ⟨cell, member, same⟩ := harvest.complete exact history configuration derivation final
  obtain ⟨other, readOff, otherParse, otherTaken⟩ :=
    (harvest.derived cell member).exists_tree (harvest.final cell member)
  have equal : other = tree :=
    otherParse.eq_of_stackActions_eq parse (otherTaken.symm.trans (same.trans taken))
  exact ⟨cell, member, equal ▸ readOff⟩

/-! ### The rounds of a search -/

variable [Add Number] [BEq Number] [LT Number] [DecidableLT Number]

/-- What a round makes of a beam that is not empty. -/
theorem Beam.searchFrom_cons (actions : List Action) (width : Int)
    (weighting : Symbol → Number) (rounds : Nat) (first : Cell Number)
    (others : List (Cell Number)) (found : Found Number) :
    searchFrom actions width words weighting (rounds + 1) (first :: others) found =
      let predictions := predict actions words weighting (first :: others)
      let untypedShifts :=
        found.untypedShifts + Prediction.countUntyped words (kept width predictions)
      match (kept width predictions).mapM (Prediction.execute words) with
      | .error failure => .error ⟨failure, untypedShifts⟩
      | .ok reached =>
        searchFrom actions width words weighting rounds
          (reached.filter fun cell => !cell.configuration.isFinal)
          ⟨found.cells ++ reached.filter fun cell => cell.configuration.isFinal,
            found.exact && !decide (cuts width predictions), untypedShifts⟩ := by
  rw [searchFrom]
  simp only [List.partition_eq_filter_filter]
  rfl

/-- A search that goes on from a beam carries out what its first round keeps, and goes on from
there. -/
theorem Beam.exists_reached {actions : List Action} {width : Int} {weighting : Symbol → Number}
    {rounds : Nat} {first : Cell Number} {others : List (Cell Number)} {found result : Found Number}
    (searched : searchFrom actions width words weighting (rounds + 1) (first :: others) found =
      .ok result) :
    let predictions := predict actions words weighting (first :: others)
    ∃ reached, (kept width predictions).mapM (Prediction.execute words) = .ok reached ∧
      searchFrom actions width words weighting rounds
        (reached.filter fun cell => !cell.configuration.isFinal)
        ⟨found.cells ++ reached.filter fun cell => cell.configuration.isFinal,
          found.exact && !decide (cuts width predictions),
          found.untypedShifts + Prediction.countUntyped words (kept width predictions)⟩ =
        .ok result := by
  intro predictions
  rw [searchFrom_cons] at searched
  simp only at searched
  split at searched
  · cases searched
  · rename_i reached carried
    exact ⟨reached, carried, searched⟩

/-- Every cell that a round reaches comes from a cell of the beam by an allowed action. -/
theorem Beam.exists_of_mem_reached {actions : List Action} {width : Int}
    {weighting : Symbol → Number} {cells reached : List (Cell Number)}
    (carried : (kept width (predict actions words weighting cells)).mapM
      (Prediction.execute words) = .ok reached) {next : Cell Number} (member : next ∈ reached) :
    ∃ cell ∈ cells, ∃ action ∈ actions,
      cell.configuration.allows words cell.lastAction action = true ∧
      (cell.prediction weighting (cell.configuration.observations words) action).execute words =
        .ok next := by
  obtain ⟨prediction, predicted, executed⟩ := exists_of_mem_mapM carried next member
  have among := (predict_perm actions words weighting cells).mem_iff.1
    ((kept_sublist width _).mem predicted)
  obtain ⟨cell, cellMember, ofCell⟩ := List.mem_flatMap.1 among
  obtain ⟨action, actionMember, allowed, rfl⟩ := Cell.mem_predictions.1 ofCell
  exact ⟨cell, cellMember, action, actionMember, allowed, executed⟩

/-- Searching on from a beam in order ends with a harvest, if rounds enough are left. -/
theorem Beam.exists_searchFrom (typed : AreTyped words) (distinctNames : macros.Nodup)
    (width : Int) (weighting : Symbol → Number) {rounds round : Nat} {found : Found Number}
    {cells : List (Cell Number)} (state : BeamState macros words round found.cells cells)
    (covers : found.exact = true → Covers macros words round found.cells cells)
    (enough : 2 * words.size < round + rounds) :
    ∃ result, searchFrom (Action.all macros) width words weighting rounds cells found = .ok result ∧
      IsHarvest macros words result := by
  induction rounds generalizing round found cells with
  | zero =>
    obtain rfl := state.eq_nil enough
    exact ⟨found, rfl, state.isHarvest covers⟩
  | succ rounds hypothesis =>
    match cells with
    | [] => exact ⟨found, rfl, state.isHarvest covers⟩
    | first :: others =>
      have order := predict_perm (Action.all macros) words weighting (first :: others)
      obtain ⟨reached, carried, taken, after⟩ := state.next typed distinctNames
        ((kept_sublist width _).subperm.trans order.subperm)
      rw [searchFrom_cons]
      simp only [carried]
      refine hypothesis after (fun exact => ?_) (by omega)
      obtain ⟨exactBefore, whole⟩ := (Bool.and_eq_true _ _).mp exact
      have uncut : ¬ cuts width (predict (Action.all macros) words weighting (first :: others)) := by
        simpa using whole
      have all : ∀ prediction ∈ (first :: others).flatMap
          (Cell.predictions (Action.all macros) words weighting),
          prediction ∈ kept width (predict (Action.all macros) words weighting (first :: others)) := by
        intro prediction member
        rw [kept, if_neg uncut]
        exact order.mem_iff.2 member
      exact (covers exactBefore).next state all taken after.derived_reached

/-- A search ends, and it ends with a harvest. -/
theorem Beam.exists_search (typed : AreTyped words) (distinctNames : macros.Nodup) (width : Int)
    (weighting : Symbol → Number) :
    ∃ found, search (Action.all macros) width words weighting = .ok found ∧
      IsHarvest macros words found := by
  refine exists_searchFrom typed distinctNames width weighting BeamState.start
    (fun _ => Covers.start) ?_
  rw [roundBound, Nat.zero_add]
  exact Nat.lt_succ_self _

/-! ### Wide beams -/

omit [BEq Number] [LT Number] [DecidableLT Number] in
/-- A round has at most as many predictions for every cell as there are actions. -/
theorem Beam.length_predictions_le (actions : List Action)
    (weighting : Symbol → Number) (cells : List (Cell Number)) :
    (cells.flatMap (Cell.predictions actions words weighting)).length ≤
      cells.length * actions.length := by
  induction cells with
  | nil => exact Nat.zero_le _
  | cons first rest hypothesis =>
    have here : (Cell.predictions actions words weighting first).length ≤ actions.length := by
      rw [Cell.predictions, List.length_map]
      exact List.length_filter_le _ _
    rw [List.flatMap_cons, List.length_append, List.length_cons, Nat.succ_mul, Nat.add_comm]
    exact Nat.add_le_add hypothesis here

/-- A beam that has room for all sequences of actions prunes nothing. -/
theorem Beam.exact_of_wide {actions : List Action} (some : 0 < actions.length) {width : Int}
    {weighting : Symbol → Number} {rounds : Nat} {cells : List (Cell Number)}
    {found result : Found Number}
    (searched : searchFrom actions width words weighting rounds cells found = .ok result)
    (exact : found.exact = true)
    (wide : ((cells.length * actions.length ^ rounds : Nat) : Int) ≤ width) :
    result.exact = true := by
  induction rounds generalizing cells found with
  | zero =>
    obtain rfl := Except.ok.inj searched
    exact exact
  | succ rounds hypothesis =>
    cases cells with
    | nil =>
      obtain rfl := Except.ok.inj searched
      exact exact
    | cons first others =>
      have fits : (predict actions words weighting (first :: others)).length ≤
          (first :: others).length * actions.length := by
        rw [(predict_perm actions words weighting (first :: others)).length_eq]
        exact length_predictions_le actions weighting _
      have more : (first :: others).length * actions.length * actions.length ^ rounds =
          (first :: others).length * actions.length ^ (rounds + 1) := by
        rw [Nat.mul_assoc, Nat.pow_succ']
      have room : (predict actions words weighting (first :: others)).length *
          actions.length ^ rounds ≤ (first :: others).length * actions.length ^ (rounds + 1) :=
        more ▸ Nat.mul_le_mul_right _ fits
      have uncut : ¬ cuts width (predict actions words weighting (first :: others)) := by
        have grows := Nat.le_mul_of_pos_right
          (predict actions words weighting (first :: others)).length
          (Nat.pow_pos some : 0 < actions.length ^ rounds)
        unfold cuts
        omega
      obtain ⟨reached, carried, later⟩ := exists_reached searched
      refine hypothesis later ?_ ?_
      · simp only [uncut, exact, decide_false, Bool.not_false, Bool.and_true]
      · have count := (forall₂_of_mapM carried).length_eq
        have fewer := (kept_sublist width
          (predict actions words weighting (first :: others))).length_le
        have going := List.length_filter_le
          (fun cell : Cell Number => !cell.configuration.isFinal) reached
        have narrower := Nat.mul_le_mul_right (actions.length ^ rounds)
          (Nat.le_trans going (count ▸ fewer))
        omega

/-! ### What a search finds -/

/-- For words whose meanings have types and are known to the parser, whatever the weights and the
width of the beam: a search ends, each of the cells that it finds holds a derivation that ends with
one number, and they are read as different trees that parse the question. If nothing was pruned
these are all such trees. -/
theorem search_enumerates_parses (lexicon : Lexicon) (width : Int) {words : Array Word}
    (weighting : Symbol → Number)
    (known : ∀ word ∈ words, ∀ name, word.meanings.contains name = true → name ∈ lexicon.macros)
    (typed : AreTyped words) :
    let parser := Parser.ofLexicon lexicon width
    ∃ found, Beam.search parser.actions parser.width words weighting = .ok found ∧
      (∀ cell ∈ found.cells,
        IsDerivation parser.actions words cell.history cell.configuration ∧
          cell.configuration.isFinal = true) ∧
      ∃ trees : List ParseTree,
        found.cells.map (fun cell => ParseTree.ofSteps? cell.steps) = trees.map some ∧
          (∀ tree ∈ trees, tree.IsParse words) ∧ trees.Nodup ∧
          (found.exact = true → ∀ tree : ParseTree, tree.IsParse words → tree ∈ trees) := by
  intro parser
  obtain ⟨found, searched, harvest⟩ :=
    Beam.exists_search typed lexicon.nodup_macros width weighting
  obtain ⟨trees, readOff, parses, actions⟩ := exists_trees harvest.derived harvest.final
  refine ⟨found, searched, fun cell member => ⟨harvest.derived cell member,
    harvest.final cell member⟩, trees, readOff, parses, ?_, ?_⟩
  · have distinct := harvest.distinct
    rw [actions] at distinct
    exact List.Nodup.of_map _ distinct
  · intro exact tree parse
    obtain ⟨history, configuration, derivation, final, taken⟩ :=
      @ParseTree.IsParse.exists_derivation Number _ _ _ known _ parse
    obtain ⟨cell, member, same⟩ := harvest.complete exact history configuration derivation final
    obtain ⟨other, otherMember, otherActions⟩ :=
      List.mem_map.1 (actions ▸ List.mem_map_of_mem (f := Cell.taken) member)
    have equal : other = tree :=
      (parses other otherMember).eq_of_stackActions_eq parse
        (otherActions.trans (same.trans taken))
    exact equal ▸ otherMember

end Search

/-- A lexicon of one word, with the sum as its meaning. -/
def plusLexicon : Lexicon :=
  ⟨Session.arithmetic,
    Table.ofList [("plus", Table.ofList [("PLUS", some Operator.addition.external.term)])],
    ["plus"]⟩

theorem exists_typecheck_plusLexicon :
    ∀ meanings ∈ plusLexicon.phrases.values, ∀ name term,
      meanings.get? name = some (some term) → ∃ type, term.typecheck = .ok type := by
  intro meanings member name term found
  have only : plusLexicon.phrases.values =
      [Table.ofList [("PLUS", some Operator.addition.external.term)]] := rfl
  rw [only, List.mem_singleton] at member
  rw [member, Table.ofList, Table.insertAll, List.foldl_cons, List.foldl_nil, Table.get?_insert]
    at found
  split at found
  · obtain rfl := Option.some.inj (Option.some.inj found)
    exact ⟨_, rfl⟩
  · cases found

/-- The words of a sum, cut by that lexicon. -/
def plusWords : Array Word :=
  (plusLexicon.words "What is 2 plus 3 plus 4?").toArray

/-- The search for the parses of a sum by a model without weights. -/
theorem search_enumerates_parses_plus :
    (∀ word ∈ plusWords, ∀ name, word.meanings.contains name = true →
      name ∈ plusLexicon.macros) ∧
    AreTyped plusWords ∧
    ∃ found, Beam.search (Parser.ofLexicon plusLexicon 100).actions 100 plusWords
        (fun _ => (0 : Scalar)) = .ok found ∧
      ∃ trees : List ParseTree,
        found.cells.map (fun cell => ParseTree.ofSteps? cell.steps) = trees.map some ∧
          (∀ tree ∈ trees, tree.IsParse plusWords) ∧ trees.Nodup ∧
          (found.exact = true → ∀ tree : ParseTree, tree.IsParse plusWords → tree ∈ trees) := by
  have known : ∀ word ∈ plusWords, ∀ name, word.meanings.contains name = true →
      name ∈ plusLexicon.macros :=
    fun word member name has => Lexicon.mem_macros_of_contains (List.mem_toArray.1 member) has
  have typed : AreTyped plusWords :=
    fun word member name has =>
      Lexicon.exists_logicalType exists_typecheck_plusLexicon (List.mem_toArray.1 member) has
  obtain ⟨found, searched, _, trees, readOff, parses, distinct, complete⟩ :=
    search_enumerates_parses plusLexicon 100 (fun _ => (0 : Scalar)) known typed
  exact ⟨known, typed, found, searched, trees, readOff, parses, distinct, complete⟩

end WordArithmetic
