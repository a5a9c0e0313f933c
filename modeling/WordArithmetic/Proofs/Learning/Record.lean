/-
This file says what an item leaves behind in the progress of a learner.

An item is either skipped for a reason or it moves the weights. `Skips` and `Moves` say everything
about the weights, the number of updates and the statistics of every epoch in the two cases, and
`Progress.skips_carryOut` and `Progress.moves_carryOut` show that carrying out a decision does just
that, whatever is reported and remembered beside it.
-/

import WordArithmetic.Learning.Learner
import WordArithmetic.Proofs.FeatureVector
import WordArithmetic.Proofs.Score

namespace WordArithmetic

/-! ### Statistics -/

namespace Record

/-- The numbers that are listed are those of the list. -/
theorem mem_distinct {numbers : List Int} {number : Int} :
    number ∈ distinct numbers ↔ number ∈ numbers := by
  rw [distinct, (List.mergeSort_perm _ _).mem_iff, List.mem_eraseDups]

/-- An item is listed with a mark in an epoch if the mark was set at its place. -/
theorem mem_items {record : Record} {mark : Mark} {epoch item : Int} :
    item ∈ record.items mark epoch ↔ (⟨epoch, item⟩, mark) ∈ record := by
  rw [items, mem_distinct, List.mem_map]
  constructor
  · rintro ⟨⟨place, other⟩, member, rfl⟩
    obtain ⟨inside, same⟩ := List.mem_filter.1 member
    obtain ⟨here, equal⟩ := (Bool.and_eq_true _ _).mp same
    rw [← beq_iff_eq.1 here, ← beq_iff_eq.1 equal]
    exact inside
  · intro member
    refine ⟨(⟨epoch, item⟩, mark), List.mem_filter.2 ⟨member, ?_⟩, rfl⟩
    exact (Bool.and_eq_true _ _).mpr ⟨beq_self_eq_true epoch, beq_self_eq_true mark⟩

/-- A record with further marks. -/
def add (record : Record) (place : Place) (marks : List Mark) : Record :=
  (marks.map fun mark => (place, mark)).reverse ++ record

theorem mem_add {record : Record} {place other : Place} {marks : List Mark} {mark : Mark} :
    (other, mark) ∈ record.add place marks ↔
      (other = place ∧ mark ∈ marks) ∨ (other, mark) ∈ record := by
  rw [add, List.mem_append, List.mem_reverse, List.mem_map]
  constructor
  · rintro (⟨set, member, same⟩ | old)
    · obtain ⟨rfl, rfl⟩ := Prod.mk.inj same
      exact Or.inl ⟨rfl, member⟩
    · exact Or.inr old
  · rintro (⟨rfl, member⟩ | old)
    · exact Or.inl ⟨mark, member, rfl⟩
    · exact Or.inr old

/-- Marks that are set at the same place one after the other are set together. -/
theorem add_add (record : Record) (place : Place) (first later : List Mark) :
    (record.add place first).add place later = record.add place (first ++ later) := by
  simp only [add, List.map_append, List.reverse_append, List.append_assoc]

/-- Setting marks counts each skip among them in the epoch of their place. -/
theorem skips_add (record : Record) (place : Place) (marks : List Mark) (reason : SkipReason)
    (epoch : Int) :
    (record.add place marks).skips reason epoch =
      record.skips reason epoch +
        if place.epoch = epoch then marks.count (.skipped reason) else 0 := by
  rw [add, skips, List.countP_append, List.countP_reverse, List.countP_map, skips, Nat.add_comm]
  congr 1
  split
  · rename_i here
    refine List.countP_congr fun mark _ => ?_
    simp [here]
  · rename_i elsewhere
    refine List.countP_eq_zero.2 fun mark _ => ?_
    simp [elsewhere]

/-- Items keep their listing under a mark that is not set. -/
theorem items_add_of_not_mem (record : Record) (place : Place) {marks : List Mark} {mark : Mark}
    (absent : mark ∉ marks) (epoch : Int) :
    (record.add place marks).items mark epoch = record.items mark epoch := by
  rw [items, items, add, List.filter_append]
  have none : ((marks.map fun mark => (place, mark)).reverse).filter
      (fun entry => entry.1.epoch == epoch && entry.2 == mark) = [] := by
    refine List.filter_eq_nil_iff.2 fun entry member => ?_
    obtain ⟨other, inside, rfl⟩ := List.mem_map.1 (List.mem_reverse.1 member)
    have different : other ≠ mark := fun equal => absent (equal ▸ inside)
    simp [different]
  exact congrArg (fun kept => distinct (List.map _ (kept ++ _))) none

end Record

/-! ### What an item leaves behind -/

variable {Number : Type}

/-- The item at a place has been skipped for a reason: the weights and the number of updates have
not changed, this reason counts once more in the epoch of the place and no other count has changed,
and the same items as before are recorded as updated. -/
structure Skips (before after : Progress Number) (place : Place) (reason : SkipReason) :
    Prop where
  theta : after.theta = before.theta
  updates : after.updates = before.updates
  counts : ∀ other epoch, after.record.skips other epoch = before.record.skips other epoch +
    if other = reason ∧ epoch = place.epoch then 1 else 0
  updated : ∀ epoch, after.record.items .updated epoch = before.record.items .updated epoch

/-- The item at a place has moved the weights: they are given, there is one more update, no skip is
counted, and the item is recorded as updated beside those that were before. -/
structure Moves [Zero Number] (before after : Progress Number) (place : Place)
    (weight : Symbol → Number) : Prop where
  theta : ∀ key, after.theta.weight key = weight key
  updates : after.updates = before.updates + 1
  counts : ∀ reason epoch, after.record.skips reason epoch = before.record.skips reason epoch
  updated : ∀ epoch item, item ∈ after.record.items .updated epoch ↔
    (epoch = place.epoch ∧ item = place.item) ∨ item ∈ before.record.items .updated epoch

/-- Marks that neither skip nor update. -/
def AreQuiet (marks : List Mark) : Prop :=
  Mark.updated ∉ marks ∧ ∀ reason, Mark.skipped reason ∉ marks

theorem AreQuiet.nil : AreQuiet [] :=
  ⟨List.not_mem_nil, fun _ => List.not_mem_nil⟩

namespace Progress

variable {before tried : Progress Number} {place : Place} {marks : List Mark}

/-- What a rule has come to before its decision is carried out: some marks are set that neither
skip nor update, and the weights have not changed. -/
structure HasTried (before tried : Progress Number) (place : Place) (marks : List Mark) :
    Prop where
  theta : tried.theta = before.theta
  updates : tried.updates = before.updates
  record : tried.record = before.record.add place marks
  quiet : AreQuiet marks

theorem HasTried.skips (tries : HasTried before tried place marks) (reason : SkipReason)
    (epoch : Int) : tried.record.skips reason epoch = before.record.skips reason epoch := by
  rw [tries.record, Record.skips_add, List.count_eq_zero.2 (tries.quiet.2 reason), ite_self,
    Nat.add_zero]

theorem HasTried.items_updated (tries : HasTried before tried place marks) (epoch : Int) :
    tried.record.items .updated epoch = before.record.items .updated epoch := by
  rw [tries.record, Record.items_add_of_not_mem _ _ tries.quiet.1]

variable [CommSemiring Number] [BEq Number] [LawfulBEq Number]

omit [LawfulBEq Number] in
/-- Carrying out a skip skips the item. -/
theorem skips_carryOut (tries : HasTried before tried place marks) (reason : SkipReason) :
    (tried.carryOut place (.skip reason)).2 = false ∧
      Skips before (tried.carryOut place (.skip reason)).1 place reason := by
  refine ⟨rfl, tries.theta, tries.updates, fun other epoch => ?_, fun epoch => ?_⟩
  · show (tried.record.add place [.skipped reason]).skips other epoch = _
    rw [Record.skips_add, tries.skips]
    congr 1
    by_cases here : place.epoch = epoch
    · by_cases same : other = reason
      · rw [if_pos here, same, List.count_singleton_self, if_pos ⟨rfl, here.symm⟩]
      · have different : Mark.skipped other ∉ [Mark.skipped reason] := fun member =>
          same (Mark.skipped.inj (List.mem_singleton.1 member))
        rw [if_pos here, List.count_eq_zero.2 different, if_neg fun both => same both.1]
    · rw [if_neg here, if_neg fun both => here both.2.symm]
  · show (tried.record.add place [.skipped reason]).items .updated epoch = _
    rw [Record.items_add_of_not_mem _ _ (by simp), tries.items_updated]

/-- Carrying out a move adds the multiple of the direction to the weights. -/
theorem moves_carryOut (tries : HasTried before tried place marks) (rate : Number)
    (direction : FeatureVector Number) :
    (tried.carryOut place (.move rate direction)).2 = true ∧
      Moves before (tried.carryOut place (.move rate direction)).1 place
        fun key => before.theta.weight key + rate * direction.weight key := by
  refine ⟨rfl, fun key => ?_, ?_, fun reason epoch => ?_, fun epoch item => ?_⟩
  · show (FeatureVector.addTimes rate direction tried.theta).weight key = _
    rw [FeatureVector.weight_addTimes, tries.theta]
  · show tried.updates + 1 = _
    rw [tries.updates]
  · show (tried.record.add place [.updated]).skips reason epoch = _
    rw [Record.skips_add, tries.skips]
    simp
  · show item ∈ (tried.record.add place [.updated]).items .updated epoch ↔ _
    rw [Record.mem_items, Record.mem_add, ← Record.mem_items, tries.items_updated]
    refine or_congr_left ⟨fun both => ?_, fun both => ⟨?_, List.mem_cons_self⟩⟩
    · rw [← both.1]
      exact ⟨rfl, rfl⟩
    · rw [both.1, both.2]

end Progress

/-! ### Learning from an item -/

namespace Learner

/-- Learning from an item that is parsed leaves the weights as they are, or moves them as its rule
has decided; only then it answers that they have moved. -/
theorem learn_theta {Form : Type} [ToString Form] [BEq Form] [Zero Number] [One Number]
    [Neg Number] [Add Number] [Sub Number] [Mul Number] [Div Number] [BEq Number] [LT Number]
    [DecidableLT Number] [NatCast Number] [LogScore Number] {learner : Learner Form Number}
    {rule : UpdateRule Number} {item : Item Form Number} {progress : Progress Number}
    {report : ParseReport} {forest : JointForest Form Number} (place : Place)
    (ruled : learner.rule = some rule)
    (parsed : item.parse progress.theta = (report, .ok forest)) :
    ((learner.learn place item progress).1.theta = progress.theta ∧
        (learner.learn place item progress).2 ≠ .ok true) ∨
      ∃ rate direction,
        (rule.apply item progress.theta progress.updates forest).decision =
          .ok (.move rate direction) ∧
        (learner.learn place item progress).1.theta =
          FeatureVector.addTimes rate direction progress.theta := by
  rw [learn, ruled]
  simp only [parsed]
  split
  · exact Or.inl ⟨rfl, nofun⟩
  · rename_i decision decided
    cases decision with
    | skip reason => exact Or.inl ⟨rfl, nofun⟩
    | move rate direction => exact Or.inr ⟨rate, direction, decided, rfl⟩

variable {Form : Type} [ToString Form] [BEq Form] [CommRing Number] [Div Number] [BEq Number]
  [LawfulBEq Number] [LT Number] [DecidableLT Number] [LogScore Number]
  {learner : Learner Form Number} {rule : UpdateRule Number} {place : Place}
  {item : Item Form Number} {progress : Progress Number} {report : ParseReport}
  {forest : JointForest Form Number}

omit [LawfulBEq Number] in
/-- Learning from an item that is parsed carries out the decision of the rule. -/
theorem exists_hasTried (place : Place) (ruled : learner.rule = some rule)
    (parsed : item.parse progress.theta = (report, .ok forest))
    (quiet : AreQuiet (rule.apply item progress.theta progress.updates forest).marks) :
    ∃ tried, progress.HasTried tried place
        (rule.apply item progress.theta progress.updates forest).marks ∧
      learner.learn place item progress =
        match (rule.apply item progress.theta progress.updates forest).decision with
        | .error failure => (tried, .error failure)
        | .ok decision =>
          ((tried.carryOut place decision).1, .ok (tried.carryOut place decision).2) := by
  let trial := rule.apply item progress.theta progress.updates forest
  refine ⟨((((progress.report (Event.ofReport report)).parsed forest).report trial.events).mark
    place trial.marks), ⟨rfl, rfl, rfl, quiet⟩, ?_⟩
  rw [learn, ruled]
  simp only [parsed]
  rfl

omit [LawfulBEq Number] in
/-- If the rule skips the item, it is skipped. -/
theorem learn_skip {reason : SkipReason} (ruled : learner.rule = some rule)
    (parsed : item.parse progress.theta = (report, .ok forest))
    (quiet : AreQuiet (rule.apply item progress.theta progress.updates forest).marks)
    (decided : (rule.apply item progress.theta progress.updates forest).decision =
      .ok (.skip reason)) :
    (learner.learn place item progress).2 = .ok false ∧
      Skips progress (learner.learn place item progress).1 place reason := by
  obtain ⟨tried, tries, outcome⟩ := exists_hasTried place ruled parsed quiet
  rw [decided] at outcome
  rw [outcome]
  exact ⟨rfl, (Progress.skips_carryOut tries reason).2⟩

/-- If the rule moves the weights, they are moved. -/
theorem learn_move {rate : Number} {direction : FeatureVector Number}
    (ruled : learner.rule = some rule)
    (parsed : item.parse progress.theta = (report, .ok forest))
    (quiet : AreQuiet (rule.apply item progress.theta progress.updates forest).marks)
    (decided : (rule.apply item progress.theta progress.updates forest).decision =
      .ok (.move rate direction)) :
    (learner.learn place item progress).2 = .ok true ∧
      Moves progress (learner.learn place item progress).1 place
        fun key => progress.theta.weight key + rate * direction.weight key := by
  obtain ⟨tried, tries, outcome⟩ := exists_hasTried place ruled parsed quiet
  rw [decided] at outcome
  rw [outcome]
  exact ⟨rfl, (Progress.moves_carryOut tries rate direction).2⟩

omit [LawfulBEq Number] in
/-- If the rule fails, neither the weights nor the number of updates change. -/
theorem learn_error {failure : Failure} (ruled : learner.rule = some rule)
    (parsed : item.parse progress.theta = (report, .ok forest))
    (quiet : AreQuiet (rule.apply item progress.theta progress.updates forest).marks)
    (decided : (rule.apply item progress.theta progress.updates forest).decision =
      .error failure) :
    (learner.learn place item progress).2 = .error failure ∧
      (learner.learn place item progress).1.theta = progress.theta ∧
        (learner.learn place item progress).1.updates = progress.updates := by
  obtain ⟨tried, tries, outcome⟩ := exists_hasTried place ruled parsed quiet
  rw [decided] at outcome
  rw [outcome]
  exact ⟨rfl, tries.theta, tries.updates⟩

end Learner

/-! ### Names of numbers -/

/-- The forest of some names of numbers: each is derived in one way, which has the name as its one
feature, and is executed with the number as its result. -/
def numeralForest (numerals : List (String × Int)) : JointForest String ℚ :=
  let base : ParseForest String ℚ :=
    ⟨numerals.map fun (name, _) => ⟨name, 0, Table.ofList [(.name name, 1)]⟩, true⟩
  let pairs := base.parses.flatMap fun parse => numerals.filterMap fun (name, number) =>
    if name = parse.form then some ⟨parse, .integer number, 0, FeatureVector.zero⟩ else none
  .ofPairs base pairs 0 true

/-- Whether a value is an even number. -/
def isEven : Value → Bool
  | .integer number => number % 2 = 0
  | _ => false

/-- An item that has the forest of some names under all weights, and asks for an even number. -/
def numeralItem (numerals : List (String × Int)) : Item String ℚ where
  shown := "an even number"
  length := numerals.length
  parse _ := (⟨0, []⟩, .ok (numeralForest numerals))
  accepts _ result := .ok (isEven result)
  gold := none

/-- A learner with a rule that has not been given any items. -/
def idleLearner (rule : UpdateRule ℚ) : Learner String ℚ :=
  ⟨⟨some rule, LearnerSettings.defaultIterations, LearnerSettings.defaultLongest⟩, []⟩

end WordArithmetic
