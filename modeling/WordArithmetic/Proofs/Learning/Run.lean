/-
This file keeps the accounts of a whole training.

A training is a run of visits: the learner comes to every item of every epoch, in order, and hands
its progress on from one visit to the next. A visit ends in one of two ways, with a skip or with an
update, and sets exactly one mark for it. What holds of the statistics after a training is then a
count over the visits, and what holds of the weights is what one visit does to them. Nothing here
needs a law of arithmetic, so the accounts are right for the floats that programs run on.
-/

import Mathlib.Algebra.BigOperators.Group.List.Basic
import Mathlib.Data.List.Forall2
import WordArithmetic.Proofs.Learning.Trial

namespace WordArithmetic

/-! ### Visits -/

/-- A learner comes to an item: the number of the epoch and that of the item, the item itself, and
the progress before and after. -/
structure Visit (Form Number : Type) where
  epoch : Nat
  number : Nat
  item : Item Form Number
  before : Progress Number
  after : Progress Number

variable {Form Number : Type}

/-- What is remembered of the parse that gave a forest. -/
def Parsing.ofForest [Zero Number] [Add Number] [Mul Number] [BEq Number] [LT Number]
    [DecidableLT Number] [LogScore Number] (forest : JointForest Form Number) : Parsing Number :=
  ⟨forest.time, forest.best.map Group.result, forest.exact⟩

/-- Whether an item is short enough to be learnt from. -/
def Learner.fits (learner : Learner Form Number) (item : Item Form Number) : Bool :=
  !decide (learner.longest < item.length)

namespace Visit

/-- The place at which the marks of a visit are set. -/
def place (visit : Visit Form Number) : Place :=
  ⟨visit.epoch, visit.number⟩

/-- Where a visit leads to: the epoch, the number of the item, and the item. -/
def stop (visit : Visit Form Number) : Nat × Nat × Item Form Number :=
  (visit.epoch, visit.number, visit.item)

/-- Whether there is one more update after a visit. -/
def isMove (visit : Visit Form Number) : Bool :=
  visit.before.updates < visit.after.updates

/-- The parser was called for the item under the weights of the time and gave a forest. -/
def Finds (visit : Visit Form Number) (forest : JointForest Form Number) : Prop :=
  ∃ report, visit.item.parse visit.before.theta = (report, .ok forest)

/-- What is remembered of the parse of an item. -/
def Yields [Zero Number] [Add Number] [Mul Number] [BEq Number] [LT Number] [DecidableLT Number]
    [LogScore Number] (visit : Visit Form Number) (parsing : Parsing Number) : Prop :=
  ∃ forest, visit.Finds forest ∧ parsing = Parsing.ofForest forest

/-- The weights have moved along the gradient of the forest that was found, at a given rate. -/
def Climbs [BEq Form] [Zero Number] [One Number] [Neg Number] [Add Number] [Mul Number]
    [Div Number] [BEq Number] [LogScore Number] (visit : Visit Form Number) (rate : Number) :
    Prop :=
  ∃ forest valid gradient, visit.Finds forest ∧
    Group.select forest.groups (visit.item.accepts none) = .ok valid ∧
      UpdateRule.gradientOf forest valid = .ok gradient ∧
        visit.after.theta = FeatureVector.addTimes rate gradient visit.before.theta

end Visit

section Accounts

variable [BEq Form] [Zero Number] [One Number] [Neg Number] [Add Number] [Mul Number] [Div Number]
  [BEq Number] [LT Number] [DecidableLT Number] [NatCast Number] [LogScore Number]

/-- What a visit leaves behind: some marks that neither skip nor update, and a last one that does.
The weights stay the same unless it is an update, and what the parser gave is remembered unless the
item was too long. -/
structure Visit.Leaves (learner : Learner Form Number) (visit : Visit Form Number)
    (marks : List Mark) (last : Mark) : Prop where
  record : visit.after.record = visit.before.record.add visit.place (marks ++ [last])
  quiet : AreQuiet marks
  ends : last = .updated ∨ ∃ reason, last = .skipped reason
  tooLong : last = .skipped .tooLong ↔ learner.fits visit.item = false
  valid : last = .updated → Mark.validFound ∈ marks
  gold : Mark.goldBest ∈ marks → learner.fits visit.item = true ∧
    ∃ forest, visit.Finds forest ∧ forest.groups ≠ []
  updates : visit.after.updates = visit.before.updates + if last = .updated then 1 else 0
  still : last ≠ .updated → visit.after.theta = visit.before.theta
  passed : learner.fits visit.item = false → visit.after.parsings = visit.before.parsings
  parsed : learner.fits visit.item = true → ∃ parsing, visit.Yields parsing ∧
    visit.after.parsings = parsing :: visit.before.parsings
  climbs : last = .updated → ∀ initialRate decay,
    learner.rule = some (.ascent initialRate decay) →
      visit.Climbs (initialRate / (1 + decay * (visit.before.updates : Number)))

/-! ### What a visit counts -/

/-- How often items were skipped in an epoch, for whatever reason. -/
def Record.skipTotal (record : Record) (epoch : Int) : Nat :=
  (SkipReason.all.map fun reason => record.skips reason epoch).sum

namespace Visit.Leaves

variable {learner : Learner Form Number} {visit : Visit Form Number} {marks : List Mark}
  {last : Mark}

theorem isMove_eq (leaves : visit.Leaves learner marks last) :
    visit.isMove = decide (last = .updated) := by
  rw [isMove, leaves.updates]
  by_cases moved : last = .updated
  · simp [moved]
  · simp [moved]

theorem updates_eq (leaves : visit.Leaves learner marks last) :
    visit.after.updates = visit.before.updates + if visit.isMove then 1 else 0 := by
  rw [leaves.updates, leaves.isMove_eq]
  simp only [decide_eq_true_eq]

/-- A visit counts one skip, in its epoch and for its reason, or none. -/
theorem skips (leaves : visit.Leaves learner marks last) (reason : SkipReason) (epoch : Nat) :
    visit.after.record.skips reason epoch = visit.before.record.skips reason epoch +
      if visit.epoch = epoch ∧ last = .skipped reason then 1 else 0 := by
  have quiet : marks.count (.skipped reason) = 0 := List.count_eq_zero.2 (leaves.quiet.2 reason)
  rw [leaves.record, Record.skips_add, List.count_append, quiet, Nat.zero_add,
    List.count_singleton]
  congr 1
  by_cases here : visit.epoch = epoch
  · have same : visit.place.epoch = (epoch : Int) := congrArg Int.ofNat here
    simp [here, same]
  · have different : visit.place.epoch ≠ (epoch : Int) := fun equal => here (Int.ofNat.inj equal)
    simp [here, different]

theorem skips_tooLong (leaves : visit.Leaves learner marks last) (epoch : Nat) :
    visit.after.record.skips .tooLong epoch = visit.before.record.skips .tooLong epoch +
      if visit.epoch == epoch && !learner.fits visit.item then 1 else 0 := by
  rw [leaves.skips]
  congr 1
  cases fit : learner.fits visit.item with
  | false => simp [leaves.tooLong.2 fit]
  | true =>
    have inTime : last ≠ .skipped .tooLong := fun equal => by
      rw [leaves.tooLong.1 equal] at fit
      cases fit
    simp [inTime]

theorem skipTotal (leaves : visit.Leaves learner marks last) (epoch : Nat) :
    visit.after.record.skipTotal epoch = visit.before.record.skipTotal epoch +
      if visit.epoch == epoch && !visit.isMove then 1 else 0 := by
  simp only [Record.skipTotal, SkipReason.all, List.map_cons, List.map_nil, List.sum_cons,
    List.sum_nil, leaves.skips, leaves.isMove_eq]
  rcases leaves.ends with rfl | ⟨reason, rfl⟩
  · simp
  · by_cases here : visit.epoch = epoch
    · cases reason <;> simp [here] <;> omega
    · simp [here]

end Visit.Leaves

variable [ToString Form] [Sub Number]

/-! ### What a visit does -/

/-- What the rule makes of the forest of the item. -/
def Visit.trial (visit : Visit Form Number) (rule : UpdateRule Number)
    (forest : JointForest Form Number) : Trial Number :=
  rule.apply visit.item visit.before.theta visit.before.updates forest

/-- What a visit to an item that is not too long comes to before the decision of the rule is carried
out: the item is parsed, the parse is remembered, and the marks of the rule are set. -/
structure Visit.HasTried (learner : Learner Form Number) (visit : Visit Form Number)
    (rule : UpdateRule Number) (forest : JointForest Form Number) (tried : Progress Number) :
    Prop where
  fit : learner.fits visit.item = true
  ruled : learner.rule = some rule
  finds : visit.Finds forest
  tries : visit.before.HasTried tried visit.place (visit.trial rule forest).marks
  remembered : tried.parsings = Parsing.ofForest forest :: visit.before.parsings

namespace Visit.HasTried

variable {learner : Learner Form Number} {visit : Visit Form Number} {rule : UpdateRule Number}
  {forest : JointForest Form Number} {tried : Progress Number}

theorem isOrderly (_ : visit.HasTried learner rule forest tried) :
    (visit.trial rule forest).IsOrderly forest :=
  UpdateRule.isOrderly_apply rule visit.item visit.before.theta visit.before.updates forest

theorem fits_ne_false (trying : visit.HasTried learner rule forest tried) :
    learner.fits visit.item ≠ false :=
  ne_of_eq_of_ne trying.fit Bool.false_ne_true.symm

/-- What is left behind if the rule decides for a skip. -/
theorem leaves_skip (trying : visit.HasTried learner rule forest tried) {reason : SkipReason}
    (decided : (visit.trial rule forest).decision = .ok (.skip reason))
    (carried : visit.after = (tried.carryOut visit.place (.skip reason)).1) :
    visit.Leaves learner (visit.trial rule forest).marks (.skipped reason) := by
  have inTime : reason ≠ .tooLong := fun equal =>
    trying.isOrderly.inTime (by rw [← equal]; exact decided)
  exact
    { record := by rw [carried, ← Record.add_add, ← trying.tries.record]; rfl
      quiet := trying.tries.quiet
      ends := Or.inr ⟨reason, rfl⟩
      tooLong := iff_of_false (fun equal => inTime (Mark.skipped.inj equal)) trying.fits_ne_false
      valid := nofun
      gold := fun gold => ⟨trying.fit, forest, trying.finds, trying.isOrderly.gold gold⟩
      updates := by rw [carried]; exact trying.tries.updates
      still := fun _ => by rw [carried]; exact trying.tries.theta
      passed := fun unfit => absurd unfit trying.fits_ne_false
      parsed := fun _ => ⟨_, ⟨forest, trying.finds, rfl⟩, by rw [carried]; exact trying.remembered⟩
      climbs := nofun }

/-- What is left behind if the rule decides to move the weights. -/
theorem leaves_move (trying : visit.HasTried learner rule forest tried) {rate : Number}
    {direction : FeatureVector Number}
    (decided : (visit.trial rule forest).decision = .ok (.move rate direction))
    (carried : visit.after = (tried.carryOut visit.place (.move rate direction)).1) :
    visit.Leaves learner (visit.trial rule forest).marks .updated := by
  have climbs : ∀ initialRate decay, learner.rule = some (.ascent initialRate decay) →
      visit.Climbs (initialRate / (1 + decay * (visit.before.updates : Number))) := by
    intro initialRate decay climbing
    obtain rfl := Option.some.inj (trying.ruled.symm.trans climbing)
    obtain ⟨rated, valid, selected, _, made⟩ :=
      UpdateRule.tryAscent_eq_move initialRate decay visit.before.updates decided
    obtain ⟨_, rfl⟩ := UpdateRule.rateAfter_eq_ok initialRate decay visit.before.updates rated
    refine ⟨forest, valid, direction, trying.finds, selected, made, ?_⟩
    rw [carried, ← trying.tries.theta]
    rfl
  exact
    { record := by rw [carried, ← Record.add_add, ← trying.tries.record]; rfl
      quiet := trying.tries.quiet
      ends := Or.inl rfl
      tooLong := iff_of_false nofun trying.fits_ne_false
      valid := fun _ => trying.isOrderly.valid rate direction decided
      gold := fun gold => ⟨trying.fit, forest, trying.finds, trying.isOrderly.gold gold⟩
      updates := by rw [carried, ← trying.tries.updates]; rfl
      still := fun other => absurd rfl other
      passed := fun unfit => absurd unfit trying.fits_ne_false
      parsed := fun _ => ⟨_, ⟨forest, trying.finds, rfl⟩, by rw [carried]; exact trying.remembered⟩
      climbs := fun _ => climbs }

end Visit.HasTried

namespace Learner

variable {learner : Learner Form Number} {visit : Visit Form Number}

/-- A visit to an item that is too long skips it. -/
theorem leaves_of_unfit (unfit : learner.fits visit.item = false)
    (visited : learner.visit visit.epoch visit.number visit.item visit.before =
      (visit.after, .ok ())) : visit.Leaves learner [] (.skipped .tooLong) := by
  have long : learner.longest < visit.item.length := by
    rw [fits, Bool.not_eq_false'] at unfit
    exact of_decide_eq_true unfit
  have notFit : learner.fits visit.item ≠ true := ne_of_eq_of_ne unfit Bool.false_ne_true
  rw [Learner.visit, if_pos long] at visited
  have same := (Prod.mk.inj visited).1
  exact
    { record := by rw [← same]; rfl
      quiet := AreQuiet.nil
      ends := Or.inr ⟨.tooLong, rfl⟩
      tooLong := iff_of_true rfl unfit
      valid := nofun
      gold := nofun
      updates := by rw [← same]; rfl
      still := fun _ => by rw [← same]; rfl
      passed := fun _ => by rw [← same]; rfl
      parsed := fun fit => absurd fit notFit
      climbs := nofun }

/-- A visit to an item that is not too long carries out a decision of the rule unless it fails. -/
theorem exists_hasTried_of_fit (fit : learner.fits visit.item = true)
    (visited : learner.visit visit.epoch visit.number visit.item visit.before =
      (visit.after, .ok ())) :
    ∃ rule forest tried decision, visit.HasTried learner rule forest tried ∧
      (visit.trial rule forest).decision = .ok decision ∧
        visit.after = (tried.carryOut visit.place decision).1 := by
  have short : ¬ learner.longest < visit.item.length := by
    rw [fits, Bool.not_eq_true'] at fit
    exact of_decide_eq_false fit
  rw [Learner.visit, if_neg short] at visited
  unfold learn at visited
  cases ruled : learner.rule with
  | none =>
    rw [ruled] at visited
    cases (Prod.mk.inj visited).2
  | some rule =>
    cases parse : visit.item.parse visit.before.theta with
    | mk report parsed =>
      have shown : visit.item.parse (visit.before.report [.itemReached visit.number visit.epoch,
          .itemShown visit.item.shown]).theta = (report, parsed) := parse
      simp only [ruled, shown] at visited
      cases parsed with
      | error failure => cases (Prod.mk.inj visited).2
      | ok forest =>
        simp only at visited
        split at visited
        · cases (Prod.mk.inj visited).2
        · rename_i decision decided
          have quiet : AreQuiet (visit.trial rule forest).marks :=
            (UpdateRule.isOrderly_apply rule visit.item visit.before.theta visit.before.updates
              forest).quiet
          refine ⟨rule, forest, _, decision, ?_, decided, (Prod.mk.inj visited).1.symm⟩
          exact ⟨fit, ruled, ⟨report, parse⟩, ⟨rfl, rfl, rfl, quiet⟩, rfl⟩

/-- What a visit that does not fail leaves behind. -/
theorem exists_leaves
    (visited : learner.visit visit.epoch visit.number visit.item visit.before =
      (visit.after, .ok ())) : ∃ marks last, visit.Leaves learner marks last := by
  cases fit : learner.fits visit.item with
  | false => exact ⟨_, _, leaves_of_unfit fit visited⟩
  | true =>
    obtain ⟨rule, forest, tried, decision, trying, decided, carried⟩ :=
      exists_hasTried_of_fit fit visited
    cases decision with
    | skip reason => exact ⟨_, _, trying.leaves_skip decided carried⟩
    | move rate direction => exact ⟨_, _, trying.leaves_move decided carried⟩

/-! ### Runs -/

/-- A learner goes through some visits, one after the other, and reports events between them. -/
inductive Runs (learner : Learner Form Number) :
    Progress Number → List (Visit Form Number) → Progress Number → Prop
  | stay (progress : Progress Number) : Runs learner progress [] progress
  | report {before after : Progress Number} {history : List (Visit Form Number)}
      (events : List (Event Number)) (later : Runs learner (before.report events) history after) :
      Runs learner before history after
  | visit {visit : Visit Form Number} {after : Progress Number}
      {history : List (Visit Form Number)}
      (visited : learner.visit visit.epoch visit.number visit.item visit.before =
        (visit.after, .ok ()))
      (later : Runs learner visit.after history after) :
      Runs learner visit.before (visit :: history) after

namespace Runs

variable {before between after : Progress Number} {history later : List (Visit Form Number)}

theorem append (first : learner.Runs before history between)
    (second : learner.Runs between later after) : learner.Runs before (history ++ later) after := by
  induction first with
  | stay progress => exact second
  | report events _ hypothesis => exact .report events (hypothesis second)
  | visit visited _ hypothesis => exact .visit visited (hypothesis second)

theorem reported (runs : learner.Runs before history after) (events : List (Event Number)) :
    learner.Runs before history (after.report events) := by
  have end_ := runs.append (.report events (.stay (after.report events)))
  rw [List.append_nil] at end_
  exact end_

/-- Every visit of a run leaves its marks. -/
theorem exists_leaves (runs : learner.Runs before history after) :
    ∀ visit ∈ history, ∃ marks last, visit.Leaves learner marks last := by
  induction runs with
  | stay progress => exact List.forall_mem_nil _
  | report _ _ hypothesis => exact hypothesis
  | visit visited _ hypothesis =>
    exact List.forall_mem_cons.2 ⟨Learner.exists_leaves visited, hypothesis⟩

/-- A quantity that grows by one with every visit of some kind has grown by their number. -/
theorem measure_eq (measure : Progress Number → Nat) (test : Visit Form Number → Bool)
    (reports : ∀ progress events, measure (progress.report events) = measure progress)
    (visits : ∀ {visit : Visit Form Number} {marks last}, visit.Leaves learner marks last →
      measure visit.after = measure visit.before + if test visit then 1 else 0)
    (runs : learner.Runs before history after) :
    measure after = measure before + history.countP test := by
  induction runs with
  | stay progress => rfl
  | report events _ hypothesis => rw [hypothesis, reports]
  | visit visited _ hypothesis =>
    obtain ⟨marks, last, leaves⟩ := Learner.exists_leaves visited
    rw [hypothesis, visits leaves, List.countP_cons]
    omega

end Runs

end Learner

/-! ### What a run counts -/

namespace Learner.Runs

variable {learner : Learner Form Number} {before after : Progress Number}
  {history : List (Visit Form Number)}

theorem updates (runs : learner.Runs before history after) :
    after.updates = before.updates + history.countP Visit.isMove :=
  runs.measure_eq Progress.updates Visit.isMove (fun _ _ => rfl) fun leaves => leaves.updates_eq

theorem skips_tooLong (runs : learner.Runs before history after) (epoch : Nat) :
    after.record.skips .tooLong epoch = before.record.skips .tooLong epoch +
      history.countP fun visit => visit.epoch == epoch && !learner.fits visit.item :=
  runs.measure_eq (fun progress => progress.record.skips .tooLong epoch) _ (fun _ _ => rfl)
    fun leaves => leaves.skips_tooLong epoch

theorem skipTotal (runs : learner.Runs before history after) (epoch : Nat) :
    after.record.skipTotal epoch = before.record.skipTotal epoch +
      history.countP fun visit => visit.epoch == epoch && !visit.isMove :=
  runs.measure_eq (fun progress => progress.record.skipTotal epoch) _ (fun _ _ => rfl)
    fun leaves => leaves.skipTotal epoch

/-- The marks of a record are those that were there before and those of the visits. -/
theorem mem_record (runs : learner.Runs before history after) {place : Place} {mark : Mark} :
    (place, mark) ∈ after.record ↔ (place, mark) ∈ before.record ∨
      ∃ visit ∈ history, visit.place = place ∧
        ∃ marks last, visit.Leaves learner marks last ∧ mark ∈ marks ++ [last] := by
  induction runs with
  | stay progress => simp
  | report events _ hypothesis => exact hypothesis
  | @visit visit after history visited _ hypothesis =>
    obtain ⟨marks, last, leaves⟩ := Learner.exists_leaves visited
    rw [hypothesis, List.exists_mem_cons_iff, ← or_assoc]
    refine or_congr_left ?_
    constructor
    · intro member
      rw [leaves.record, Record.mem_add] at member
      rcases member with ⟨here, set⟩ | old
      · exact Or.inr ⟨here.symm, marks, last, leaves, set⟩
      · exact Or.inl old
    · rintro (old | ⟨here, otherMarks, otherLast, others, set⟩)
      · rw [leaves.record, Record.mem_add]
        exact Or.inr old
      · rw [others.record, Record.mem_add]
        exact Or.inl ⟨here.symm, set⟩

/-- An item is recorded as updated where a visit has moved the weights, and nowhere else. -/
theorem mem_updated (runs : learner.Runs before history after) (fresh : before.record = [])
    {epoch number : Int} :
    number ∈ after.record.items .updated epoch ↔
      ∃ visit ∈ history, visit.place = ⟨epoch, number⟩ ∧ visit.isMove = true := by
  rw [Record.mem_items, runs.mem_record, fresh]
  constructor
  · rintro (old | ⟨visit, member, here, marks, last, leaves, set⟩)
    · cases old
    · refine ⟨visit, member, here, ?_⟩
      rw [leaves.isMove_eq, decide_eq_true_eq]
      rcases List.mem_append.1 set with quiet | end_
      · exact absurd quiet leaves.quiet.1
      · exact (List.mem_singleton.1 end_).symm
  · rintro ⟨visit, member, here, moved⟩
    obtain ⟨marks, last, leaves⟩ := runs.exists_leaves visit member
    rw [leaves.isMove_eq, decide_eq_true_eq] at moved
    exact Or.inr ⟨visit, member, here, marks, last, leaves,
      List.mem_append_right _ (List.mem_singleton.2 moved.symm)⟩

/-- An item that is recorded as updated is recorded to have a valid parse. -/
theorem validFound_of_updated (runs : learner.Runs before history after)
    (fresh : before.record = []) (epoch : Int) :
    after.record.items .updated epoch ⊆ after.record.items .validFound epoch := by
  intro number updated
  obtain ⟨visit, member, here, moved⟩ := (runs.mem_updated fresh).1 updated
  obtain ⟨marks, last, leaves⟩ := runs.exists_leaves visit member
  rw [leaves.isMove_eq, decide_eq_true_eq] at moved
  rw [Record.mem_items, runs.mem_record]
  exact Or.inr ⟨visit, member, here, marks, last, leaves,
    List.mem_append_left _ (leaves.valid moved)⟩

/-- Where the best group was the known one, the item was parsed and had a group. -/
theorem exists_of_goldBest (runs : learner.Runs before history after) (fresh : before.record = [])
    {epoch number : Int} (gold : number ∈ after.record.items .goldBest epoch) :
    ∃ visit ∈ history, visit.place = ⟨epoch, number⟩ ∧ learner.fits visit.item = true ∧
      ∃ forest, visit.Finds forest ∧ forest.groups ≠ [] := by
  rw [Record.mem_items, runs.mem_record, fresh] at gold
  rcases gold with old | ⟨visit, member, here, marks, last, leaves, set⟩
  · cases old
  · refine ⟨visit, member, here, ?_⟩
    rcases List.mem_append.1 set with quiet | end_
    · exact leaves.gold quiet
    · rcases leaves.ends with rfl | ⟨reason, rfl⟩
      · cases List.mem_singleton.1 end_
      · cases List.mem_singleton.1 end_

/-- What is remembered of parses is one parse for each visit to an item that is not too long, in
the order of the visits. -/
theorem exists_parsings (runs : learner.Runs before history after) :
    ∃ parsings, after.parsings = parsings ++ before.parsings ∧
      List.Forall₂ Visit.Yields (history.filter fun visit => learner.fits visit.item)
        parsings.reverse := by
  induction runs with
  | stay progress => exact ⟨[], rfl, List.Forall₂.nil⟩
  | report events _ hypothesis => exact hypothesis
  | @visit visit after history visited _ hypothesis =>
    obtain ⟨parsings, same, each⟩ := hypothesis
    obtain ⟨marks, last, leaves⟩ := Learner.exists_leaves visited
    cases fit : learner.fits visit.item with
    | false =>
      refine ⟨parsings, by rw [same, leaves.passed fit], ?_⟩
      rw [List.filter_cons_of_neg (by rw [fit]; exact Bool.false_ne_true)]
      exact each
    | true =>
      obtain ⟨parsing, yields, parsed⟩ := leaves.parsed fit
      have kept : (visit :: history).filter (fun visit => learner.fits visit.item) =
          visit :: history.filter fun visit => learner.fits visit.item :=
        List.filter_cons_of_pos fit
      refine ⟨parsings ++ [parsing], ?_, ?_⟩
      · rw [same, parsed, List.append_assoc]
        rfl
      · rw [kept, List.reverse_append]
        exact List.Forall₂.cons yields each

/-- Before the update of a number there are as many updates as the number says. -/
theorem updates_of_getElem? (runs : learner.Runs before history after) :
    ∀ {index : Nat} {visit : Visit Form Number},
      (history.filter Visit.isMove)[index]? = some visit →
        visit.before.updates = before.updates + index := by
  induction runs with
  | stay progress => exact nofun
  | report events _ hypothesis => exact hypothesis
  | @visit visit after history visited _ hypothesis =>
    intro index other found
    obtain ⟨marks, last, leaves⟩ := Learner.exists_leaves visited
    have grows := leaves.updates_eq
    cases moved : visit.isMove with
    | false =>
      rw [List.filter_cons_of_neg (by rw [moved]; exact Bool.false_ne_true)] at found
      rw [moved] at grows
      exact (hypothesis found).trans (congrArg (· + index) grows)
    | true =>
      rw [List.filter_cons_of_pos moved] at found
      cases index with
      | zero =>
        obtain rfl := Option.some.inj found
        rfl
      | succ index =>
        rw [moved] at grows
        have later := hypothesis found
        simp only [if_true] at grows
        omega

end Learner.Runs

end Accounts

end WordArithmetic
