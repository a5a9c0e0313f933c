/-
This file balances the accounts of a training.

The visits of a training follow a schedule: in every epoch all items, in their order. So every item
is visited once in every epoch, and since a visit ends with one skip or one update, the skips and
the updated items of an epoch add up to the collection. The number of updates that the gradient
rule has counted is the number of updated items of all epochs together, which is what its rate
decays with.
-/

import WordArithmetic.Proofs.Learning.Run
import WordArithmetic.Proofs.Table

namespace WordArithmetic

variable {Form Number : Type}

/-- Counting by a key adds up to counting. -/
theorem sum_countP_eq {α : Type} (key : α → Nat) (test : α → Bool) {bound : Nat} {xs : List α}
    (bounded : ∀ x ∈ xs, key x < bound) :
    ((List.range bound).map fun value => xs.countP fun x => key x == value && test x).sum =
      xs.countP test := by
  induction xs with
  | nil => simp
  | cons x xs hypothesis =>
    obtain ⟨small, rest⟩ := List.forall_mem_cons.1 bounded
    have once : ((List.range bound).map fun value =>
        if key x == value && test x then 1 else 0).sum = if test x then 1 else 0 := by
      rw [List.sum_map_eq_nsmul_single (key x) _ fun value different _ => by simp [different.symm],
        List.count_eq_one_of_mem List.nodup_range (List.mem_range.2 small), one_nsmul]
      simp
    simp only [List.countP_cons, List.sum_map_add, hypothesis rest, once]

/-! ### The schedule -/

/-- The stops of a training: in each of some epochs every item with its number. -/
def Learner.schedule (learner : Learner Form Number) (epochs : List Nat) :
    List (Nat × Nat × Item Form Number) :=
  epochs.flatMap fun epoch => learner.items.zipIdx.map fun (item, number) => (epoch, number, item)

namespace Learner

variable {learner : Learner Form Number}

/-- The number of stops in one of the epochs at items of some kind. -/
theorem countP_schedule (test : Item Form Number → Bool) {epoch epochs : Nat}
    (inside : epoch < epochs) :
    (learner.schedule (List.range epochs)).countP (fun stop => stop.1 == epoch && test stop.2.2) =
      learner.items.countP test := by
  have here : ∀ other, ((learner.items.zipIdx.map fun (item, number) =>
      (other, number, item)).countP fun stop => stop.1 == epoch && test stop.2.2) =
        if other = epoch then learner.items.countP test else 0 := by
    intro other
    rw [List.countP_map]
    split
    · rename_i same
      conv_rhs => rw [← List.zipIdx_map_fst 0 learner.items, List.countP_map]
      refine List.countP_congr fun entry _ => ?_
      simp [same]
    · rename_i different
      refine List.countP_eq_zero.2 fun entry _ => ?_
      simp [different]
  rw [schedule, List.countP_flatMap]
  simp only [Function.comp_def, here]
  rw [List.sum_map_eq_nsmul_single epoch _ fun other different _ => if_neg different, if_pos rfl,
    List.count_eq_one_of_mem List.nodup_range (List.mem_range.2 inside), one_nsmul]

/-- No two stops have the same number in the same epoch. -/
theorem nodup_schedule (learner : Learner Form Number) {epochs : List Nat}
    (distinct : epochs.Nodup) :
    ((learner.schedule epochs).map fun stop => (stop.1, stop.2.1)).Nodup := by
  have numbered : (learner.schedule epochs).map (fun stop => (stop.1, stop.2.1)) =
      epochs.flatMap fun epoch => (List.range' 0 learner.items.length).map fun number =>
        (epoch, number) := by
    rw [schedule, List.map_flatMap]
    refine congrArg (epochs.flatMap ·) (funext fun epoch => ?_)
    rw [← List.zipIdx_map_snd 0 learner.items, List.map_map, List.map_map]
    rfl
  rw [numbered, List.nodup_flatMap]
  refine ⟨fun epoch _ => ?_, distinct.imp fun {left right} different => ?_⟩
  · exact List.Nodup.map (fun _ _ same => (Prod.mk.inj same).2) (List.nodup_range')
  · intro stop inLeft inRight
    obtain ⟨_, _, rfl⟩ := List.mem_map.1 inLeft
    obtain ⟨_, _, same⟩ := List.mem_map.1 inRight
    exact different (Prod.mk.inj same).1.symm

end Learner

/-! ### Trainings are runs -/

section Training

variable [ToString Form] [BEq Form] [Zero Number] [One Number] [Neg Number] [Add Number]
  [Sub Number] [Mul Number] [Div Number] [BEq Number] [LT Number] [DecidableLT Number]
  [NatCast Number] [LogScore Number] {learner : Learner Form Number}

namespace Learner

theorem exists_runs_of_visitAll {epoch number : Nat} {items : List (Item Form Number)}
    {before after : Progress Number}
    (visited : learner.visitAll epoch number items before = (after, .ok ())) :
    ∃ history, learner.Runs before history after ∧
      history.map Visit.stop =
        (items.zipIdx number).map fun (item, number) => (epoch, number, item) := by
  induction items generalizing number before with
  | nil =>
    obtain rfl := (Prod.mk.inj visited).1
    exact ⟨[], .stay _, rfl⟩
  | cons item rest hypothesis =>
    rw [visitAll] at visited
    split at visited
    · rename_i next here
      obtain ⟨history, runs, stops⟩ := hypothesis visited
      let visit : Visit Form Number := ⟨epoch, number, item, before, next⟩
      have visitedHere : learner.visit visit.epoch visit.number visit.item visit.before =
        (visit.after, .ok ()) := here
      refine ⟨visit :: history, .visit visitedHere runs, ?_⟩
      rw [List.map_cons, stops, List.zipIdx_cons]
      rfl
    · cases visited

theorem exists_runs_of_runEpoch {epoch : Nat} {before after : Progress Number}
    (trained : learner.runEpoch epoch before = (after, .ok ())) :
    ∃ history, learner.Runs before history after ∧
      history.map Visit.stop =
        learner.items.zipIdx.map fun (item, number) => (epoch, number, item) := by
  rw [runEpoch] at trained
  split at trained
  · rename_i next visited
    obtain rfl := (Prod.mk.inj trained).1
    obtain ⟨history, runs, stops⟩ := exists_runs_of_visitAll visited
    exact ⟨history, .report _ (runs.reported _), stops⟩
  · cases trained

theorem exists_runs_of_runEpochs {epochs : List Nat} {before after : Progress Number}
    (trained : learner.runEpochs epochs before = (after, .ok ())) :
    ∃ history, learner.Runs before history after ∧
      history.map Visit.stop = learner.schedule epochs := by
  induction epochs generalizing before with
  | nil =>
    obtain rfl := (Prod.mk.inj trained).1
    exact ⟨[], .stay _, rfl⟩
  | cons epoch rest hypothesis =>
    rw [runEpochs] at trained
    split at trained
    · rename_i next here
      obtain ⟨first, runs, stops⟩ := exists_runs_of_runEpoch here
      obtain ⟨later, laterRuns, laterStops⟩ := hypothesis trained
      refine ⟨first ++ later, runs.append laterRuns, ?_⟩
      rw [List.map_append, stops, laterStops, schedule, schedule, List.flatMap_cons]
    · cases trained

/-- A training that does not fail is a run that follows the schedule of its epochs. -/
theorem exists_runs_of_train {before after : Progress Number}
    (trained : learner.train before = (after, .ok ())) :
    ∃ history, learner.Runs before history after ∧
      history.map Visit.stop = learner.schedule (List.range learner.iterations.toNat) := by
  rw [train] at trained
  split at trained
  · rename_i next ran
    obtain ⟨history, runs, stops⟩ := exists_runs_of_runEpochs ran
    split at trained
    · cases trained
    · obtain rfl := (Prod.mk.inj trained).1
      exact ⟨history, runs.reported _, stops⟩
  · cases trained

/-! ### Runs that follow a schedule -/

section Scheduled

variable {before after : Progress Number} {history : List (Visit Form Number)} {epochs : Nat}
  (runs : learner.Runs before history after) (fresh : before.record = [])
  (stops : history.map Visit.stop = learner.schedule (List.range epochs))

include stops in
omit [ToString Form] [BEq Form] [Zero Number] [One Number] [Neg Number] [Add Number]
  [Sub Number] [Mul Number] [Div Number] [BEq Number] [LT Number] [DecidableLT Number]
  [NatCast Number] [LogScore Number] in
/-- The visits of an epoch to items of some kind are as many as these items. -/
theorem countP_epoch (test : Item Form Number → Bool) {epoch : Nat} (inside : epoch < epochs) :
    history.countP (fun visit => visit.epoch == epoch && test visit.item) =
      learner.items.countP test := by
  rw [← countP_schedule test inside, ← stops, List.countP_map]
  rfl

include stops in
omit [ToString Form] [BEq Form] [Zero Number] [One Number] [Neg Number] [Add Number]
  [Sub Number] [Mul Number] [Div Number] [BEq Number] [LT Number] [DecidableLT Number]
  [NatCast Number] [LogScore Number] in
theorem nodup_numbers : (history.map fun visit => (visit.epoch, visit.number)).Nodup := by
  have distinct := learner.nodup_schedule (List.nodup_range (n := epochs))
  rw [← stops, List.map_map] at distinct
  exact distinct

include runs fresh stops

/-- As many items are recorded as updated in an epoch as visits have moved the weights in it. -/
theorem length_updated (epoch : Nat) :
    (after.record.items .updated epoch).length =
      history.countP fun visit => visit.epoch == epoch && visit.isMove := by
  let moved := history.filter fun visit => visit.epoch == epoch && visit.isMove
  have inEpoch : ∀ visit ∈ moved, visit.epoch = epoch := fun visit member =>
    beq_iff_eq.1 ((Bool.and_eq_true _ _).mp (List.mem_filter.1 member).2).1
  have distinct : (moved.map fun visit => (visit.number : Int)).Nodup := by
    refine List.Nodup.of_map (fun number => (epoch, number.toNat)) ?_
    rw [List.map_map]
    have same : moved.map ((fun number : Int => (epoch, number.toNat)) ∘
        fun visit : Visit Form Number => (visit.number : Int)) =
          moved.map fun visit => (visit.epoch, visit.number) :=
      List.map_congr_left fun visit member => by simp [inEpoch visit member]
    rw [same]
    exact (List.filter_sublist.map _).nodup (nodup_numbers stops)
  have members : ∀ number, number ∈ after.record.items .updated epoch ↔
      number ∈ moved.map fun visit => (visit.number : Int) := by
    intro number
    rw [runs.mem_updated fresh, List.mem_map]
    constructor
    · rintro ⟨visit, member, here, moves⟩
      have same : visit.epoch = epoch := Int.ofNat.inj (congrArg Place.epoch here)
      exact ⟨visit, List.mem_filter.2 ⟨member, by rw [moves, same, beq_self_eq_true]; rfl⟩,
        congrArg Place.item here⟩
    · rintro ⟨visit, member, rfl⟩
      obtain ⟨inside, kind⟩ := List.mem_filter.1 member
      refine ⟨visit, inside, ?_, ((Bool.and_eq_true _ _).mp kind).2⟩
      rw [Visit.place, inEpoch visit member]
  have nodup : (after.record.items .updated epoch).Nodup :=
    (List.mergeSort_perm _ _).nodup_iff.2 (nodup_eraseDups _)
  rw [((List.perm_ext_iff_of_nodup nodup distinct).2 members).length_eq, List.length_map,
    List.countP_eq_length_filter]

/-- The updated items of an epoch and its skips add up to the collection. -/
theorem length_updated_add_skipTotal {epoch : Nat} (inside : epoch < epochs) :
    (after.record.items .updated epoch).length + after.record.skipTotal epoch =
      learner.items.length := by
  have every := countP_epoch stops (fun _ => true) inside
  have noSkips : before.record.skipTotal epoch = 0 := by
    rw [fresh]
    rfl
  rw [List.countP_true, List.countP_eq_countP_filter_add _ _ Visit.isMove] at every
  simp only [Bool.and_true, List.countP_filter] at every
  rw [length_updated runs fresh stops, runs.skipTotal, noSkips, Nat.zero_add, ← every]

/-- The item of a visit is recorded as updated in its epoch if the visit has moved the weights. -/
theorem mem_updated_iff_isMove {visit : Visit Form Number} (member : visit ∈ history) :
    (visit.number : Int) ∈ after.record.items .updated visit.epoch ↔ visit.isMove = true := by
  rw [runs.mem_updated fresh]
  constructor
  · rintro ⟨other, otherMember, here, moved⟩
    have numbers : (other.epoch, other.number) = (visit.epoch, visit.number) :=
      Prod.ext (Int.ofNat.inj (congrArg Place.epoch here))
        (Int.ofNat.inj (congrArg Place.item here))
    obtain rfl := List.inj_on_of_nodup_map (nodup_numbers stops) otherMember member numbers
    exact moved
  · intro moved
    exact ⟨visit, member, rfl, moved⟩

/-- The updates are the updated items of all epochs together. -/
theorem updates_eq_sum :
    after.updates = before.updates +
      ((List.range epochs).map fun epoch : Nat => (after.record.items .updated epoch).length).sum := by
  have inRange : ∀ visit ∈ history, visit.epoch < epochs := by
    intro visit member
    have stop := List.mem_map_of_mem (f := Visit.stop) member
    rw [stops, schedule, List.mem_flatMap] at stop
    obtain ⟨epoch, inside, here⟩ := stop
    obtain ⟨_, _, same⟩ := List.mem_map.1 here
    rw [← (Prod.mk.inj same).1]
    exact List.mem_range.1 inside
  simp only [length_updated runs fresh stops]
  rw [runs.updates, sum_countP_eq Visit.epoch Visit.isMove inRange]

/-- The visits of the updates are those whose items are recorded as updated. -/
theorem filter_updated :
    history.filter (fun visit => (visit.number : Int) ∈ after.record.items .updated visit.epoch) =
      history.filter Visit.isMove :=
  List.filter_congr fun visit member => by
    rw [Bool.eq_iff_iff, decide_eq_true_eq, mem_updated_iff_isMove runs fresh stops member]

end Scheduled

/-- The accounts of a training that went through some visits are in balance. -/
structure Balances (learner : Learner Form Number) (history : List (Visit Form Number))
    (after : Progress Number) : Prop where
  /-- The visits go through the collection once in every epoch. -/
  stops : history.map Visit.stop = learner.schedule (List.range learner.iterations.toNat)
  /-- The updated items and all skips of an epoch add up to the collection. -/
  total : ∀ epoch < learner.iterations.toNat,
    (after.record.items .updated epoch).length +
      (SkipReason.all.map fun reason => after.record.skips reason epoch).sum =
        learner.items.length
  /-- The items that were too long in an epoch are those that are too long. -/
  tooLong : ∀ epoch < learner.iterations.toNat,
    after.record.skips .tooLong epoch =
      learner.items.countP fun item => decide (learner.longest < item.length)
  /-- Updated items have a valid parse. -/
  valid : ∀ epoch, after.record.items .updated epoch ⊆ after.record.items .validFound epoch
  /-- Where the best group was the known one, the item was parsed and had a group. -/
  gold : ∀ epoch number, number ∈ after.record.items .goldBest epoch →
    ∃ visit ∈ history, visit.place = ⟨epoch, number⟩ ∧ ¬ learner.longest < visit.item.length ∧
      ∃ forest, visit.Finds forest ∧ forest.groups ≠ []
  /-- There is one parse for every visit to an item that is not too long, and its time is kept. -/
  parsings : List.Forall₂ Visit.Yields
    (history.filter fun visit => !decide (learner.longest < visit.item.length))
    after.parsings.reverse
  /-- The weights stay the same at an item that is not recorded as updated. -/
  still : ∀ visit ∈ history, (visit.number : Int) ∉ after.record.items .updated visit.epoch →
    visit.after.theta = visit.before.theta
  /-- The updates that were counted are the updated items of all epochs. -/
  updates : after.updates = ((List.range learner.iterations.toNat).map fun epoch : Nat =>
    (after.record.items .updated epoch).length).sum
  /-- The gradient rule moves the weights at a rate that decays with the updates made before. -/
  climbs : ∀ initialRate decay, learner.rule = some (.ascent initialRate decay) →
    ∀ (index : Nat) (visit : Visit Form Number), (history.filter fun visit =>
        (visit.number : Int) ∈ after.record.items .updated visit.epoch)[index]? = some visit →
      visit.Climbs (initialRate / (1 + decay * (index : Number)))

/-- A training that does not fail goes through visits that hand the progress on from one to the
next, and its accounts are in balance. -/
theorem exists_balances_of_train (learner : Learner Form Number) (theta : FeatureVector Number)
    (events : List (Event Number)) (after : Progress Number)
    (trained : learner.train (.start theta events) = (after, .ok ())) :
    ∃ history, learner.Runs (.start theta events) history after ∧
      learner.Balances history after := by
  obtain ⟨history, runs, stops⟩ := exists_runs_of_train trained
  have fresh : (Progress.start theta events).record = [] := rfl
  refine ⟨history, runs, stops, fun epoch inside => ?_, fun epoch inside => ?_, fun epoch => ?_,
    fun epoch number member => ?_, ?_, fun visit member notUpdated => ?_, ?_, ?_⟩
  · exact length_updated_add_skipTotal runs fresh stops inside
  · have counted := countP_epoch stops (fun item => !learner.fits item) inside
    rw [runs.skips_tooLong, counted, fresh]
    simp [Record.skips, fits]
  · exact runs.validFound_of_updated fresh epoch
  · obtain ⟨visit, inside, here, fit, found⟩ := runs.exists_of_goldBest fresh member
    refine ⟨visit, inside, here, ?_, found⟩
    rwa [fits, Bool.not_eq_true', decide_eq_false_iff_not] at fit
  · obtain ⟨parsings, same, each⟩ := runs.exists_parsings
    rw [same, Progress.start, List.append_nil]
    exact each
  · obtain ⟨marks, last, leaves⟩ := runs.exists_leaves visit member
    refine leaves.still fun moved => notUpdated ?_
    rw [mem_updated_iff_isMove runs fresh stops member, leaves.isMove_eq, moved, decide_eq_true rfl]
  · rw [updates_eq_sum runs fresh stops, Progress.start, Nat.zero_add]
  · intro initialRate decay climbing index visit found
    rw [filter_updated runs fresh stops] at found
    obtain ⟨member, moved⟩ := List.mem_filter.1 (List.mem_of_getElem? found)
    obtain ⟨marks, last, leaves⟩ := runs.exists_leaves visit member
    rw [leaves.isMove_eq, decide_eq_true_eq] at moved
    have climbs := leaves.climbs moved initialRate decay climbing
    rw [runs.updates_of_getElem? found, Progress.start, Nat.zero_add] at climbs
    exact climbs

/-- A gradient learner learns twice from one item and passes over one that is too long. -/
theorem exists_balances_of_two_epochs :
    let learner : Learner String ℚ := ⟨⟨some (.ascent 1 (1 / 2)), 2, 2⟩,
      [numeralItem [("six", 6), ("seven", 7)], numeralItem [("six", 6), ("seven", 7), ("eight", 8)]]⟩
    ∃ history after, learner.train (.start FeatureVector.zero []) = (after, .ok ()) ∧
      learner.Balances history after ∧ after.updates = 2 ∧
        after.record.items .updated 1 = [0] ∧ after.record.skips .tooLong 1 = 1 := by
  intro learner
  obtain ⟨history, -, balances⟩ := exists_balances_of_train learner FeatureVector.zero []
    (learner.train (.start FeatureVector.zero [])).1 (Prod.ext rfl (by decide +kernel))
  exact ⟨history, _, Prod.ext rfl (by decide +kernel), balances, by decide +kernel,
    by decide +kernel, by decide +kernel⟩

end Learner

end Training

end WordArithmetic
