/-
This file shows what a pass over candidates keeps.

A pass sees one candidate after the other and remembers the best score so far. What it keeps in the
end can be said without it: if only the best are kept, these are the valid candidates whose score
ranks and is not exceeded by that of any other. Each step preserves this. A score that exceeds the
best one exceeds all candidates that were kept, one that equals it exceeds none of them and is not
exceeded itself, and any other is exceeded or does not rank.
-/

import WordArithmetic.Learning.Split
import WordArithmetic.Proofs.Score

namespace WordArithmetic

namespace Split

variable {Candidate Number : Type}

section Leaders

variable [LT Number] [DecidableLT Number] [BEq Number] [LogScore Number]
  (score : Candidate → Number)

/-- The best of some candidates: those whose score ranks and is not exceeded. -/
def leaders (candidates : List Candidate) : List Candidate :=
  candidates.filter fun candidate =>
    decide (LogScore.isRanked (score candidate) = true ∧
      ∀ other ∈ candidates, ¬ score candidate < score other)

/-- What the best score of a pass is after some valid candidates: the one that a search starts from
if no score ranks, and else the same as the score of one of the best. -/
inductive IsBest (candidates : List Candidate) : Option Number → Prop
  | floor (unranked : ∀ candidate ∈ candidates, LogScore.isRanked (score candidate) = false) :
      IsBest candidates LogScore.floor
  | leader {best : Number} {top : Candidate} (member : top ∈ leaders score candidates)
      (same : (score top == best) = true) : IsBest candidates (some best)

variable {score} {candidates : List Candidate} {last : Candidate}

theorem mem_leaders {candidate : Candidate} :
    candidate ∈ leaders score candidates ↔ candidate ∈ candidates ∧
      LogScore.isRanked (score candidate) = true ∧
        ∀ other ∈ candidates, ¬ score candidate < score other := by
  rw [leaders, List.mem_filter, decide_eq_true_eq]

theorem leaders_eq_nil
    (unranked : ∀ candidate ∈ candidates, LogScore.isRanked (score candidate) = false) :
    leaders score candidates = [] :=
  List.filter_eq_nil_iff.2 fun candidate member kept =>
    Bool.false_ne_true ((unranked candidate member).symm.trans (decide_eq_true_iff.1 kept).1)

/-- What a pass has come to after some candidates, if the test answers for each whether it is
valid. -/
structure Pass.Follows (hard : Bool) (score : Candidate → Number) (valid : Candidate → Bool)
    (candidates : List Candidate) (pass : Pass Candidate Number) : Prop where
  kept : pass.split.valid =
    if hard then leaders score (candidates.filter valid) else candidates.filter valid
  rejected : pass.split.invalid = candidates.filter fun candidate => !valid candidate
  best : hard = true → IsBest score (candidates.filter valid) pass.best

variable {hard : Bool} {valid : Candidate → Bool} {pass : Pass Candidate Number}

theorem filter_append_of_pos (test : Candidate → Bool) (passes : test last = true) :
    (candidates ++ [last]).filter test = candidates.filter test ++ [last] := by
  rw [List.filter_append, List.filter_cons_of_pos passes, List.filter_nil]

theorem filter_append_of_neg (test : Candidate → Bool) (fails : test last = false) :
    (candidates ++ [last]).filter test = candidates.filter test := by
  rw [List.filter_append, List.filter_cons_of_neg (Bool.eq_false_iff.1 fails), List.filter_nil,
    List.append_nil]

theorem Pass.Follows.add (follows : pass.Follows false score valid candidates)
    (passes : valid last = true) :
    (pass.add last).Follows false score valid (candidates ++ [last]) where
  kept := by
    have kept : pass.split.valid = candidates.filter valid := follows.kept
    show pass.split.valid ++ [last] = (candidates ++ [last]).filter valid
    rw [kept, filter_append_of_pos valid passes]
  rejected := follows.rejected.trans
    (filter_append_of_neg (fun candidate => !valid candidate) (congrArg not passes)).symm
  best := nofun

theorem Pass.Follows.reject (follows : pass.Follows hard score valid candidates)
    (fails : valid last = false) :
    (pass.reject last).Follows hard score valid (candidates ++ [last]) where
  kept := by
    rw [filter_append_of_neg valid fails]
    exact follows.kept
  rejected := by
    have passes : (!valid last) = true := congrArg not fails
    show pass.split.invalid ++ [last] = _
    rw [filter_append_of_pos (fun candidate => !valid candidate) passes, follows.rejected]
  best isHard := by
    rw [filter_append_of_neg valid fails]
    exact follows.best isHard

variable [OrderedScore Number] {best : Option Number}

open OrderedScore

/-- No score exceeds one that ranks unless it ranks itself. -/
theorem not_lt_of_unranked
    (unranked : ∀ candidate ∈ candidates, LogScore.isRanked (score candidate) = false)
    (ranked : LogScore.isRanked (score last) = true) :
    ∀ candidate ∈ candidates, ¬ score last < score candidate := fun candidate member less =>
  Bool.false_ne_true ((unranked candidate member).symm.trans (isRanked_of_lt ranked less))

/-- The best of some candidates have the same score. -/
theorem beq_of_mem_leaders {left right : Candidate} (leftMember : left ∈ leaders score candidates)
    (rightMember : right ∈ leaders score candidates) : (score left == score right) = true := by
  obtain ⟨leftInside, leftRanked, leftLargest⟩ := mem_leaders.1 leftMember
  obtain ⟨rightInside, rightRanked, rightLargest⟩ := mem_leaders.1 rightMember
  rcases trichotomy leftRanked rightRanked with less | same | more
  · exact absurd less (leftLargest right rightInside)
  · exact same
  · exact absurd more (rightLargest left leftInside)

/-! ### One step -/

/-- The best before a last candidate stay if it does not exceed them, and it joins them if it is one
of the best itself. -/
theorem leaders_append_singleton :
    leaders score (candidates ++ [last]) =
      ((leaders score candidates).filter fun candidate =>
        decide (¬ score candidate < score last)) ++
      if LogScore.isRanked (score last) = true ∧
          ∀ other ∈ candidates, ¬ score last < score other then [last] else [] := by
  rw [leaders, List.filter_append, leaders, List.filter_filter]
  congr 1
  · refine List.filter_congr fun candidate _ => ?_
    rw [Bool.eq_iff_iff, Bool.and_eq_true, decide_eq_true_eq, decide_eq_true_eq,
      decide_eq_true_eq, List.forall_mem_append, List.forall_mem_singleton]
    tauto
  · rw [List.filter_cons, List.filter_nil]
    simp only [decide_eq_true_eq, List.forall_mem_append, List.forall_mem_singleton, not_lt_self,
      not_false_eq_true, and_true]

/-- A candidate that exceeds the best score is the only one of the best. -/
theorem leaders_of_exceeds (isBest : IsBest score candidates best)
    (exceeds : best.all (fun best => best < score last) = true) :
    leaders score (candidates ++ [last]) = [last] ∧
      IsBest score (candidates ++ [last]) (some (score last)) := by
  obtain ⟨ranked, largest, above⟩ : LogScore.isRanked (score last) = true ∧
      (∀ other ∈ candidates, ¬ score last < score other) ∧
        ∀ candidate ∈ leaders score candidates, score candidate < score last := by
    cases isBest with
    | floor unranked =>
      have ranked : LogScore.isRanked (score last) = true := by
        rw [Option.all_eq_true] at exceeds
        rw [LogScore.isRanked, Option.all_eq_true]
        exact fun floor start => Bool.or_eq_true_iff.2 (.inl (exceeds floor start))
      refine ⟨ranked, not_lt_of_unranked unranked ranked, ?_⟩
      rw [leaders_eq_nil unranked]
      exact List.forall_mem_nil _
    | @leader best top member same =>
      obtain ⟨_, topRanked, topLargest⟩ := mem_leaders.1 member
      have less : score top < score last :=
        (alike same (score last)).1.2 (decide_eq_true_iff.1 exceeds)
      refine ⟨isRanked_of_lt topRanked less, fun other inside more => ?_, fun candidate other => ?_⟩
      · exact topLargest other inside (lt_chain less more)
      · exact (alike (beq_of_mem_leaders other member) (score last)).1.2 less
  have none : (leaders score candidates).filter
      (fun candidate => decide (¬ score candidate < score last)) = [] :=
    List.filter_eq_nil_iff.2 fun candidate member kept =>
      decide_eq_true_iff.1 kept (above candidate member)
  have alone : leaders score (candidates ++ [last]) = [last] := by
    rw [leaders_append_singleton, none, if_pos ⟨ranked, largest⟩, List.nil_append]
  refine ⟨alone, .leader ?_ (beq_self ranked)⟩
  rw [alone]
  exact List.mem_singleton_self last

/-- A candidate that equals the best score joins the best. -/
theorem leaders_of_equals (isBest : IsBest score candidates best)
    (equals : best.any (fun best => score last == best) = true) :
    leaders score (candidates ++ [last]) = leaders score candidates ++ [last] ∧
      IsBest score (candidates ++ [last]) best := by
  obtain ⟨reached, known, same⟩ := (Option.any_eq_true _ _).1 equals
  obtain ⟨ranked, largest, notAbove⟩ : LogScore.isRanked (score last) = true ∧
      (∀ other ∈ candidates, ¬ score last < score other) ∧
        ∀ candidate ∈ leaders score candidates, ¬ score candidate < score last := by
    cases isBest with
    | floor unranked =>
      have ranked : LogScore.isRanked (score last) = true := by
        rw [LogScore.isRanked, known]
        exact Bool.or_eq_true_iff.2 (.inr same)
      refine ⟨ranked, not_lt_of_unranked unranked ranked, ?_⟩
      rw [leaders_eq_nil unranked]
      exact List.forall_mem_nil _
    | @leader best top member topSame =>
      obtain rfl := Option.some.inj known
      obtain ⟨topInside, topRanked, topLargest⟩ := mem_leaders.1 member
      have tied : (score last == score top) = true :=
        (alike topSame (score last)).2.2.trans same
      refine ⟨isRanked_of_beq topRanked tied, fun other inside more => ?_,
        fun candidate other less => ?_⟩
      · exact topLargest other inside ((alike tied (score other)).1.1 more)
      · obtain ⟨_, _, largest⟩ := mem_leaders.1 other
        exact largest top topInside ((alike tied (score candidate)).2.1.1 less)
  have stay : (leaders score candidates).filter
      (fun candidate => decide (¬ score candidate < score last)) = leaders score candidates :=
    List.filter_eq_self.2 fun candidate member => decide_eq_true (notAbove candidate member)
  have joined : leaders score (candidates ++ [last]) = leaders score candidates ++ [last] := by
    rw [leaders_append_singleton, stay, if_pos ⟨ranked, largest⟩]
  rw [known]
  refine ⟨joined, .leader ?_ same⟩
  rw [joined]
  exact List.mem_append_right _ (List.mem_singleton_self last)

/-- A candidate that neither exceeds nor equals the best score changes nothing. -/
theorem leaders_of_below (isBest : IsBest score candidates best)
    (notAbove : ¬ best.all (fun best => best < score last) = true)
    (notEqual : ¬ best.any (fun best => score last == best) = true) :
    leaders score (candidates ++ [last]) = leaders score candidates ∧
      IsBest score (candidates ++ [last]) best := by
  cases isBest with
  | floor unranked =>
    have lastUnranked : LogScore.isRanked (score last) = false := by
      rw [LogScore.isRanked]
      cases start : (LogScore.floor : Option Number) with
      | none =>
        rw [start] at notAbove
        exact absurd rfl notAbove
      | some floor =>
        rw [start] at notAbove notEqual
        exact Bool.or_eq_false_iff.2
          ⟨Bool.eq_false_iff.2 notAbove, Bool.eq_false_iff.2 notEqual⟩
    have allUnranked : ∀ candidate ∈ candidates ++ [last],
        LogScore.isRanked (score candidate) = false :=
      List.forall_mem_append.2 ⟨unranked, List.forall_mem_singleton.2 lastUnranked⟩
    exact ⟨(leaders_eq_nil allUnranked).trans (leaders_eq_nil unranked).symm,
      .floor allUnranked⟩
  | @leader best top member same =>
    obtain ⟨inside, topRanked, _⟩ := mem_leaders.1 member
    have notLess : ¬ score top < score last :=
      fun less => notAbove (decide_eq_true ((alike same (score last)).1.1 less))
    have notTied : ¬ (score last == score top) = true :=
      fun tied => notEqual ((alike same (score last)).2.2.symm.trans tied)
    have stay : (leaders score candidates).filter
        (fun candidate => decide (¬ score candidate < score last)) = leaders score candidates := by
      refine List.filter_eq_self.2 fun candidate other => decide_eq_true fun less => notLess ?_
      exact (alike (beq_of_mem_leaders other member) (score last)).1.1 less
    have kept : leaders score (candidates ++ [last]) = leaders score candidates := by
      rw [leaders_append_singleton, stay, if_neg, List.append_nil]
      rintro ⟨ranked, largest⟩
      rcases trichotomy ranked topRanked with less | tied | more
      · exact largest top inside less
      · exact notTied tied
      · exact notLess more
    refine ⟨kept, .leader ?_ same⟩
    rw [kept]
    exact member

theorem Pass.Follows.keepBest (follows : pass.Follows true score valid candidates)
    (passes : valid last = true) :
    (pass.keepBest score last).Follows true score valid (candidates ++ [last]) := by
  have kept : pass.split.valid = leaders score (candidates.filter valid) := follows.kept
  have rejected : pass.split.invalid =
      (candidates ++ [last]).filter fun candidate => !valid candidate :=
    follows.rejected.trans
      (filter_append_of_neg (fun candidate => !valid candidate) (congrArg not passes)).symm
  have isBest := follows.best rfl
  unfold Pass.keepBest
  split
  · rename_i exceeds
    obtain ⟨alone, nextBest⟩ := leaders_of_exceeds isBest exceeds
    rw [← filter_append_of_pos valid passes] at alone nextBest
    exact ⟨alone.symm, rejected, fun _ => nextBest⟩
  · split
    · rename_i equals
      obtain ⟨joined, nextBest⟩ := leaders_of_equals isBest equals
      rw [← filter_append_of_pos valid passes, ← kept] at joined
      rw [← filter_append_of_pos valid passes] at nextBest
      exact ⟨joined.symm, rejected, fun _ => nextBest⟩
    · rename_i notAbove notEqual
      obtain ⟨same, nextBest⟩ := leaders_of_below isBest notAbove notEqual
      rw [← filter_append_of_pos valid passes] at same nextBest
      exact ⟨kept.trans same.symm, rejected, fun _ => nextBest⟩

/-- Each step preserves what a pass has come to. -/
theorem Pass.Follows.next {accepts : Candidate → Except Failure Bool}
    (follows : pass.Follows hard score valid candidates)
    (answer : accepts last = .ok (valid last)) :
    ∃ after, pass.next hard score accepts last = .ok after ∧
      after.Follows hard score valid (candidates ++ [last]) := by
  unfold Pass.next
  rw [answer]
  cases passes : valid last with
  | true =>
    cases hard with
    | true => exact ⟨_, rfl, follows.keepBest passes⟩
    | false => exact ⟨_, rfl, follows.add passes⟩
  | false => exact ⟨_, rfl, follows.reject passes⟩

/-! ### The whole pass -/

/-- A pass over candidates for each of which the test answers ends, and so the split consists of the
candidates that do not pass and of those that do, or of the best of these. -/
theorem ofCandidates_eq_leaders {accepts : Candidate → Except Failure Bool}
    (answers : ∀ candidate ∈ candidates, accepts candidate = .ok (valid candidate)) :
    ofCandidates hard score accepts candidates =
      .ok ⟨if hard then leaders score (candidates.filter valid) else candidates.filter valid,
        candidates.filter fun candidate => !valid candidate⟩ := by
  obtain ⟨pass, passed, follows⟩ : ∃ pass : Pass Candidate Number,
      candidates.foldlM (Pass.next hard score accepts) ⟨⟨[], []⟩, LogScore.floor⟩ = .ok pass ∧
        pass.Follows hard score valid candidates := by
    induction candidates using List.reverseRecOn with
    | nil =>
      refine ⟨_, rfl, ?_, rfl, fun _ => .floor (List.forall_mem_nil _)⟩
      cases hard <;> rfl
    | append_singleton candidates last hypothesis =>
      obtain ⟨earlier, now⟩ := List.forall_mem_append.1 answers
      obtain ⟨pass, passed, follows⟩ := hypothesis earlier
      obtain ⟨after, stepped, followsAfter⟩ :=
        follows.next (now last (List.mem_singleton_self last))
      refine ⟨after, ?_, followsAfter⟩
      rw [List.foldlM_append, passed]
      show (Pass.next hard score accepts pass last >>= pure) = .ok after
      rw [stepped]
      rfl
  rw [ofCandidates, passed, ← follows.kept, ← follows.rejected]
  rfl

end Leaders

end Split

end WordArithmetic
