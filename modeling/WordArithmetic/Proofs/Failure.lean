/-
This file says what it means that a computation in several parts succeeds.

Then all of its parts have succeeded, so that what every part keeps is kept by the whole, and each
of its results is the result of one part.
-/

import Mathlib.Data.List.Forall2

namespace WordArithmetic

/-- A computation that ends well went well up to its last part, and the last part did too. -/
theorem bind_eq_ok {First Last Cause : Type} {start : Except Cause First}
    {following : First → Except Cause Last} {last : Last} (done : start >>= following = .ok last) :
    ∃ first, start = .ok first ∧ following first = .ok last := by
  cases start with
  | error cause => cases done
  | ok first => exact ⟨first, rfl, done⟩

theorem eq_ok_of_toOption {Result Cause : Type} {outcome : Except Cause Result} {result : Result}
    (found : outcome.toOption = some result) : outcome = .ok result := by
  cases outcome with
  | error cause => cases found
  | ok other => exact congrArg Except.ok (Option.some.inj found)

/-- What every step keeps is kept by all steps. -/
theorem foldlM_keeps {Element State Cause : Type} {step : State → Element → Except Cause State}
    {property : State → Prop}
    (keeps : ∀ start element next, property start → step start element = .ok next → property next)
    {elements : List Element} {start last : State} (holds : property start)
    (done : elements.foldlM step start = .ok last) : property last := by
  induction elements generalizing start with
  | nil =>
    obtain rfl := Except.ok.inj done
    exact holds
  | cons first rest hypothesis =>
    rw [List.foldlM_cons] at done
    obtain ⟨next, stepped, followed⟩ := bind_eq_ok done
    exact hypothesis (keeps start first next holds stepped) followed

/-- What every step adds to a property is added by the elements of the list and by nothing else. -/
theorem foldlM_adds {Element State Cause : Type} {step : State → Element → Except Cause State}
    {property : State → Prop} {adds : Element → Prop}
    (each : ∀ start element next, step start element = .ok next →
      (property next ↔ property start ∨ adds element))
    {elements : List Element} {start last : State} (done : elements.foldlM step start = .ok last) :
    property last ↔ property start ∨ ∃ element ∈ elements, adds element := by
  induction elements generalizing start with
  | nil =>
    obtain rfl := Except.ok.inj done
    exact (or_iff_left fun ⟨_, member, _⟩ => List.not_mem_nil member).symm
  | cons first rest hypothesis =>
    rw [List.foldlM_cons] at done
    obtain ⟨next, stepped, followed⟩ := bind_eq_ok done
    rw [hypothesis followed, each start first next stepped, List.exists_mem_cons_iff, or_assoc]

/-- In related lists everything on the right has its counterpart on the left. -/
theorem exists_of_forall₂ {Left Right : Type} {related : Left → Right → Prop} {left : List Left}
    {right : List Right} (each : List.Forall₂ related left right) :
    ∀ second ∈ right, ∃ first ∈ left, related first second := by
  induction each with
  | nil => exact List.forall_mem_nil _
  | cons here _ hypothesis =>
    refine List.forall_mem_cons.2 ⟨⟨_, List.mem_cons_self, here⟩, fun second member => ?_⟩
    obtain ⟨first, firstMember, there⟩ := hypothesis second member
    exact ⟨first, List.mem_cons_of_mem _ firstMember, there⟩

section Several

variable {Element Result Cause : Type} {function : Element → Except Cause Result}

/-- Several computations that have all succeeded give one result each. -/
theorem forall₂_of_mapM {elements : List Element} {results : List Result}
    (all : elements.mapM function = .ok results) :
    List.Forall₂ (fun element result => function element = .ok result) elements results := by
  induction elements generalizing results with
  | nil =>
    obtain rfl := Except.ok.inj all
    exact List.Forall₂.nil
  | cons first rest hypothesis =>
    rw [List.mapM_cons] at all
    obtain ⟨result, found, others⟩ := bind_eq_ok all
    obtain ⟨later, foundLater, whole⟩ := bind_eq_ok others
    obtain rfl := Except.ok.inj whole
    exact List.Forall₂.cons found (hypothesis foundLater)

/-- What several computations have given comes from one of the elements each. -/
theorem exists_of_mem_mapM {elements : List Element} {results : List Result}
    (all : elements.mapM function = .ok results) :
    ∀ result ∈ results, ∃ element ∈ elements, function element = .ok result :=
  exists_of_forall₂ (forall₂_of_mapM all)

/-- Every element of a list has given one of the results. -/
theorem exists_result_of_mapM {elements : List Element} {results : List Result}
    (all : elements.mapM function = .ok results) :
    ∀ element ∈ elements, ∃ result ∈ results, function element = .ok result :=
  exists_of_forall₂ (forall₂_of_mapM all).flip

/-- If every element of a list gives a result with a property and a key, all of them together
do. -/
theorem exists_mapM_ok {Key : Type} {property : Result → Prop} {key : Result → Key}
    {label : Element → Key} (elements : List Element)
    (each : ∀ element ∈ elements,
      ∃ result, function element = .ok result ∧ property result ∧ key result = label element) :
    ∃ results, elements.mapM function = .ok results ∧ (∀ result ∈ results, property result) ∧
      results.map key = elements.map label := by
  induction elements with
  | nil => exact ⟨[], rfl, nofun, rfl⟩
  | cons first rest hypothesis =>
    obtain ⟨result, found, holds, same⟩ := each first List.mem_cons_self
    obtain ⟨results, all, hold, sameAll⟩ :=
      hypothesis fun element member => each element (List.mem_cons_of_mem _ member)
    refine ⟨result :: results, ?_, List.forall_mem_cons.2 ⟨holds, hold⟩, ?_⟩
    · rw [List.mapM_cons, found, all]
      rfl
    · rw [List.map_cons, List.map_cons, same, sameAll]

/-- If every element of a list gives a result, all of them together do. -/
theorem exists_mapM {elements : List Element}
    (each : ∀ element ∈ elements, ∃ result, function element = .ok result) :
    ∃ results, elements.mapM function = .ok results := by
  obtain ⟨results, all, _⟩ := @exists_mapM_ok Element Result Cause function Unit
    (fun _ => True) (fun _ => ()) (fun _ => ()) elements fun element member => by
      obtain ⟨result, found⟩ := each element member
      exact ⟨result, found, trivial, rfl⟩
  exact ⟨results, all⟩

end Several

end WordArithmetic
