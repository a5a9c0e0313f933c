/-
This file shows what comes of dealing the elements of a list to hands.

Elements are dealt one after the other. An element goes to the first hand whose first element it is
related to, and opens a new hand if there is none. The relation has to be symmetric and transitive,
but it need not be reflexive: an element that is not even related to itself has a hand of its own.
So elements are told apart by their positions, and the main statement is about a function that maps
each position to the place of its hand.
-/

import Mathlib.Data.List.Induction
import Mathlib.Logic.Function.Basic

namespace WordArithmetic

variable {Element : Type}

/-! ### Elements at chosen positions -/

/-- The elements of a list at the positions that pass a test, in their order. -/
def elementsAt (elements : List Element) (chosen : Nat → Bool) : List Element :=
  (elements.zipIdx.filter fun numbered => chosen numbered.2).map Prod.fst

theorem elementsAt_append_singleton (elements : List Element) (last : Element)
    (chosen : Nat → Bool) :
    elementsAt (elements ++ [last]) chosen =
      elementsAt elements chosen ++ if chosen elements.length then [last] else [] := by
  rw [elementsAt, List.zipIdx_append, List.filter_append, List.map_append, Nat.zero_add]
  have alone : [(last, elements.length)].filter (fun numbered => chosen numbered.2) =
      if chosen elements.length then [(last, elements.length)] else [] := List.filter_cons
  rw [List.zipIdx_singleton, alone]
  cases chosen elements.length <;> rfl

theorem elementsAt_congr {elements : List Element} {chosen other : Nat → Bool}
    (same : ∀ position < elements.length, chosen position = other position) :
    elementsAt elements chosen = elementsAt elements other := by
  have kept : elements.zipIdx.filter (fun numbered => chosen numbered.2) =
      elements.zipIdx.filter fun numbered => other numbered.2 := by
    refine List.filter_congr fun numbered member => same _ ?_
    exact (List.getElem?_eq_some_iff.1 (List.mem_zipIdx_iff_getElem?.1 member)).1
  exact congrArg (List.map Prod.fst) kept

theorem mem_elementsAt {elements : List Element} {chosen : Nat → Bool} {element : Element} :
    element ∈ elementsAt elements chosen ↔
      ∃ position, elements[position]? = some element ∧ chosen position = true := by
  rw [elementsAt, List.mem_map]
  constructor
  · rintro ⟨⟨_, position⟩, member, rfl⟩
    obtain ⟨inside, taken⟩ := List.mem_filter.1 member
    exact ⟨position, List.mem_zipIdx_iff_getElem?.1 inside, taken⟩
  · rintro ⟨position, found, taken⟩
    exact ⟨(element, position),
      List.mem_filter.2 ⟨List.mem_zipIdx_iff_getElem?.2 found, taken⟩, rfl⟩

/-- The elements at the positions whose elements pass a test are those that pass it. -/
theorem elementsAt_eq_filter {elements : List Element} {chosen : Nat → Bool} {test : Element → Bool}
    (same : ∀ position element, elements[position]? = some element →
      chosen position = test element) : elementsAt elements chosen = elements.filter test := by
  have kept : elements.zipIdx.filter (fun numbered => chosen numbered.2) =
      elements.zipIdx.filter fun numbered => test numbered.1 :=
    List.filter_congr fun numbered member => same _ _ (List.mem_zipIdx_iff_getElem?.1 member)
  rw [elementsAt, kept]
  conv_rhs => rw [← List.zipIdx_map_fst 0 elements, List.filter_map]
  rfl

/-- What stands in a list behind which an element is put is that element or stood there before. -/
theorem eq_or_getElem?_of_append {elements : List Element} {last element : Element} {position : Nat}
    (found : (elements ++ [last])[position]? = some element) :
    (position = elements.length ∧ element = last) ∨
      position < elements.length ∧ elements[position]? = some element := by
  by_cases before : position < elements.length
  · rw [List.getElem?_append_left before] at found
    exact Or.inr ⟨before, found⟩
  · rw [List.getElem?_append_right (by omega), List.getElem?_singleton] at found
    split at found
    · exact Or.inl ⟨by omega, (Option.some.inj found).symm⟩
    · cases found

/-! ### Dealing -/

/-- Deals an element to the first hand whose first element it is related to, or to a new one. -/
def deal (related : Element → Element → Bool) (element : Element) :
    List (List Element) → List (List Element)
  | [] => [[element]]
  | hand :: rest =>
    if hand.head?.any (related element) then (hand ++ [element]) :: rest
    else hand :: deal related element rest

/-- Deals all elements of a list, from left to right. -/
def dealAll (related : Element → Element → Bool) (elements : List Element) :
    List (List Element) :=
  elements.foldl (fun hands element => deal related element hands) []

/-- An element joins a hand whose first element it is related to, or it opens a hand because it is
related to no first element. -/
theorem deal_cases (related : Element → Element → Bool) (element : Element)
    (hands : List (List Element)) :
    (∃ place hand, hands[place]? = some hand ∧ hand.head?.any (related element) = true ∧
      deal related element hands = hands.set place (hand ++ [element])) ∨
    (∀ hand ∈ hands, ¬ hand.head?.any (related element) = true) ∧
      deal related element hands = hands ++ [[element]] := by
  induction hands with
  | nil => exact Or.inr ⟨List.forall_mem_nil _, rfl⟩
  | cons first rest hypothesis =>
    rw [deal]
    split
    · rename_i joins
      exact Or.inl ⟨0, first, rfl, joins, rfl⟩
    · rename_i stays
      rcases hypothesis with ⟨place, hand, found, joins, dealt⟩ | ⟨none, dealt⟩
      · exact Or.inl ⟨place + 1, hand, found, joins, by rw [dealt, List.set_cons_succ]⟩
      · exact Or.inr ⟨List.forall_mem_cons.2 ⟨stays, none⟩, by rw [dealt, List.cons_append]⟩

/-- How the elements of a list are dealt to hands, if `home` maps each position of the list to the
place of its hand. A hand has the elements of its positions, in their order, and at least one. Hands
are opened in the order of their places. Two positions have one hand if and only if they are the
same or have related elements. -/
structure IsDealt (related : Element → Element → Bool) (elements : List Element)
    (hands : List (List Element)) (home : Nat → Nat) : Prop where
  home_lt : ∀ position < elements.length, home position < hands.length
  hand_eq : ∀ {place hand}, hands[place]? = some hand →
    hand = elementsAt elements fun position => home position == place
  occupied : ∀ place < hands.length, ∃ position < elements.length, home position = place
  ordered : ∀ position < elements.length, ∀ place < home position,
    ∃ earlier < position, home earlier = place
  together : ∀ {left right first second}, elements[left]? = some first →
    elements[right]? = some second →
      (home left = home right ↔ left = right ∨ related first second = true)

namespace IsDealt

variable {related : Element → Element → Bool} {elements : List Element}
  {hands : List (List Element)} {home : Nat → Nat}

/-- The first element of a hand is the element of one of its positions. -/
theorem exists_head (dealt : IsDealt related elements hands home) {place : Nat}
    {hand : List Element} (found : hands[place]? = some hand) :
    ∃ position leader, elements[position]? = some leader ∧ home position = place ∧
      hand.head? = some leader := by
  obtain ⟨inside, _⟩ := List.getElem?_eq_some_iff.1 found
  obtain ⟨position, before, there⟩ := dealt.occupied place inside
  have member : elements[position] ∈ hand := by
    rw [dealt.hand_eq found, mem_elementsAt]
    exact ⟨position, List.getElem?_eq_getElem before, beq_iff_eq.2 there⟩
  obtain ⟨leader, others, rfl⟩ := List.exists_cons_of_ne_nil (List.ne_nil_of_mem member)
  have taken : leader ∈ elementsAt elements fun position => home position == place := by
    rw [← dealt.hand_eq found]
    exact List.mem_cons_self
  obtain ⟨first, atFirst, here⟩ := mem_elementsAt.1 taken
  exact ⟨first, leader, atFirst, beq_iff_eq.1 here, rfl⟩

/-- If every element is related to itself, a hand has the elements that are related to its first. -/
theorem hand_eq_filter (dealt : IsDealt related elements hands home)
    (refl : ∀ element, related element element = true) {place : Nat} {hand : List Element}
    (found : hands[place]? = some hand) :
    ∃ leader, hand.head? = some leader ∧
      hand = elements.filter fun element => related element leader := by
  obtain ⟨origin, leader, atOrigin, there, head⟩ := dealt.exists_head found
  refine ⟨leader, head, (dealt.hand_eq found).trans (elementsAt_eq_filter ?_)⟩
  intro position element atPosition
  rw [← there, Bool.eq_iff_iff, beq_iff_eq, dealt.together atPosition atOrigin]
  refine or_iff_right_of_imp ?_
  rintro rfl
  obtain rfl := Option.some.inj (atPosition.symm.trans atOrigin)
  exact refl element

/-- A last element is dealt to a place that is taken or comes next, if the hand there gets it and if
the positions of that place are those to whose elements it is related. -/
theorem extend (dealt : IsDealt related elements hands home) {last : Element} {place : Nat}
    {next : List (List Element)} (known : place ≤ hands.length)
    (places : ∀ other, other < next.length ↔ other < hands.length ∨ other = place)
    (hand : ∀ {other taken}, next[other]? = some taken →
      taken = (elementsAt elements fun position => home position == other) ++
        if place == other then [last] else [])
    (kin : ∀ {position element}, elements[position]? = some element →
      (home position = place ↔ related element last = true))
    (symm : ∀ left right, related left right = true → related right left = true) :
    IsDealt related (elements ++ [last]) next (Function.update home elements.length place) where
  home_lt := by
    intro position before
    rw [List.length_append, List.length_singleton] at before
    by_cases now : position = elements.length
    · rw [now, Function.update_self]
      exact (places place).2 (Or.inr rfl)
    · rw [Function.update_of_ne now]
      exact (places _).2 (Or.inl (dealt.home_lt position (by omega)))
  hand_eq := by
    intro other taken found
    rw [hand found, elementsAt_append_singleton, Function.update_self]
    congr 1
    refine elementsAt_congr fun position before => ?_
    rw [Function.update_of_ne (Nat.ne_of_lt before)]
  occupied := by
    intro other inside
    rw [List.length_append, List.length_singleton]
    rcases (places other).1 inside with old | rfl
    · obtain ⟨position, before, there⟩ := dealt.occupied other old
      refine ⟨position, by omega, ?_⟩
      rw [Function.update_of_ne (Nat.ne_of_lt before), there]
    · exact ⟨elements.length, by omega, Function.update_self _ _ _⟩
  ordered := by
    intro position before other less
    rw [List.length_append, List.length_singleton] at before
    by_cases now : position = elements.length
    · rw [now, Function.update_self] at less
      obtain ⟨earlier, inside, there⟩ := dealt.occupied other (by omega)
      refine ⟨earlier, now ▸ inside, ?_⟩
      rw [Function.update_of_ne (Nat.ne_of_lt inside), there]
    · rw [Function.update_of_ne now] at less
      obtain ⟨earlier, inside, there⟩ := dealt.ordered position (by omega) other less
      refine ⟨earlier, inside, ?_⟩
      rw [Function.update_of_ne (by omega), there]
  together := by
    intro left right first second atLeft atRight
    rcases eq_or_getElem?_of_append atLeft with ⟨rfl, rfl⟩ | ⟨beforeLeft, oldLeft⟩ <;>
      rcases eq_or_getElem?_of_append atRight with ⟨rfl, rfl⟩ | ⟨beforeRight, oldRight⟩
    · exact iff_of_true rfl (Or.inl rfl)
    · rw [Function.update_self, Function.update_of_ne (Nat.ne_of_lt beforeRight), eq_comm,
        kin oldRight]
      exact ⟨fun kin => Or.inr (symm _ _ kin), fun either => either.elim (by omega) (symm _ _)⟩
    · rw [Function.update_self, Function.update_of_ne (Nat.ne_of_lt beforeLeft), kin oldLeft]
      exact ⟨Or.inr, fun either => either.elim (by omega) id⟩
    · rw [Function.update_of_ne (Nat.ne_of_lt beforeLeft),
        Function.update_of_ne (Nat.ne_of_lt beforeRight)]
      exact dealt.together oldLeft oldRight

section Relation

variable (symm : ∀ left right, related left right = true → related right left = true)
  (trans : ∀ left middle right, related left middle = true → related middle right = true →
    related left right = true)

include symm trans

/-- An element that is related to the first one of a hand joins the hand. -/
theorem join (dealt : IsDealt related elements hands home) {last : Element} {place : Nat}
    {hand : List Element} (found : hands[place]? = some hand)
    (joins : hand.head?.any (related last) = true) :
    IsDealt related (elements ++ [last]) (hands.set place (hand ++ [last]))
      (Function.update home elements.length place) := by
  obtain ⟨inside, _⟩ := List.getElem?_eq_some_iff.1 found
  obtain ⟨origin, leader, atOrigin, there, head⟩ := dealt.exists_head found
  have kinLeader : related last leader = true := by
    rw [head] at joins
    exact joins
  refine dealt.extend (Nat.le_of_lt inside) (fun other => ?_) (fun {other taken} atOther => ?_)
    (fun {position element} atPosition => ?_) symm
  · rw [List.length_set]
    exact ⟨Or.inl, fun either => either.elim id fun same => same ▸ inside⟩
  · by_cases same : place = other
    · obtain rfl := same
      rw [List.getElem?_set_self inside] at atOther
      rw [← Option.some.inj atOther, beq_self_eq_true, if_pos rfl, ← dealt.hand_eq found]
    · rw [List.getElem?_set_ne same] at atOther
      rw [if_neg (mt beq_iff_eq.1 same), List.append_nil]
      exact dealt.hand_eq atOther
  · rw [← there, dealt.together atPosition atOrigin]
    constructor
    · rintro (rfl | kin)
      · obtain rfl := Option.some.inj (atPosition.symm.trans atOrigin)
        exact symm _ _ kinLeader
      · exact trans _ _ _ kin (symm _ _ kinLeader)
    · exact fun kin => Or.inr (trans _ _ _ kin kinLeader)

/-- An element that is related to no first element opens a hand. -/
theorem start (dealt : IsDealt related elements hands home) {last : Element}
    (none : ∀ hand ∈ hands, ¬ hand.head?.any (related last) = true) :
    IsDealt related (elements ++ [last]) (hands ++ [[last]])
      (Function.update home elements.length hands.length) := by
  refine dealt.extend (Nat.le_refl _) (fun other => ?_) (fun {other taken} atOther => ?_)
    (fun {position element} atPosition => ?_) symm
  · rw [List.length_append, List.length_singleton]
    omega
  · rcases eq_or_getElem?_of_append atOther with ⟨rfl, rfl⟩ | ⟨inside, old⟩
    · have unused : elementsAt elements (fun position => home position == hands.length) = [] := by
        refine List.eq_nil_iff_forall_not_mem.2 fun element member => ?_
        obtain ⟨position, atPosition, there⟩ := mem_elementsAt.1 member
        have before := (List.getElem?_eq_some_iff.1 atPosition).1
        exact Nat.ne_of_lt (dealt.home_lt position before) (beq_iff_eq.1 there)
      rw [unused, beq_self_eq_true, if_pos rfl, List.nil_append]
    · rw [if_neg (mt beq_iff_eq.1 (Nat.ne_of_gt inside)), List.append_nil]
      exact dealt.hand_eq old
  · have before := (List.getElem?_eq_some_iff.1 atPosition).1
    refine iff_of_false (Nat.ne_of_lt (dealt.home_lt position before)) fun kin => ?_
    have found := List.getElem?_eq_getElem (dealt.home_lt position before)
    obtain ⟨origin, leader, atOrigin, there, head⟩ := dealt.exists_head found
    refine none _ (List.mem_of_getElem? found) ?_
    rw [head, Option.any_some]
    rcases (dealt.together atOrigin atPosition).1 there with rfl | kinLeader
    · obtain rfl := Option.some.inj (atOrigin.symm.trans atPosition)
      exact symm _ _ kin
    · exact trans _ _ _ (symm _ _ kin) (symm _ _ kinLeader)

/-- What comes of dealing the elements of a list. -/
theorem exists_home (elements : List Element) :
    ∃ home, IsDealt related elements (dealAll related elements) home := by
  -- By induction from the right, since the last element is the last to be dealt.
  induction elements using List.reverseRecOn with
  | nil => exact ⟨id, nofun, nofun, nofun, nofun, nofun⟩
  | append_singleton elements last hypothesis =>
    obtain ⟨home, dealt⟩ := hypothesis
    have step : dealAll related (elements ++ [last]) =
        deal related last (dealAll related elements) := by
      rw [dealAll, List.foldl_append]
      rfl
    rcases deal_cases related last (dealAll related elements) with
      ⟨place, hand, found, joins, equal⟩ | ⟨none, equal⟩
    · rw [step, equal]
      exact ⟨_, dealt.join symm trans found joins⟩
    · rw [step, equal]
      exact ⟨_, dealt.start symm trans none⟩

end Relation

end IsDealt

end WordArithmetic
