/-
This file tells what a copy of a term binds.

A copy builds every abstraction anew, which binds by name whatever carries the reserved index below
it. What a copy has bound it does not bind again, so a copy is its own copy. A term is its own copy
if no variable below an abstraction of its name carries the reserved index, and as long as fewer
abstractions stand in each other than the reserved index counts, it is its own copy only then. A
variable that is bound is printed with a shorter index, so the printed form tells the difference.
-/

import Mathlib.Data.Nat.Digits.Defs
import WordArithmetic.Lambda.Evaluation
import WordArithmetic.Proofs.Failure
import WordArithmetic.Proofs.Lambda.Written

namespace WordArithmetic

namespace Term

/-! ### Copies of copies -/

theorem shiftAll_zero_of_hasBound {terms : List Term} (bound : ∀ term ∈ terms, term.HasBound)
    (depth : Int) : shiftAll 0 depth terms = terms := by
  induction terms with
  | nil => rfl
  | cons first rest hypothesis =>
    obtain ⟨firstBound, restBound⟩ := List.forall_mem_cons.1 bound
    rw [shiftAll, firstBound.shift_zero depth, hypothesis restBound]

mutual

/-- What is shifted has bound all that a copy of it could bind. -/
theorem hasBound_shift (amount : Int) :
    ∀ (depth : Int) (term : Term), (term.shift amount depth).HasBound
  | _, .variable name type index => trivial
  | depth, .abstraction name type body =>
    ⟨capture_capture name type _ 1,
      (hasBound_shift amount (depth + 1) body).capture name type Int.one_pos⟩
  | depth, .application function argument =>
    ⟨hasBound_shift amount depth function, hasBound_shift amount depth argument⟩
  | depth, .external function missing arguments => fun further => by
    have bound := forall_hasBound_shiftAll amount (depth + missing) arguments
    rw [shift, shiftAll_zero_of_hasBound bound]

theorem forall_hasBound_shiftAll (amount : Int) :
    ∀ (depth : Int) (terms : List Term), ∀ term ∈ shiftAll amount depth terms, term.HasBound
  | _, [] => List.forall_mem_nil _
  | depth, first :: rest =>
    List.forall_mem_cons.2
      ⟨hasBound_shift amount depth first, forall_hasBound_shiftAll amount depth rest⟩

end

/-- A copy is its own copy. -/
theorem copy_copy (term : Term) : term.copy.copy = term.copy :=
  (hasBound_shift 0 0 term).shift_zero 0

theorem hasBound_of_shift_eq {term : Term} {depth : Int} (same : term.shift 0 depth = term) :
    term.HasBound := by
  rw [← same]
  exact hasBound_shift 0 depth term

/-! ### What a copy binds -/

/-- Whether a variable of this name carries the reserved index. The arguments of external functions
are shielded. -/
def hasReserved (name : String) : Term → Bool
  | .variable other _ index => name == other && index == freeIndex
  | .abstraction _ _ body => body.hasReserved name
  | .application function argument => function.hasReserved name || argument.hasReserved name
  | .external .. => false

mutual

/-- Whether no variable below an abstraction of its name carries the reserved index. -/
def isSettled : Term → Bool
  | .variable .. => true
  | .abstraction name _ body => !body.hasReserved name && body.isSettled
  | .application function argument => function.isSettled && argument.isSettled
  | .external _ _ arguments => areSettled arguments

/-- The same for the arguments of an external function. -/
def areSettled : List Term → Bool
  | [] => true
  | first :: rest => first.isSettled && areSettled rest

end

mutual

/-- How many abstractions stand in each other. -/
def nesting : Term → Nat
  | .variable .. => 0
  | .abstraction _ _ body => body.nesting + 1
  | .application function argument => max function.nesting argument.nesting
  | .external _ _ arguments => nestingAll arguments

/-- The same for the arguments of an external function. -/
def nestingAll : List Term → Nat
  | [] => 0
  | first :: rest => max first.nesting (nestingAll rest)

end

theorem isSettled_abstraction {name : String} {type : TypeCode} {body : Term} :
    (abstraction name type body).isSettled = true ↔
      body.hasReserved name = false ∧ body.isSettled = true := by
  rw [isSettled, Bool.and_eq_true, Bool.not_eq_true']

theorem isSettled_application {function argument : Term} :
    (application function argument).isSettled = true ↔
      function.isSettled = true ∧ argument.isSettled = true := by
  rw [isSettled, Bool.and_eq_true]

theorem areSettled_cons {first : Term} {rest : List Term} :
    areSettled (first :: rest) = true ↔ first.isSettled = true ∧ areSettled rest = true := by
  rw [areSettled, Bool.and_eq_true]

/-- A name that no variable with the reserved index has is bound nowhere. -/
theorem capture_eq_of_hasReserved (name : String) (type : TypeCode) :
    ∀ (depth : Int) (term : Term), term.hasReserved name = false →
      term.capture name type depth = term
  | depth, .variable other otherType index, absent => by
    rw [hasReserved, Bool.and_eq_false_iff, beq_eq_false_iff_ne, beq_eq_false_iff_ne] at absent
    rw [capture, if_neg fun both => absent.elim (· both.1) (· both.2)]
  | depth, .abstraction other otherType body, absent => by
    rw [hasReserved] at absent
    rw [capture, capture_eq_of_hasReserved name type (depth + 1) body absent]
  | depth, .application function argument, absent => by
    rw [hasReserved, Bool.or_eq_false_iff] at absent
    rw [capture, capture_eq_of_hasReserved name type depth function absent.1,
      capture_eq_of_hasReserved name type depth argument absent.2]
  | _, .external function missing arguments, _ => rfl

/-- Below fewer binders than the reserved index counts, binding a name changes every variable that
carries the reserved index. -/
theorem hasReserved_of_capture_eq (name : String) (type : TypeCode) :
    ∀ (depth : Int) (term : Term), depth + term.nesting < freeIndex →
      term.capture name type depth = term → term.hasReserved name = false
  | depth, .variable other otherType index, low, same => by
    rw [nesting] at low
    rw [capture] at same
    split at same
    · rename_i both
      injection same with _ _ place
      have reserved := both.2
      omega
    · rename_i neither
      rw [hasReserved, Bool.and_eq_false_iff, beq_eq_false_iff_ne, beq_eq_false_iff_ne]
      exact not_and_or.1 neither
  | depth, .abstraction other otherType body, low, same => by
    rw [nesting] at low
    rw [capture] at same
    injection same with _ _ bodySame
    exact hasReserved_of_capture_eq name type (depth + 1) body (by omega) bodySame
  | depth, .application function argument, low, same => by
    rw [nesting] at low
    rw [capture] at same
    injection same with functionSame argumentSame
    rw [hasReserved, hasReserved_of_capture_eq name type depth function (by omega) functionSame,
      hasReserved_of_capture_eq name type depth argument (by omega) argumentSame]
    rfl
  | _, .external function missing arguments, _, _ => rfl

mutual

/-- A settled term has bound all that a copy of it could bind. -/
theorem hasBound_of_isSettled : ∀ term : Term, term.isSettled = true → term.HasBound
  | .variable name type index, _ => trivial
  | .abstraction name type body, settled =>
    (isSettled_abstraction.1 settled).imp (capture_eq_of_hasReserved name type 1 body)
      (hasBound_of_isSettled body)
  | .application function argument, settled =>
    (isSettled_application.1 settled).imp (hasBound_of_isSettled function)
      (hasBound_of_isSettled argument)
  | .external function missing arguments, settled => by
    rw [isSettled] at settled
    intro depth
    rw [shift, shiftAll_zero_of_hasBound (forall_hasBound_of_areSettled arguments settled)]

theorem forall_hasBound_of_areSettled :
    ∀ terms : List Term, areSettled terms = true → ∀ term ∈ terms, term.HasBound
  | [], _ => List.forall_mem_nil _
  | first :: rest, settled => by
    rw [areSettled_cons] at settled
    exact List.forall_mem_cons.2
      ⟨hasBound_of_isSettled first settled.1, forall_hasBound_of_areSettled rest settled.2⟩

end

mutual

/-- As long as fewer abstractions stand in each other than the reserved index counts, only settled
terms have bound all that a copy of them could bind. -/
theorem isSettled_of_hasBound :
    ∀ term : Term, (term.nesting : Int) < freeIndex → term.HasBound → term.isSettled = true
  | .variable name type index => fun _ _ => rfl
  | .abstraction name type body => fun low bound => by
    rw [nesting] at low
    exact isSettled_abstraction.2
      ⟨hasReserved_of_capture_eq name type 1 body (by omega) bound.1,
        isSettled_of_hasBound body (by omega) bound.2⟩
  | .application function argument => fun low bound => by
    rw [nesting] at low
    exact isSettled_application.2 ⟨isSettled_of_hasBound function (by omega) bound.1,
      isSettled_of_hasBound argument (by omega) bound.2⟩
  | .external function missing arguments => fun low bound => by
    rw [nesting] at low
    have same := bound 0
    rw [shift] at same
    injection same with _ _ argumentsSame
    exact areSettled_of_shiftAll_eq arguments low argumentsSame

theorem areSettled_of_shiftAll_eq :
    ∀ (terms : List Term) {depth : Int}, (nestingAll terms : Int) < freeIndex →
      shiftAll 0 depth terms = terms → areSettled terms = true
  | [] => fun _ _ => rfl
  | first :: rest => fun low same => by
    rw [nestingAll] at low
    rw [shiftAll] at same
    obtain ⟨firstSame, restSame⟩ := List.cons.inj same
    exact areSettled_cons.2
      ⟨isSettled_of_hasBound first (by omega) (hasBound_of_shift_eq firstSame),
        areSettled_of_shiftAll_eq rest (by omega) restSame⟩

end

/-- A settled term is its own copy. -/
theorem copy_eq_of_isSettled {term : Term} (settled : term.isSettled = true) : term.copy = term :=
  (hasBound_of_isSettled term settled).shift_zero 0

/-! ### Printed forms -/

theorem nesting_capture (name : String) (type : TypeCode) :
    ∀ (depth : Int) (term : Term), (term.capture name type depth).nesting = term.nesting
  | depth, .variable other otherType index => by
    rw [capture]
    split <;> rfl
  | depth, .abstraction other otherType body => by
    rw [capture, nesting, nesting, nesting_capture name type (depth + 1) body]
  | depth, .application function argument => by
    rw [capture, nesting, nesting, nesting_capture name type depth function,
      nesting_capture name type depth argument]
  | _, .external function missing arguments => rfl

mutual

theorem nesting_shift (amount : Int) :
    ∀ (depth : Int) (term : Term), (term.shift amount depth).nesting = term.nesting
  | _, .variable name type index => rfl
  | depth, .abstraction name type body => by
    rw [shift, abstract, nesting, nesting, nesting_capture, nesting_shift amount (depth + 1) body]
  | depth, .application function argument => by
    rw [shift, nesting, nesting, nesting_shift amount depth function,
      nesting_shift amount depth argument]
  | depth, .external function missing arguments => by
    rw [shift, nesting, nesting, nestingAll_shiftAll amount (depth + missing) arguments]

theorem nestingAll_shiftAll (amount : Int) :
    ∀ (depth : Int) (terms : List Term), nestingAll (shiftAll amount depth terms) = nestingAll terms
  | _, [] => rfl
  | depth, first :: rest => by
    rw [shiftAll, nestingAll, nestingAll, nesting_shift amount depth first,
      nestingAll_shiftAll amount depth rest]

end

mutual

theorem isConstant_shift (amount : Int) :
    ∀ (depth : Int) (term : Term), (term.shift amount depth).isConstant = term.isConstant
  | _, .variable name type index => rfl
  | _, .abstraction name type body => rfl
  | _, .application function argument => rfl
  | depth, .external function missing arguments => by
    rw [shift, isConstant, isConstant, areConstant_shiftAll amount (depth + missing) arguments]

theorem areConstant_shiftAll (amount : Int) :
    ∀ (depth : Int) (terms : List Term),
      areConstant (shiftAll amount depth terms) = areConstant terms
  | _, [] => rfl
  | depth, first :: rest => by
    rw [shiftAll, areConstant, areConstant, isConstant_shift amount depth first,
      areConstant_shiftAll amount depth rest]

end

mutual

/-- A constant has no indexes. -/
theorem shift_of_isConstant (amount : Int) :
    ∀ (depth : Int) (term : Term), term.isConstant = true → term.shift amount depth = term
  | depth, .external function missing arguments, constant => by
    rw [isConstant] at constant
    rw [shift, shiftAll_of_areConstant amount (depth + missing) arguments constant]

theorem shiftAll_of_areConstant (amount : Int) :
    ∀ (depth : Int) (terms : List Term), areConstant terms = true →
      shiftAll amount depth terms = terms
  | _, [], _ => rfl
  | depth, first :: rest, constant => by
    rw [areConstant, Bool.and_eq_true] at constant
    rw [shiftAll, shift_of_isConstant amount depth first constant.1,
      shiftAll_of_areConstant amount depth rest constant.2]

end

/-- A term is printed no longer than another one, and as long only if it is that one. -/
def Shortens (before after : Term) : Prop :=
  ∀ shown, before.print = .ok shown → ∃ other, after.print = .ok other ∧
    other.length ≤ shown.length ∧ (other.length = shown.length → after = before)

/-- The same for terms that are printed one after the other. -/
def ShortenAll (before after : List Term) : Prop :=
  ∀ shown, printAll before = .ok shown → ∃ other, printAll after = .ok other ∧
    other.length = shown.length ∧
    (other.map String.length).sum ≤ (shown.map String.length).sum ∧
    ((other.map String.length).sum = (shown.map String.length).sum → after = before)

namespace Shortens

variable {before after : Term}

theorem refl (term : Term) : Shortens term term :=
  fun shown printed => ⟨shown, printed, Nat.le_refl _, fun _ => rfl⟩

theorem trans {between : Term} (first : Shortens before between) (second : Shortens between after) :
    Shortens before after := by
  intro shown printed
  obtain ⟨middle, middlePrinted, middleLe, middleSame⟩ := first shown printed
  obtain ⟨other, otherPrinted, otherLe, otherSame⟩ := second middle middlePrinted
  refine ⟨other, otherPrinted, Nat.le_trans otherLe middleLe, fun same => ?_⟩
  rw [otherSame (by omega), middleSame (by omega)]

theorem abstraction (shortens : Shortens before after) (name : String) (type : TypeCode) :
    Shortens (.abstraction name type before) (.abstraction name type after) := by
  intro shown printed
  rw [print] at printed
  obtain ⟨body, bodyPrinted, whole⟩ := bind_eq_ok printed
  obtain rfl := Except.ok.inj whole
  obtain ⟨other, otherPrinted, le, same⟩ := shortens body bodyPrinted
  have printedNow : (Term.abstraction name type after).print =
      .ok ("(lambda (" ++ name ++ ":" ++ type.text ++ ") " ++ other ++ ")") := by
    rw [print, otherPrinted]
    rfl
  refine ⟨_, printedNow, ?_, fun lengths => ?_⟩
  · simp only [String.length_append, toString]
    omega
  · simp only [String.length_append, toString] at lengths
    rw [same (by omega)]

theorem application {argument other : Term} (left : Shortens before after)
    (right : Shortens argument other) :
    Shortens (.application before argument) (.application after other) := by
  intro shown printed
  rw [print] at printed
  obtain ⟨functionShown, functionPrinted, rest⟩ := bind_eq_ok printed
  obtain ⟨argumentShown, argumentPrinted, whole⟩ := bind_eq_ok rest
  obtain rfl := Except.ok.inj whole
  obtain ⟨leftShown, leftPrinted, leftLe, leftSame⟩ := left functionShown functionPrinted
  obtain ⟨rightShown, rightPrinted, rightLe, rightSame⟩ := right argumentShown argumentPrinted
  have printedNow : (Term.application after other).print =
      .ok ("(" ++ leftShown ++ " " ++ rightShown ++ ")") := by
    rw [print, leftPrinted, rightPrinted]
    rfl
  refine ⟨_, printedNow, ?_, fun lengths => ?_⟩
  · simp only [String.length_append, toString]
    omega
  · simp only [String.length_append, toString] at lengths
    rw [leftSame (by omega), rightSame (by omega)]

theorem cons {first next : Term} {rest others : List Term} (here : Shortens first next)
    (later : ShortenAll rest others) : ShortenAll (first :: rest) (next :: others) := by
  intro shown printed
  rw [printAll] at printed
  obtain ⟨firstShown, firstPrinted, remaining⟩ := bind_eq_ok printed
  obtain ⟨restShown, restPrinted, whole⟩ := bind_eq_ok remaining
  obtain rfl := Except.ok.inj whole
  obtain ⟨nextShown, nextPrinted, nextLe, nextSame⟩ := here firstShown firstPrinted
  obtain ⟨othersShown, othersPrinted, number, othersLe, othersSame⟩ := later restShown restPrinted
  have printedNow : printAll (next :: others) = .ok (nextShown :: othersShown) := by
    rw [printAll, nextPrinted, othersPrinted]
    rfl
  refine ⟨_, printedNow, congrArg (· + 1) number, ?_, fun lengths => ?_⟩
  · simp only [List.map_cons, List.sum_cons]
    omega
  · simp only [List.map_cons, List.sum_cons] at lengths
    rw [nextSame (by omega), othersSame (by omega)]

end Shortens

theorem shortenAll_nil : ShortenAll [] [] :=
  fun shown printed => ⟨shown, printed, rfl, Nat.le_refl _, fun _ => rfl⟩

theorem length_intercalate (separator : String) (texts : List String) :
    (String.intercalate separator texts).length =
      (texts.map String.length).sum + separator.length * (texts.length - 1) := by
  induction texts with
  | nil => rfl
  | cons first rest hypothesis =>
    cases rest with
    | nil =>
      rw [String.intercalate_singleton]
      rfl
    | cons second rest =>
      rw [String.intercalate_cons_cons, String.length_append, String.length_append, hypothesis]
      simp only [List.map_cons, List.sum_cons, List.length_cons, Nat.add_sub_cancel]
      rw [Nat.mul_succ]
      omega

/-- An external function is printed no longer if its arguments are not. -/
theorem ShortenAll.external {before after : List Term} (shortens : ShortenAll before after)
    (waiting : areConstant before = false) (waitingAfter : areConstant after = false)
    (function : External) (missing : Int) :
    Shortens (.external function missing before) (.external function missing after) := by
  intro shown printed
  rw [print, waiting, if_neg Bool.false_ne_true] at printed
  obtain ⟨texts, textsPrinted, whole⟩ := bind_eq_ok printed
  obtain rfl := Except.ok.inj whole
  obtain ⟨others, othersPrinted, number, le, same⟩ := shortens texts textsPrinted
  have printedNow : (Term.external function missing after).print =
      .ok (function.name ++ "(" ++ String.intercalate "," others ++ ")") := by
    rw [print, waitingAfter, if_neg Bool.false_ne_true, othersPrinted]
    rfl
  refine ⟨_, printedNow, ?_, fun lengths => ?_⟩
  · simp only [String.length_append, length_intercalate, number]
    omega
  · simp only [String.length_append, length_intercalate, number] at lengths
    rw [same (by omega)]

/-- An index below the reserved one is printed with fewer characters. -/
theorem length_index_lt {index : Int} (low : 0 ≤ index) (below : index < freeIndex) :
    (toString index).length < (toString freeIndex).length := by
  obtain ⟨place, rfl⟩ := Int.eq_ofNat_of_zero_le low
  have digits : (toString (place : Int)).length ≤ 5 :=
    Nat.repr_length place 5 (by decide) (by rw [freeIndex] at below; omega)
  have reserved : (toString freeIndex).length = 6 := by decide
  omega

/-- Binding a name below fewer binders than the reserved index counts makes the printed form
shorter, unless it binds nothing. -/
theorem shortens_capture (name : String) (type : TypeCode) :
    ∀ (depth : Int) (term : Term), 0 ≤ depth → depth + term.nesting < freeIndex →
      Shortens term (term.capture name type depth)
  | depth, .variable other otherType index => fun low below => by
    rw [capture]
    by_cases both : name = other ∧ index = freeIndex
    · rw [if_pos both, both.2]
      intro shown printed
      obtain rfl : other ++ "-" ++ toString freeIndex = shown := Except.ok.inj printed
      have digits := length_index_lt low (by rw [nesting] at below; omega)
      have shorter : (other ++ "-" ++ toString depth).length <
          (other ++ "-" ++ toString freeIndex).length := by
        rw [String.length_append, String.length_append (other ++ "-")]
        omega
      exact ⟨other ++ "-" ++ toString depth, rfl, Nat.le_of_lt shorter,
        fun lengths => absurd lengths (Nat.ne_of_lt shorter)⟩
    · rw [if_neg both]
      exact Shortens.refl _
  | depth, .abstraction other otherType body => fun low below => by
    rw [nesting] at below
    rw [capture]
    exact (shortens_capture name type (depth + 1) body (by omega) (by omega)).abstraction _ _
  | depth, .application function argument => fun low below => by
    rw [nesting] at below
    rw [capture]
    exact (shortens_capture name type depth function low (by omega)).application
      (shortens_capture name type depth argument low (by omega))
  | _, .external function missing arguments => fun _ _ => Shortens.refl _

mutual

/-- A copy is printed shorter than the term, unless it is the term. -/
theorem shortens_shift :
    ∀ (depth : Int) (term : Term), (term.nesting : Int) < freeIndex →
      Shortens term (term.shift 0 depth)
  | depth, .variable name type index => fun _ => by
    rw [shift, Int.add_zero, ite_self]
    exact Shortens.refl _
  | depth, .abstraction name type body => fun low => by
    rw [nesting] at low
    have inside := (shortens_shift (depth + 1) body (by omega)).abstraction name type
    have rebound := shortens_capture name type 1 (body.shift 0 (depth + 1)) Int.one_nonneg
      (by rw [nesting_shift]; omega)
    exact inside.trans (rebound.abstraction name type)
  | depth, .application function argument => fun low => by
    rw [nesting] at low
    exact (shortens_shift depth function (by omega)).application
      (shortens_shift depth argument (by omega))
  | depth, .external function missing arguments => fun low => by
    rw [nesting] at low
    rw [shift]
    by_cases constant : areConstant arguments = true
    · rw [shiftAll_of_areConstant 0 (depth + missing) arguments constant]
      exact Shortens.refl _
    · rw [Bool.not_eq_true] at constant
      have constantAfter := areConstant_shiftAll 0 (depth + missing) arguments
      exact (shortenAll_shiftAll (depth + missing) arguments low).external constant
        (constantAfter.trans constant) function missing

theorem shortenAll_shiftAll :
    ∀ (depth : Int) (terms : List Term), (nestingAll terms : Int) < freeIndex →
      ShortenAll terms (shiftAll 0 depth terms)
  | _, [] => fun _ => shortenAll_nil
  | depth, first :: rest => fun low => by
    rw [nestingAll] at low
    exact (shortens_shift depth first (by omega)).cons
      (shortenAll_shiftAll depth rest (by omega))

end

/-- As long as fewer abstractions stand in each other than the reserved index counts, a copy of a
term is printed like the term exactly if the term is settled. -/
theorem print_copy_eq_iff {term : Term} (low : (term.nesting : Int) < freeIndex) {shown : String}
    (printed : term.print = .ok shown) :
    term.copy.print = .ok shown ↔ term.isSettled = true := by
  constructor
  · intro printedCopy
    obtain ⟨other, otherPrinted, -, same⟩ := shortens_shift 0 term low shown printed
    obtain rfl : other = shown := Except.ok.inj (otherPrinted.symm.trans printedCopy)
    exact isSettled_of_hasBound term low (hasBound_of_shift_eq (same rfl))
  · intro settled
    rw [copy_eq_of_isSettled settled, printed]

end Term

end WordArithmetic
