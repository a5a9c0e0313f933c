/-
This file shows how values behave as keys.

Equality as keys is stated on what values are made of, and comparing values decides it. It is
symmetric and transitive. An undefined number equals itself and nothing else, inside tuples too. An
undefined float, which stands nowhere else, equals none of the values that it is compared with, so
equality is not reflexive. A value is no key if it is a list or a record, or a tuple with such a
part, at any depth.
-/

import WordArithmetic.Proofs.Number.Comparison
import WordArithmetic.Value

namespace WordArithmetic

namespace Value

/-! ### Induction -/

/-- The parts of a tuple or a list. -/
def parts : Value → List Value
  | .tuple parts | .list parts => parts
  | _ => []

/-- What holds of a value if it holds of its parts holds of all values. -/
theorem induction {holds : Value → Prop}
    (step : ∀ value, (∀ part ∈ value.parts, holds part) → holds value) (value : Value) :
    holds value :=
  step value fun part member =>
    have _ : sizeOf part < sizeOf value := by
      cases value with
      | tuple members | list members =>
        have smaller : sizeOf part < sizeOf members := List.sizeOf_lt_of_mem member
        simp only [tuple.sizeOf_spec, list.sizeOf_spec]
        omega
      | _ => cases member
    induction step part
termination_by sizeOf value

/-! ### Equality as keys -/

mutual

/-- Equality of values as keys: nothing differs in what they are made of, or they are numbers that
stand for one point of the line. -/
inductive IsEqual : Value → Value → Prop
  | absent : IsEqual .absent .absent
  | text (written : String) : IsEqual (.text written) (.text written)
  | number {left right : Value} {point : ExtendedRat} (defined : point ≠ .undefined)
      (numberLeft : left.number? = some point) (numberRight : right.number? = some point) :
      IsEqual left right
  | undefined (object : Nat) : IsEqual (.undefined object) (.undefined object)
  | tuple {lefts rights : List Value} (parts : AreEqual lefts rights) :
      IsEqual (.tuple lefts) (.tuple rights)
  | list {lefts rights : List Value} (parts : AreEqual lefts rights) :
      IsEqual (.list lefts) (.list rights)

/-- Equality of the parts of two values, one by one. -/
inductive AreEqual : List Value → List Value → Prop
  | nil : AreEqual [] []
  | cons {left right : Value} {lefts rights : List Value} (first : IsEqual left right)
      (rest : AreEqual lefts rights) : AreEqual (left :: lefts) (right :: rights)

end

theorem sameAll_iff {lefts rights : List Value}
    (each : ∀ left ∈ lefts, ∀ {right}, left.same right = true ↔ left.IsEqual right) :
    sameAll lefts rights = true ↔ AreEqual lefts rights := by
  induction lefts generalizing rights with
  | nil =>
    cases rights with
    | nil => exact iff_of_true rfl .nil
    | cons right rights => exact iff_of_false Bool.false_ne_true nofun
  | cons left lefts hypothesis =>
    cases rights with
    | nil => exact iff_of_false Bool.false_ne_true nofun
    | cons right rights =>
      obtain ⟨first, rest⟩ := List.forall_mem_cons.1 each
      rw [sameAll, Bool.and_eq_true, first, hypothesis rest]
      exact ⟨fun ⟨here, there⟩ => .cons here there, fun | .cons here there => ⟨here, there⟩⟩

/-- The comparison of values decides whether they are equal as keys. -/
theorem same_iff {left right : Value} : left.same right = true ↔ left.IsEqual right := by
  induction left using induction generalizing right with
  | step left hypothesis =>
    constructor
    · intro equal
      unfold same at equal
      split at equal
      · exact .absent
      · obtain rfl := beq_iff_eq.1 equal
        exact .undefined _
      · obtain rfl := beq_iff_eq.1 equal
        exact .text _
      · exact .tuple ((sameAll_iff hypothesis).1 equal)
      · exact .list ((sameAll_iff hypothesis).1 equal)
      · split at equal
        · rename_i numberLeft numberRight
          obtain ⟨defined, rfl⟩ := ExtendedRat.same_iff.1 equal
          exact .number defined numberLeft numberRight
        · cases equal
    · intro equal
      cases equal with
      | absent => rfl
      | text written => exact beq_self_eq_true written
      | undefined object => exact beq_self_eq_true object
      | tuple parts => exact (sameAll_iff hypothesis).2 parts
      | list parts => exact (sameAll_iff hypothesis).2 parts
      | number defined numberLeft numberRight =>
        unfold same
        split
        · cases numberLeft
        · exact absurd (Option.some.inj numberLeft).symm defined
        · cases numberLeft
        · cases numberLeft
        · cases numberLeft
        · rw [numberLeft, numberRight]
          exact ExtendedRat.same_iff.2 ⟨defined, rfl⟩

mutual

/-- Equality as keys is symmetric. -/
theorem IsEqual.symm {left right : Value} : left.IsEqual right → right.IsEqual left
  | .absent => .absent
  | .text written => .text written
  | .number defined numberLeft numberRight => .number defined numberRight numberLeft
  | .undefined object => .undefined object
  | .tuple parts => .tuple parts.symm
  | .list parts => .list parts.symm

theorem AreEqual.symm {lefts rights : List Value} : AreEqual lefts rights → AreEqual rights lefts
  | .nil => .nil
  | .cons first rest => .cons first.symm rest.symm

end

mutual

/-- Equality as keys is transitive. -/
theorem IsEqual.trans {left middle right : Value} :
    left.IsEqual middle → middle.IsEqual right → left.IsEqual right
  | .absent, equal => equal
  | .text _, equal => equal
  | .undefined _, equal => equal
  | .number defined numberLeft numberMiddle, equal => by
    cases equal with
    | number _ numberAgain numberRight =>
      obtain rfl := Option.some.inj (numberMiddle.symm.trans numberAgain)
      exact .number defined numberLeft numberRight
    | undefined => exact .number defined numberLeft numberMiddle
    | _ => cases numberMiddle
  | .tuple parts, .tuple others => .tuple (parts.trans others)
  | .list parts, .list others => .list (parts.trans others)
  | .tuple _, .number _ number _ => nomatch number
  | .list _, .number _ number _ => nomatch number

theorem AreEqual.trans {lefts middles rights : List Value} :
    AreEqual lefts middles → AreEqual middles rights → AreEqual lefts rights
  | .nil, .nil => .nil
  | .cons first rest, .cons second others => .cons (first.trans second) (rest.trans others)

end

/-- An undefined number equals itself and nothing else, whatever other undefined numbers there
are. -/
theorem isEqual_undefined_iff {object : Nat} {other : Value} :
    (undefined object).IsEqual other ↔ other = undefined object := by
  constructor
  · intro equal
    cases equal with
    | number defined number _ => exact absurd (Option.some.inj number).symm defined
    | undefined => rfl
  · rintro rfl
    exact .undefined object

/-- An undefined float that stands nowhere else equals nothing that it is compared with. -/
theorem not_isEqual_of_undefined {number : Float}
    (without : .ofFloat number = ExtendedRat.undefined) (other : Value) : ¬ (float number).IsEqual other := by
  intro equal
  cases equal with
  | number defined point _ => exact defined ((Option.some.inj point).symm.trans without)

/-- Numbers of all kinds are compared by what they stand for, inside tuples too, and undefined
numbers by which one they are. -/
example : (tuple [integer 1, undefined 0]).same (tuple [truth true, undefined 0]) = true ∧
    (tuple [integer 1, undefined 0]).same (tuple [float 1.0, undefined 1]) = false := by
  decide +kernel

/-! ### Values that are no keys -/

/-- A value that cannot be a key: a list, a record, or a tuple with such a part. -/
inductive IsUnhashable : Value → Prop
  | list (parts : List Value) : IsUnhashable (.list parts)
  | record (fields : List (String × Value)) : IsUnhashable (.record fields)
  | tuple {parts : List Value} {part : Value} (member : part ∈ parts)
      (unhashable : IsUnhashable part) : IsUnhashable (.tuple parts)

theorem isSome_unhashableAll? {members : List Value} :
    (unhashableAll? members).isSome = true ↔ ∃ part ∈ members, part.unhashable?.isSome = true := by
  induction members with
  | nil => exact iff_of_false Bool.false_ne_true fun ⟨_, member, _⟩ => by cases member
  | cons first rest hypothesis =>
    rw [unhashableAll?, Option.isSome_or, Bool.or_eq_true, hypothesis]
    exact (List.exists_mem_cons_iff (fun part => part.unhashable?.isSome = true) first rest).symm

/-- The search for an obstacle finds one in the values that are no keys, and only in them. -/
theorem isSome_unhashable? {value : Value} :
    value.unhashable?.isSome = true ↔ value.IsUnhashable := by
  induction value using induction with
  | step value hypothesis =>
    cases value with
    | list members => exact iff_of_true rfl (.list members)
    | record fields => exact iff_of_true rfl (.record fields)
    | tuple members =>
      rw [unhashable?, isSome_unhashableAll?]
      constructor
      · rintro ⟨part, member, obstacle⟩
        exact .tuple member ((hypothesis part member).1 obstacle)
      · intro unhashable
        cases unhashable with
        | tuple member inside => exact ⟨_, member, (hypothesis _ member).2 inside⟩
    | _ => exact iff_of_false Bool.false_ne_true nofun

end Value

end WordArithmetic
