/-
This file reads written types as simple types.

A simple type is an atom or a function type. Its written form splices an argument of one part into
the tuple and brackets any other one, and this loses nothing: different types are written
differently, and the operations on written types are those on simple types. The atom of free
variables is the bottom symbol, which no program can write, so a type that a program writes is told
from the type of a term with a free variable.
-/

import WordArithmetic.Lambda.TypeCode

namespace WordArithmetic

/-- A simple type. -/
inductive SimpleType where
  | atom (name : String)
  | arrow (argument result : SimpleType)
deriving DecidableEq

namespace SimpleType

/-- The type of numbers. -/
def number : SimpleType := atom "num"

/-- The name of the atom of free variables. -/
def bottomName : String := "⊥"

/-- The parts of the written form of a type. -/
def parts : SimpleType → List Symbol
  | atom name => [.name name]
  | arrow argument result => TypeCode.arrow argument.parts result.parts

/-- The written form of a type. -/
def code (type : SimpleType) : TypeCode :=
  .tuple type.parts

/-- An argument as it stands in the written form of a function type. -/
def part : SimpleType → Symbol
  | atom name => .name name
  | arrow argument result => .tuple (TypeCode.arrow argument.parts result.parts)

/-- Whether a program can write a type. -/
def isWritten : SimpleType → Bool
  | atom name => name != bottomName
  | arrow argument result => argument.isWritten && result.isWritten

/-- Whether a program can write what functions of a type take. -/
def takesWritten : SimpleType → Bool
  | atom _ => true
  | arrow argument result => argument.isWritten && result.takesWritten

/-- The name of the atom that functions of a type return in the end. -/
def resultName : SimpleType → String
  | atom name => name
  | arrow _ result => result.resultName

theorem resultName_ne_bottomName {type : SimpleType} (written : type.isWritten = true) :
    type.resultName ≠ bottomName := by
  induction type with
  | atom name => exact bne_iff_ne.1 written
  | arrow argument result _ hypothesis =>
    exact hypothesis ((Bool.and_eq_true _ _).mp written).2

theorem takesWritten_of_isWritten {type : SimpleType} (written : type.isWritten = true) :
    type.takesWritten = true := by
  induction type with
  | atom name => rfl
  | arrow argument result _ hypothesis =>
    obtain ⟨argumentWritten, resultWritten⟩ := (Bool.and_eq_true _ _).mp written
    exact (Bool.and_eq_true _ _).mpr ⟨argumentWritten, hypothesis resultWritten⟩

/-! ### Written forms -/

theorem parts_ne_nil (type : SimpleType) : type.parts ≠ [] := by
  cases type with
  | atom name => exact List.cons_ne_nil _ _
  | arrow argument result =>
    rw [parts, TypeCode.arrow]
    split
    · rename_i single
      intro empty
      rw [(List.append_eq_nil_iff.1 empty).1] at single
      cases single
    · exact List.cons_ne_nil _ _

/-- The written form of a function type has more than one part. -/
theorem length_parts_arrow (argument result : SimpleType) :
    1 < (arrow argument result).parts.length := by
  have filled := List.length_pos_iff.2 result.parts_ne_nil
  rw [parts, TypeCode.arrow]
  split
  · rename_i single
    rw [List.length_append, beq_iff_eq.1 single]
    omega
  · rw [List.length_cons]
    omega

/-- The written form of a function type starts with its argument. -/
theorem parts_arrow (argument result : SimpleType) :
    (arrow argument result).parts = argument.part :: result.parts := by
  cases argument with
  | atom name => rfl
  | arrow first second =>
    have several := length_parts_arrow first second
    rw [parts, TypeCode.arrow, if_neg (by rw [beq_iff_eq]; omega)]
    rfl

theorem addBrackets_part (type : SimpleType) : TypeCode.addBrackets type.part = type.code := by
  cases type with
  | atom name => rfl
  | arrow argument result => rfl

/-- Different types are written differently. -/
theorem parts_injective {left right : SimpleType} (same : left.parts = right.parts) :
    left = right := by
  induction left generalizing right with
  | atom name =>
    cases right with
    | atom other =>
      rw [parts, parts] at same
      have names := (List.cons.inj same).1
      cases names
      rfl
    | arrow argument result =>
      have several := length_parts_arrow argument result
      rw [← same] at several
      exact absurd several (Nat.lt_irrefl 1)
  | arrow argument result argumentHypothesis resultHypothesis =>
    cases right with
    | atom other =>
      have several := length_parts_arrow argument result
      rw [same] at several
      exact absurd several (Nat.lt_irrefl 1)
    | arrow otherArgument otherResult =>
      rw [parts_arrow, parts_arrow] at same
      obtain ⟨first, rest⟩ := List.cons.inj same
      have brackets := congrArg TypeCode.addBrackets first
      rw [addBrackets_part, addBrackets_part] at brackets
      rw [argumentHypothesis (Symbol.tuple.inj brackets), resultHypothesis rest]

theorem code_injective {left right : SimpleType} (same : left.code = right.code) : left = right :=
  parts_injective (Symbol.tuple.inj same)

theorem code_ne_untyped (type : SimpleType) : type.code ≠ TypeCode.untyped := nofun

theorem addBrackets_code (type : SimpleType) : TypeCode.addBrackets type.code = type.code := rfl

/-! ### Operations on written forms -/

theorem concat_code (argument result : SimpleType) :
    TypeCode.concat argument.code result.code = .ok (arrow argument result).code := rfl

/-- The type of an abstraction tells that of its body. -/
theorem eq_of_concat_eq {argument result : SimpleType} {code : TypeCode}
    (joined : TypeCode.concat argument.code code = .ok (arrow argument result).code) :
    code = result.code := by
  cases code with
  | name text => cases joined
  | tuple parts =>
    have same : TypeCode.arrow argument.parts parts = TypeCode.arrow argument.parts result.parts :=
      Symbol.tuple.inj (Except.ok.inj joined)
    rw [TypeCode.arrow, TypeCode.arrow] at same
    split at same
    · rw [List.append_cancel_left same]
      rfl
    · rw [(List.cons.inj same).2]
      rfl

theorem stripBrackets_code (type : SimpleType) : TypeCode.stripBrackets type.code = type.code := by
  cases type with
  | atom name => rfl
  | arrow argument result =>
    have filled := result.parts_ne_nil
    rw [code, parts_arrow]
    cases rest : result.parts with
    | nil => exact absurd rest filled
    | cons first others => cases argument <;> rfl

theorem length_code_ne_zero (type : SimpleType) : type.code.length ≠ 0 := by
  rw [code, TypeCode.length, Ne, List.length_eq_zero_iff]
  exact type.parts_ne_nil

/-- A function applied to an argument of the type that it takes leaves its result. -/
theorem application_code (argument result : SimpleType) :
    TypeCode.application (arrow argument result).code argument.code = result.code := by
  have filled : (argument.code.length == 0) = false := by
    rw [beq_eq_false_iff_ne]
    exact length_code_ne_zero argument
  have uncons : TypeCode.uncons? (arrow argument result).code =
      some (argument.part, result.code) := by
    rw [code, parts_arrow]
    rfl
  have resultFilled : (result.code.length != 0) = true := bne_iff_ne.2 (length_code_ne_zero result)
  rw [TypeCode.application, filled, beq_false_of_ne (code_ne_untyped _),
    beq_false_of_ne (code_ne_untyped _), Bool.or_false, Bool.or_false, if_neg Bool.false_ne_true,
    uncons]
  simp only [addBrackets_part, stripBrackets_code, resultFilled, beq_self_eq_true, Bool.and_true,
    if_true]

/-- A function applied to what it does not take leaves no type. -/
theorem application_of_ne {argument : SimpleType} {code : TypeCode} (different : argument.code ≠ code)
    (result : SimpleType) :
    TypeCode.application (arrow argument result).code code = TypeCode.untyped := by
  have uncons : TypeCode.uncons? (arrow argument result).code =
      some (argument.part, result.code) := by
    rw [SimpleType.code, parts_arrow]
    rfl
  rw [TypeCode.application]
  split
  · rfl
  · rw [uncons]
    simp only [addBrackets_part, beq_false_of_ne different, Bool.false_and, Bool.false_eq_true,
      if_false]

/-- What is applied to an argument and leaves a type is a function that takes it. -/
theorem application_eq {function argument : SimpleType} {result : TypeCode}
    (typed : TypeCode.application function.code argument.code = result)
    (some : result ≠ TypeCode.untyped) :
    ∃ rest, function = arrow argument rest ∧ result = rest.code := by
  cases function with
  | atom name =>
    have absent : TypeCode.application (atom name).code argument.code = TypeCode.untyped := by
      rw [TypeCode.application]
      split
      · rfl
      · show (if TypeCode.addBrackets (.name name) == argument.code && (0 : Nat) != 0 then _
          else TypeCode.untyped) = TypeCode.untyped
        rw [bne_self_eq_false, Bool.and_false, if_neg Bool.false_ne_true]
    exact absurd (typed.symm.trans absent) some
  | arrow taken rest =>
    by_cases same : taken = argument
    · subst same
      rw [application_code] at typed
      exact ⟨rest, rfl, typed.symm⟩
    · have absent := application_of_ne (fun equal => same (code_injective equal)) rest
      exact absurd (typed.symm.trans absent) some

theorem application_untyped_left (argument : TypeCode) :
    TypeCode.application TypeCode.untyped argument = TypeCode.untyped := by
  rw [TypeCode.application, beq_self_eq_true, Bool.or_true, Bool.true_or, if_pos rfl]

theorem application_untyped_right (function : TypeCode) :
    TypeCode.application function TypeCode.untyped = TypeCode.untyped := by
  rw [TypeCode.application, beq_self_eq_true, Bool.or_true, if_pos rfl]

end SimpleType

end WordArithmetic
