/-
This file relates the types that are found for terms to simple types.

A term whose type is found, and whose variables are resolved, has a simple type. If functions of
this type return something other than the bottom atom, then the term has no free variable: a free
variable has the bottom atom for its type, no abstraction takes an argument of that type, and so it
shows in the result of every function it stands in. A typed term without free variables has a
meaning, and is read as a plain term that has the same one.
-/

import WordArithmetic.Lambda.Typing
import WordArithmetic.Proofs.Lambda.Denotation
import WordArithmetic.Proofs.Lambda.Encoding
import WordArithmetic.Proofs.Lambda.Written

namespace WordArithmetic

/-! ### Terms without free variables -/

namespace Term

mutual

/-- Whether all variables of a term below binders of these names are bound: their indexes are not
reserved and count to binders of their names. -/
def isBoundIn (names : List String) : Term → Bool
  | .variable name _ index =>
    index != freeIndex && decide (0 < index) && names[(index - 1).toNat]? == some name
  | .abstraction name _ body => body.isBoundIn (name :: names)
  | .application function argument => function.isBoundIn names && argument.isBoundIn names
  | .external _ missing arguments =>
    areBoundIn (List.replicate missing.toNat placeholderName ++ names) arguments

/-- The same for the arguments of an external function. -/
def areBoundIn (names : List String) : List Term → Bool
  | [] => true
  | first :: rest => first.isBoundIn names && areBoundIn names rest

end

end Term

/-- The nearest binder of a name, below abstractions over these names: its type, how many others lie
nearer, and what its variable means. -/
inductive NearestBinder : (context : List (String × SimpleType)) → String → (type : SimpleType) →
    Nat → (Environment (context.map Prod.snd) → type.Meaning) → Prop
  | here {context : List (String × SimpleType)} {name : String} {type : SimpleType} :
      NearestBinder ((name, type) :: context) name type 0 Prod.fst
  | outside {context : List (String × SimpleType)} {name other : String}
      {type otherType : SimpleType} {index : Nat}
      {meaning : Environment (context.map Prod.snd) → type.Meaning} (different : name ≠ other)
      (further : NearestBinder context name type index meaning) :
      NearestBinder ((other, otherType) :: context) name type (index + 1)
        fun values => meaning values.2

/-- A term without free variables has a type and means a function of what the variables of the
abstractions around it mean. -/
inductive HasMeaning : (context : List (String × SimpleType)) → Term → (type : SimpleType) →
    (Environment (context.map Prod.snd) → type.Meaning) → Prop
  | occurrence {context : List (String × SimpleType)} {name : String} {type : SimpleType}
      {index : Nat} {meaning : Environment (context.map Prod.snd) → type.Meaning}
      (binder : NearestBinder context name type index meaning) :
      HasMeaning context (.variable name type.code (index + 1)) type meaning
  | abstraction {context : List (String × SimpleType)} {name : String} {body : Term}
      {argument result : SimpleType}
      {meaning : Environment (((name, argument) :: context).map Prod.snd) → result.Meaning}
      (inside : HasMeaning ((name, argument) :: context) body result meaning) :
      HasMeaning context (.abstraction name argument.code body) (.arrow argument result)
        fun values value => meaning (value, values)
  | application {context : List (String × SimpleType)} {function operand : Term}
      {argument result : SimpleType}
      {left : Environment (context.map Prod.snd) → (SimpleType.arrow argument result).Meaning}
      {right : Environment (context.map Prod.snd) → argument.Meaning}
      (applied : HasMeaning context function (.arrow argument result) left)
      (supplied : HasMeaning context operand argument right) :
      HasMeaning context (.application function operand) result
        fun values => left values (right values)
  | number {context : List (String × SimpleType)} (value : Float) :
      HasMeaning context (Term.number value) .number fun _ => Except.ok value
  | operator {context : List (String × SimpleType)} (operator : Operator) :
      HasMeaning context operator.external.term .operation fun _ => operator.meaning

variable {context : List (String × SimpleType)} {name : String} {term : Term} {type : SimpleType}
  {meaning : Environment (context.map Prod.snd) → type.Meaning}

namespace NearestBinder

theorem getElem? {index : Nat} (binder : NearestBinder context name type index meaning) :
    (context.map Prod.fst)[index]? = some name := by
  induction binder with
  | here => rfl
  | outside _ _ hypothesis => exact hypothesis

theorem means {index : Nat} (binder : NearestBinder context name type index meaning) :
    Means (context.map Prod.snd) (.occurrence index) type meaning := by
  induction binder with
  | here => exact .nearest
  | outside _ _ hypothesis => exact .further hypothesis

/-- A name that no nearer abstraction has is found. -/
theorem of_append {nearer further : List (String × SimpleType)}
    (absent : name ∉ nearer.map Prod.fst) :
    ∃ meaning, NearestBinder (nearer ++ (name, type) :: further) name type nearer.length meaning := by
  induction nearer with
  | nil => exact ⟨_, .here⟩
  | cons entry nearer hypothesis =>
    rw [List.map_cons, List.mem_cons, not_or] at absent
    obtain ⟨meaning, binder⟩ := hypothesis absent.2
    exact ⟨_, .outside absent.1 binder⟩

end NearestBinder

namespace HasMeaning

/-- A typed term without free variables is read as a plain term with the same meaning. -/
theorem exists_plain (has : HasMeaning context term type meaning) :
    ∃ plain, Encodes (context.map Prod.fst) term plain ∧
      Means (context.map Prod.snd) plain type meaning := by
  induction has with
  | occurrence binder =>
    exact ⟨_, Encodes.occurrence binder.getElem? (SimpleType.code_ne_untyped _), binder.means⟩
  | abstraction _ hypothesis =>
    obtain ⟨plain, encodes, means⟩ := hypothesis
    exact ⟨_, Encodes.abstraction encodes, Means.abstraction means⟩
  | application _ _ appliedHypothesis suppliedHypothesis =>
    obtain ⟨left, leftEncodes, leftMeans⟩ := appliedHypothesis
    obtain ⟨right, rightEncodes, rightMeans⟩ := suppliedHypothesis
    exact ⟨_, Encodes.application leftEncodes rightEncodes,
      Means.application leftMeans rightMeans⟩
  | number value => exact ⟨_, Encodes.number value, Means.number value⟩
  | operator operator => exact ⟨_, Encodes.operator operator, Means.operator operator⟩

/-- A term that has a meaning has no free variable, as long as no index has reached the reserved
one. -/
theorem isBoundIn (has : HasMeaning context term type meaning) (below : term.isBelow = true) :
    term.isBoundIn (context.map Prod.fst) = true := by
  induction has with
  | @occurrence context name type index meaning binder =>
    rw [Term.isBelow, beq_false_of_ne type.code_ne_untyped, Bool.false_or,
      decide_eq_true_eq] at below
    have reserved : ((index : Int) + 1 != freeIndex) = true := bne_iff_ne.2 (Int.ne_of_lt below)
    have positive : decide (0 < (index : Int) + 1) = true := decide_eq_true (by omega)
    have place : ((index : Int) + 1 - 1).toNat = index := by omega
    rw [Term.isBoundIn, reserved, positive, place, binder.getElem?]
    exact beq_self_eq_true _
  | abstraction _ hypothesis => exact hypothesis below
  | application _ _ appliedHypothesis suppliedHypothesis =>
    rw [Term.isBelow, Bool.and_eq_true] at below
    rw [Term.isBoundIn, appliedHypothesis below.1, suppliedHypothesis below.2]
    rfl
  | number value => rfl
  | operator operator => rfl

end HasMeaning

/-! ### Types that are found -/

theorem Term.typecheck_abstraction {parameter : TypeCode} {body : Term} {code : TypeCode}
    (typed : (Term.abstraction name parameter body).typecheck = .ok code) :
    ∃ bodyCode, body.typecheck = .ok bodyCode ∧ parameter.concat bodyCode = .ok code := by
  rw [typecheck] at typed
  cases found : body.typecheck with
  | error failure =>
    rw [found] at typed
    cases typed
  | ok bodyCode =>
    rw [found] at typed
    exact ⟨bodyCode, rfl, typed⟩

theorem Term.typecheck_application {function operand : Term} {code : TypeCode}
    (typed : (Term.application function operand).typecheck = .ok code) :
    ∃ functionCode operandCode, function.typecheck = .ok functionCode ∧
      operand.typecheck = .ok operandCode ∧ TypeCode.application functionCode operandCode = code := by
  rw [typecheck] at typed
  cases functionFound : function.typecheck with
  | error failure =>
    rw [functionFound] at typed
    cases typed
  | ok functionCode =>
    cases operandFound : operand.typecheck with
    | error failure =>
      rw [functionFound, operandFound] at typed
      cases typed
    | ok operandCode =>
      rw [functionFound, operandFound] at typed
      exact ⟨functionCode, operandCode, rfl, rfl, Except.ok.inj typed⟩

/-- A term whose type is found has a simple type, and a meaning unless functions of this type return
the bottom atom. -/
theorem Resolved.hasMeaning (resolved : Resolved context term)
    (known : ∀ entry ∈ context, entry.2.isWritten = true) (below : term.isBelow = true)
    {code : TypeCode} (typed : term.typecheck = .ok code) (fits : code ≠ TypeCode.untyped) :
    ∃ type : SimpleType, code = type.code ∧ type.takesWritten = true ∧
      (type.resultName ≠ SimpleType.bottomName →
        ∃ meaning, HasMeaning context term type meaning) := by
  induction resolved generalizing code with
  | free absent =>
    obtain rfl := Except.ok.inj typed
    exact ⟨.atom SimpleType.bottomName, rfl, rfl, fun other => absurd rfl other⟩
  | @bound nearer further name type absent =>
    obtain rfl := Except.ok.inj typed
    have written := known (name, type) (List.mem_append_right _ (List.mem_cons_self ..))
    refine ⟨type, rfl, SimpleType.takesWritten_of_isWritten written, fun _ => ?_⟩
    obtain ⟨meaning, binder⟩ := NearestBinder.of_append absent
    exact ⟨meaning, .occurrence binder⟩
  | lost name some reached _ =>
    rw [Term.isBelow, beq_false_of_ne some, Bool.false_or, decide_eq_true_eq] at below
    omega
  | @abstraction context name argument body written inside hypothesis =>
    obtain ⟨bodyCode, found, joined⟩ := Term.typecheck_abstraction typed
    -- no function type can be written for a body without type
    have bodyFits : bodyCode ≠ TypeCode.untyped := by
      rintro rfl
      cases joined
    have bodyKnown : ∀ entry ∈ (name, argument) :: context, entry.2.isWritten = true :=
      List.forall_mem_cons.2 ⟨written, known⟩
    obtain ⟨result, rfl, takes, hasMeaning⟩ := hypothesis bodyKnown below found bodyFits
    rw [SimpleType.concat_code] at joined
    obtain rfl := Except.ok.inj joined
    refine ⟨.arrow argument result, rfl, (Bool.and_eq_true _ _).mpr ⟨written, takes⟩, ?_⟩
    intro other
    obtain ⟨meaning, has⟩ := hasMeaning other
    exact ⟨_, .abstraction has⟩
  | @application context function operand applied supplied functionHypothesis operandHypothesis =>
    rw [Term.isBelow, Bool.and_eq_true] at below
    obtain ⟨functionCode, operandCode, functionFound, operandFound, rfl⟩ :=
      Term.typecheck_application typed
    have functionFits : functionCode ≠ TypeCode.untyped := by
      rintro rfl
      exact fits (SimpleType.application_untyped_left _)
    have operandFits : operandCode ≠ TypeCode.untyped := by
      rintro rfl
      exact fits (SimpleType.application_untyped_right _)
    obtain ⟨functionType, rfl, functionTakes, functionHas⟩ :=
      functionHypothesis known below.1 functionFound functionFits
    obtain ⟨argument, rfl, _, operandHas⟩ :=
      operandHypothesis known below.2 operandFound operandFits
    obtain ⟨result, rfl, same⟩ := SimpleType.application_eq rfl fits
    obtain ⟨argumentWritten, takes⟩ := (Bool.and_eq_true _ _).mp functionTakes
    refine ⟨result, same, takes, fun other => ?_⟩
    obtain ⟨left, functionMeaning⟩ := functionHas other
    -- what a function takes can be written, so the operand has no free variable either
    obtain ⟨right, operandMeaning⟩ :=
      operandHas (SimpleType.resultName_ne_bottomName argumentWritten)
    exact ⟨_, .application functionMeaning operandMeaning⟩
  | number value =>
    obtain rfl := Except.ok.inj typed
    exact ⟨.number, rfl, rfl, fun _ => ⟨_, .number value⟩⟩
  | operator operator =>
    obtain rfl := Except.ok.inj typed
    exact ⟨.operation, rfl, rfl, fun _ => ⟨_, .operator operator⟩⟩

/-- A written term that is a number has a meaning, and so no free variable. -/
theorem Term.Written.hasMeaning {term : Term} (written : term.Written)
    (below : term.isBelow = true) (typed : term.typecheck = .ok TypeCode.number) :
    ∃ meaning, HasMeaning [] term .number meaning := by
  have nothing : ∀ entry ∈ ([] : List (String × SimpleType)), entry.2.isWritten = true :=
    fun _ member => absurd member List.not_mem_nil
  obtain ⟨type, same, _, hasMeaning⟩ :=
    written.resolved.hasMeaning nothing below typed SimpleType.number.code_ne_untyped
  obtain rfl : SimpleType.number = type := SimpleType.code_injective same
  exact hasMeaning (by decide)

end WordArithmetic
