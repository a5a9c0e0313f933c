/-
This file types plain terms and says what they mean.

Numbers mean what it takes to compute them, which is a float or the failure of a division, and
functions mean functions. A typed term means a function of what its free variables mean, and the
judgement `Means` builds the type and the meaning together, so that no meaning has to be read off a
derivation. Renaming, substituting and taking steps keep both. What an operator means fails if one
of its operands fails, but a function that drops its argument drops its failure too.
-/

import WordArithmetic.Lambda.Evaluation
import WordArithmetic.Proofs.Lambda.Plain
import WordArithmetic.Proofs.Lambda.SimpleType

namespace WordArithmetic

/-- What the terms of a type can mean. -/
def SimpleType.Meaning : SimpleType → Type
  | .atom _ => Except Failure Float
  | .arrow argument result => argument.Meaning → result.Meaning

/-- Meanings of the free variables of given types, the nearest one first. -/
def Environment : List SimpleType → Type
  | [] => Unit
  | type :: context => type.Meaning × Environment context

/-- The type of the operators. -/
def SimpleType.operation : SimpleType :=
  .arrow .number (.arrow .number .number)

/-- What an operator means: it computes once both operands are there. -/
def Operator.meaning (operator : Operator) : SimpleType.operation.Meaning :=
  fun (left right : Except Failure Float) => do operator.apply (← left) (← right)

/-- A plain term has a type and means a function of the meanings of its free variables. -/
inductive Means : (context : List SimpleType) → PlainTerm → (type : SimpleType) →
    (Environment context → type.Meaning) → Prop
  | nearest {context : List SimpleType} {type : SimpleType} :
      Means (type :: context) (.occurrence 0) type Prod.fst
  | further {context : List SimpleType} {index : Nat} {type other : SimpleType}
      {meaning : Environment context → type.Meaning}
      (outside : Means context (.occurrence index) type meaning) :
      Means (other :: context) (.occurrence (index + 1)) type fun values => meaning values.2
  | abstraction {context : List SimpleType} {body : PlainTerm} {argument result : SimpleType}
      {meaning : Environment (argument :: context) → result.Meaning}
      (inside : Means (argument :: context) body result meaning) :
      Means context (.abstraction body) (.arrow argument result)
        fun values value => meaning (value, values)
  | application {context : List SimpleType} {function operand : PlainTerm}
      {argument result : SimpleType}
      {left : Environment context → (SimpleType.arrow argument result).Meaning}
      {right : Environment context → argument.Meaning}
      (applied : Means context function (.arrow argument result) left)
      (supplied : Means context operand argument right) :
      Means context (.application function operand) result fun values => left values (right values)
  | number {context : List SimpleType} (value : Float) :
      Means context (.number value) .number fun _ => Except.ok value
  | operator {context : List SimpleType} (operator : Operator) :
      Means context (.operator operator) .operation fun _ => operator.meaning

namespace Means

variable {context target : List SimpleType} {term next : PlainTerm} {type : SimpleType}
  {meaning : Environment context → type.Meaning}

/-- A renaming that takes variables to variables of the same types and meanings keeps types and
meanings. -/
theorem rename (means : Means context term type meaning) {change : Nat → Nat}
    (pull : Environment target → Environment context)
    (each : ∀ {index : Nat} {type : SimpleType} {meaning : Environment context → type.Meaning},
      Means context (.occurrence index) type meaning →
        Means target (.occurrence (change index)) type (meaning ∘ pull)) :
    Means target (term.rename change) type (meaning ∘ pull) := by
  induction means generalizing target change with
  | nearest => exact each .nearest
  | further outside => exact each (.further outside)
  | @abstraction context body argument result meaning inside hypothesis =>
    have lifted : ∀ {index : Nat} {type : SimpleType}
        {meaning : Environment (argument :: context) → type.Meaning},
        Means (argument :: context) (.occurrence index) type meaning →
          Means (argument :: target) (.occurrence (PlainTerm.liftRenaming change index)) type
            (meaning ∘ fun values => (values.1, pull values.2)) := by
      intro index type meaning known
      cases known with
      | nearest => exact .nearest
      | further outside => exact .further (each outside)
    exact .abstraction (hypothesis
      (fun values : Environment (argument :: target) => (values.1, pull values.2)) lifted)
  | application _ _ appliedHypothesis suppliedHypothesis =>
    exact .application (appliedHypothesis pull each) (suppliedHypothesis pull each)
  | number value => exact .number value
  | operator operator => exact .operator operator

/-- A typed term may stand below one more binder. -/
theorem weaken (means : Means context term type meaning) (other : SimpleType) :
    Means (other :: context) (term.rename Nat.succ) type fun values => meaning values.2 :=
  means.rename (fun values : Environment (other :: context) => values.2) fun known =>
    .further known

/-- A substitution that takes variables to terms of the same types and meanings keeps types and
meanings. -/
theorem substitute (means : Means context term type meaning) {substitution : Nat → PlainTerm}
    (pull : Environment target → Environment context)
    (each : ∀ {index : Nat} {type : SimpleType} {meaning : Environment context → type.Meaning},
      Means context (.occurrence index) type meaning →
        Means target (substitution index) type (meaning ∘ pull)) :
    Means target (term.substitute substitution) type (meaning ∘ pull) := by
  induction means generalizing target substitution with
  | nearest => exact each .nearest
  | further outside => exact each (.further outside)
  | @abstraction context body argument result meaning inside hypothesis =>
    have lifted : ∀ {index : Nat} {type : SimpleType}
        {meaning : Environment (argument :: context) → type.Meaning},
        Means (argument :: context) (.occurrence index) type meaning →
          Means (argument :: target) (PlainTerm.liftSubstitution substitution index) type
            (meaning ∘ fun values => (values.1, pull values.2)) := by
      intro index type meaning known
      cases known with
      | nearest => exact .nearest
      | further outside => exact (each outside).weaken argument
    exact .abstraction (hypothesis
      (fun values : Environment (argument :: target) => (values.1, pull values.2)) lifted)
  | application _ _ appliedHypothesis suppliedHypothesis =>
    exact .application (appliedHypothesis pull each) (suppliedHypothesis pull each)
  | number value => exact .number value
  | operator operator => exact .operator operator

/-- Putting a term in the place of the nearest variable makes this variable mean what the term
means. -/
theorem instantiate {body argument : PlainTerm} {other : SimpleType}
    {inside : Environment (other :: context) → type.Meaning}
    {value : Environment context → other.Meaning} (means : Means (other :: context) body type inside)
    (supplied : Means context argument other value) :
    Means context (body.instantiate argument) type fun values => inside (value values, values) := by
  refine means.substitute (fun values => (value values, values)) ?_
  intro index type meaning known
  cases known with
  | nearest => exact supplied
  | further outside => exact outside

/-- Steps keep types and meanings. -/
theorem step (means : Means context term type meaning) (step : PlainTerm.Step term next) :
    Means context next type meaning := by
  induction step generalizing context type with
  | contract body argument =>
    cases means with
    | application applied supplied =>
      cases applied with
      | abstraction inside => exact inside.instantiate supplied
  | body _ hypothesis =>
    cases means with
    | abstraction inside => exact .abstraction (hypothesis inside)
  | function _ hypothesis =>
    cases means with
    | application applied supplied => exact .application (hypothesis applied) supplied
  | argument _ hypothesis =>
    cases means with
    | application applied supplied => exact .application applied (hypothesis supplied)

theorem steps (means : Means context term type meaning) (steps : PlainTerm.Steps term next) :
    Means context next type meaning := by
  induction steps with
  | refl => exact means
  | tail _ step hypothesis => exact hypothesis.step step

end Means

end WordArithmetic
