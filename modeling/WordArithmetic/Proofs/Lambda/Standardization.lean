/-
This file shows that steps at the head of a term can be taken first.

A step at the head contracts the application that evaluation by name would contract next. Whatever
steps lead from one term to another, steps at the head alone lead from the first to a term of the
same form as the second, and the parts of that term lead to the parts of the second in the same way.
So what evaluation by name sees of a term is not changed by steps that are taken inside.
-/

import WordArithmetic.Proofs.Lambda.Plain

namespace WordArithmetic

namespace PlainTerm

/-! ### Steps at the head -/

/-- The application of an abstraction at the head of a term is contracted. -/
inductive HeadStep : PlainTerm → PlainTerm → Prop
  | contract (body argument : PlainTerm) :
      HeadStep (application (abstraction body) argument) (body.instantiate argument)
  | function {function next argument : PlainTerm} (step : HeadStep function next) :
      HeadStep (application function argument) (application next argument)

theorem HeadStep.rename {term next : PlainTerm} (step : HeadStep term next) (change : Nat → Nat) :
    HeadStep (term.rename change) (next.rename change) := by
  induction step with
  | contract body argument =>
    rw [rename_instantiate]
    exact HeadStep.contract _ _
  | function _ hypothesis => exact HeadStep.function hypothesis

theorem HeadStep.substitute {term next : PlainTerm} (step : HeadStep term next)
    (substitution : Nat → PlainTerm) :
    HeadStep (term.substitute substitution) (next.substitute substitution) := by
  induction step with
  | contract body argument =>
    rw [substitute_instantiate]
    exact HeadStep.contract _ _
  | function _ hypothesis => exact HeadStep.function hypothesis

/-- Any number of steps at the head. -/
abbrev HeadSteps : PlainTerm → PlainTerm → Prop :=
  Relation.ReflTransGen HeadStep

theorem HeadSteps.function {function next : PlainTerm} (steps : HeadSteps function next)
    (argument : PlainTerm) :
    HeadSteps (application function argument) (application next argument) :=
  steps.lift (fun term => application term argument) fun _ _ step => HeadStep.function step

theorem HeadSteps.rename {term next : PlainTerm} (steps : HeadSteps term next)
    (change : Nat → Nat) : HeadSteps (term.rename change) (next.rename change) :=
  steps.lift (PlainTerm.rename change) fun _ _ step => step.rename change

theorem HeadSteps.substitute {term next : PlainTerm} (steps : HeadSteps term next)
    (substitution : Nat → PlainTerm) :
    HeadSteps (term.substitute substitution) (next.substitute substitution) :=
  steps.lift (PlainTerm.substitute substitution) fun _ _ step => step.substitute substitution

/-! ### Steps at the head first -/

/-- A term leads to another one by steps at the head, and then by steps inside its parts that are
again put in this order. -/
inductive Standard : PlainTerm → PlainTerm → Prop
  | occurrence {term : PlainTerm} {index : Nat} (head : HeadSteps term (occurrence index)) :
      Standard term (occurrence index)
  | abstraction {term body next : PlainTerm} (head : HeadSteps term (abstraction body))
      (inside : Standard body next) : Standard term (abstraction next)
  | application {term function argument nextFunction nextArgument : PlainTerm}
      (head : HeadSteps term (application function argument))
      (applied : Standard function nextFunction) (supplied : Standard argument nextArgument) :
      Standard term (application nextFunction nextArgument)
  | number {term : PlainTerm} {value : Float} (head : HeadSteps term (number value)) :
      Standard term (number value)
  | operator {term : PlainTerm} {sign : Operator} (head : HeadSteps term (operator sign)) :
      Standard term (operator sign)

namespace Standard

variable {term next last : PlainTerm}

theorem refl (term : PlainTerm) : Standard term term := by
  induction term with
  | occurrence index => exact .occurrence .refl
  | abstraction body hypothesis => exact .abstraction .refl hypothesis
  | application function argument functionHypothesis argumentHypothesis =>
    exact .application .refl functionHypothesis argumentHypothesis
  | number value => exact .number .refl
  | operator sign => exact .operator .refl

/-- More steps at the head may come before. -/
theorem of_headSteps (steps : HeadSteps term next) (standard : Standard next last) :
    Standard term last := by
  cases standard with
  | occurrence head => exact .occurrence (steps.trans head)
  | abstraction head inside => exact .abstraction (steps.trans head) inside
  | application head applied supplied => exact .application (steps.trans head) applied supplied
  | number head => exact .number (steps.trans head)
  | operator head => exact .operator (steps.trans head)

theorem rename (standard : Standard term next) (change : Nat → Nat) :
    Standard (term.rename change) (next.rename change) := by
  induction standard generalizing change with
  | occurrence head => exact .occurrence (head.rename change)
  | abstraction head _ hypothesis => exact .abstraction (head.rename change) (hypothesis _)
  | application head _ _ functionHypothesis argumentHypothesis =>
    exact .application (head.rename change) (functionHypothesis change) (argumentHypothesis change)
  | number head => exact .number (head.rename change)
  | operator head => exact .operator (head.rename change)

/-- Steps in a term and in what is substituted in it can be put in order together. -/
theorem substitute (standard : Standard term next) {first second : Nat → PlainTerm}
    (each : ∀ index, Standard (first index) (second index)) :
    Standard (term.substitute first) (next.substitute second) := by
  induction standard generalizing first second with
  | @occurrence term index head => exact of_headSteps (head.substitute first) (each index)
  | abstraction head _ hypothesis =>
    refine .abstraction (head.substitute first) (hypothesis fun index => ?_)
    cases index with
    | zero => exact refl _
    | succ index => exact (each index).rename Nat.succ
  | application head _ _ functionHypothesis argumentHypothesis =>
    exact .application (head.substitute first) (functionHypothesis each) (argumentHypothesis each)
  | number head => exact .number (head.substitute first)
  | operator head => exact .operator (head.substitute first)

theorem instantiate {argument nextArgument : PlainTerm} (inside : Standard term next)
    (supplied : Standard argument nextArgument) :
    Standard (term.instantiate argument) (next.instantiate nextArgument) := by
  refine inside.substitute fun index => ?_
  cases index with
  | zero => exact supplied
  | succ index => exact refl _

/-- One more step, wherever it is taken, can be put in order. -/
theorem step (standard : Standard term next) (step : Step next last) : Standard term last := by
  induction step generalizing term with
  | contract body argument =>
    cases standard with
    | @application _ function operand _ _ head applied supplied =>
      cases applied with
      | @abstraction _ inner _ functionHead inside =>
        -- the contraction becomes a step at the head, and what was inside follows it
        have contracted : HeadSteps term (inner.instantiate operand) :=
          (head.trans (functionHead.function operand)).tail (HeadStep.contract inner operand)
        exact of_headSteps contracted (inside.instantiate supplied)
  | body _ hypothesis =>
    cases standard with
    | abstraction head inside => exact .abstraction head (hypothesis inside)
  | function _ hypothesis =>
    cases standard with
    | application head applied supplied => exact .application head (hypothesis applied) supplied
  | argument _ hypothesis =>
    cases standard with
    | application head applied supplied => exact .application head applied (hypothesis supplied)

end Standard

/-- Any steps can be put in order, those at the head first. -/
theorem Steps.standard {term next : PlainTerm} (steps : Steps term next) : Standard term next := by
  induction steps with
  | refl => exact Standard.refl term
  | tail _ step hypothesis => exact hypothesis.step step

end PlainTerm

end WordArithmetic
