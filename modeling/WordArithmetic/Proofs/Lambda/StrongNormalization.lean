/-
This file shows that no typed plain term can be contracted forever.

No measure of terms becomes smaller with every contraction, since a contraction copies its argument.
The proof goes by types instead. A term of function type is reducible if it takes reducible
arguments to reducible results, and reducible terms terminate. Every typed term is reducible once
reducible terms are put in the place of its variables, which is an induction on the typing.

Reducing a term also visits its parts. Taking a step and going down to a part together do not go on
forever either, and it is this relation that the reduction of terms is shown to follow.
-/

import WordArithmetic.Proofs.Lambda.Denotation

namespace WordArithmetic

namespace PlainTerm

/-- No infinite sequence of steps starts with the term. -/
def Terminates (term : PlainTerm) : Prop :=
  Acc (fun next term => Step term next) term

theorem Terminates.step {term next : PlainTerm} (terminates : Terminates term)
    (step : Step term next) : Terminates next :=
  terminates.inv step

theorem terminates_of_substitute {term : PlainTerm} {substitution : Nat → PlainTerm}
    (terminates : Terminates (term.substitute substitution)) : Terminates term := by
  generalize equal : term.substitute substitution = substituted at terminates
  induction terminates generalizing term with
  | intro substituted _ hypothesis =>
    refine Acc.intro term fun next step => ?_
    exact hypothesis _ (equal ▸ step.substitute substitution) rfl

theorem terminates_of_function {function argument : PlainTerm}
    (terminates : Terminates (application function argument)) : Terminates function := by
  generalize equal : application function argument = whole at terminates
  induction terminates generalizing function with
  | intro whole _ hypothesis =>
    refine Acc.intro function fun next step => ?_
    exact hypothesis _ (equal ▸ Step.function step) rfl

/-! ### Reducible terms -/

/-- A term of atomic type is reducible if it terminates, and one of function type if it takes
reducible arguments to reducible results. -/
def Reducible : SimpleType → PlainTerm → Prop
  | .atom _, term => Terminates term
  | .arrow argument result, term =>
    ∀ operand, Reducible argument operand → Reducible result (application term operand)

/-- Whether a term is an abstraction. Any other term is contracted inside itself only when it is
applied. -/
def IsAbstraction : PlainTerm → Prop
  | abstraction _ => True
  | _ => False

/-- Steps keep terms reducible. -/
theorem Reducible.step {type : SimpleType} {term next : PlainTerm} (reducible : Reducible type term)
    (step : Step term next) : Reducible type next := by
  induction type generalizing term next with
  | atom name => exact Terminates.step reducible step
  | arrow argument result _ hypothesis =>
    intro operand operandReducible
    exact hypothesis (reducible operand operandReducible) (Step.function step)

/-- Reducible terms terminate, and a term that is no abstraction is reducible if all that it steps
to is. The two are shown together, since a term of function type terminates because it does so when
it is applied to a variable. -/
theorem reducible_spec (type : SimpleType) :
    (∀ term, Reducible type term → Terminates term) ∧
      ∀ term, ¬ IsAbstraction term → (∀ next, Step term next → Reducible type next) →
        Reducible type term := by
  induction type with
  | atom name => exact ⟨fun _ reducible => reducible, fun term _ all => Acc.intro term all⟩
  | arrow argument result argumentHypothesis resultHypothesis =>
    obtain ⟨argumentTerminates, argumentExpands⟩ := argumentHypothesis
    obtain ⟨resultTerminates, resultExpands⟩ := resultHypothesis
    constructor
    · intro term reducible
      have nearest : Reducible argument (occurrence 0) :=
        argumentExpands (occurrence 0) (fun impossible => impossible) (fun _ step => by cases step)
      exact terminates_of_function (resultTerminates _ (reducible _ nearest))
    · intro term neutral all operand operandReducible
      have terminates := argumentTerminates operand operandReducible
      -- the argument takes steps as well, so this is an induction on its termination
      induction terminates with
      | intro operand _ hypothesis =>
        refine resultExpands _ (fun impossible => impossible) fun next step => ?_
        cases step with
        | contract body => exact absurd trivial neutral
        | function functionStep => exact all _ functionStep operand operandReducible
        | argument argumentStep =>
          exact hypothesis _ argumentStep (operandReducible.step argumentStep)

theorem Reducible.terminates {type : SimpleType} {term : PlainTerm}
    (reducible : Reducible type term) : Terminates term :=
  (reducible_spec type).1 term reducible

/-- A term that is no abstraction is reducible if all that it steps to is. -/
theorem Reducible.of_steps {type : SimpleType} {term : PlainTerm} (neutral : ¬ IsAbstraction term)
    (all : ∀ next, Step term next → Reducible type next) : Reducible type term :=
  (reducible_spec type).2 term neutral all

theorem reducible_occurrence (type : SimpleType) (index : Nat) :
    Reducible type (occurrence index) :=
  Reducible.of_steps (fun impossible => impossible) fun _ step => by cases step

/-- An abstraction is reducible if its body is, whatever reducible term is put in the place of its
variable. -/
theorem reducible_abstraction {argument result : SimpleType} {body : PlainTerm}
    (each : ∀ operand, Reducible argument operand → Reducible result (body.instantiate operand)) :
    Reducible (.arrow argument result) (abstraction body) := by
  have bodyTerminates : Terminates body :=
    terminates_of_substitute (each _ (reducible_occurrence argument 0)).terminates
  induction bodyTerminates with
  | intro body _ bodyHypothesis =>
    intro operand operandReducible
    have operandTerminates := operandReducible.terminates
    induction operandTerminates with
    | intro operand _ operandHypothesis =>
      refine Reducible.of_steps (fun impossible => impossible) fun next step => ?_
      cases step with
      | contract => exact each operand operandReducible
      | function functionStep =>
        cases functionStep with
        | body bodyStep =>
          refine bodyHypothesis _ bodyStep (fun other otherReducible => ?_) operand operandReducible
          exact (each other otherReducible).step (bodyStep.substitute _)
      | argument argumentStep =>
        exact operandHypothesis _ argumentStep (operandReducible.step argumentStep)

/-- A typed term is reducible once reducible terms are put in the place of its variables. -/
theorem reducible_substitute {context : List SimpleType} {term : PlainTerm} {type : SimpleType}
    {meaning : Environment context → type.Meaning} (means : Means context term type meaning)
    (substitution : Nat → PlainTerm)
    (each : ∀ {index : Nat} {type : SimpleType} {meaning : Environment context → type.Meaning},
      Means context (.occurrence index) type meaning → Reducible type (substitution index)) :
    Reducible type (term.substitute substitution) := by
  induction means generalizing substitution with
  | nearest => exact each .nearest
  | further outside => exact each (.further outside)
  | @abstraction context body argument result meaning inside hypothesis =>
    refine reducible_abstraction fun operand operandReducible => ?_
    rw [instantiate, substitute_substitute]
    refine hypothesis _ ?_
    intro index type meaning known
    cases known with
    | nearest => exact operandReducible
    | @further _ place _ _ _ outside =>
      have undone : (liftSubstitution substitution (place + 1)).substitute
          (instantiation operand) = substitution place :=
        instantiate_rename_succ operand (substitution place)
      rw [Function.comp_apply, undone]
      exact each outside
  | application _ _ appliedHypothesis suppliedHypothesis =>
    exact appliedHypothesis _ each _ (suppliedHypothesis _ each)
  | number value =>
    exact Reducible.of_steps (fun impossible => impossible) fun _ step => by cases step
  | operator operator =>
    exact Reducible.of_steps (fun impossible => impossible) fun _ step => by cases step

end PlainTerm

/-- Typed plain terms terminate. -/
theorem Means.terminates {context : List SimpleType} {term : PlainTerm} {type : SimpleType}
    {meaning : Environment context → type.Meaning} (means : Means context term type meaning) :
    term.Terminates := by
  have reducible := PlainTerm.reducible_substitute means PlainTerm.occurrence fun _ =>
    PlainTerm.reducible_occurrence _ _
  rw [PlainTerm.substitute_occurrence] at reducible
  exact reducible.terminates

/-! ### Steps and parts -/

namespace PlainTerm

/-- A term comes out of another one by a step, or is one of its immediate parts. -/
inductive Descends : PlainTerm → PlainTerm → Prop
  | step {term next : PlainTerm} (step : Step term next) : Descends next term
  | body (body : PlainTerm) : Descends body (abstraction body)
  | function (function argument : PlainTerm) : Descends function (application function argument)
  | argument (function argument : PlainTerm) : Descends argument (application function argument)

/-- Taking steps and going down to parts comes to an end if it does so after every step. The parts
are taken care of by their structure: a step of a part is a step of the whole. -/
theorem acc_descends_of_steps {term : PlainTerm}
    (all : ∀ next, Step term next → Acc Descends next) : Acc Descends term := by
  induction term with
  | occurrence index =>
    refine Acc.intro _ fun next descends => ?_
    cases descends with
    | step step => exact all next step
  | abstraction body hypothesis =>
    refine Acc.intro _ fun next descends => ?_
    cases descends with
    | step step => exact all next step
    | body =>
      exact hypothesis fun next step => (all _ (Step.body step)).inv (Descends.body next)
  | application function argument functionHypothesis argumentHypothesis =>
    refine Acc.intro _ fun next descends => ?_
    cases descends with
    | step step => exact all next step
    | function =>
      exact functionHypothesis fun next step =>
        (all _ (Step.function step)).inv (Descends.function next argument)
    | argument =>
      exact argumentHypothesis fun next step =>
        (all _ (Step.argument step)).inv (Descends.argument function next)
  | number value =>
    refine Acc.intro _ fun next descends => ?_
    cases descends with
    | step step => exact all next step
  | operator sign =>
    refine Acc.intro _ fun next descends => ?_
    cases descends with
    | step step => exact all next step

/-- In a term that terminates, taking steps and going down to parts comes to an end. -/
theorem Terminates.acc_descends {term : PlainTerm} (terminates : Terminates term) :
    Acc Descends term := by
  induction terminates with
  | intro term _ hypothesis => exact acc_descends_of_steps hypothesis

end PlainTerm

end WordArithmetic
