/-
This file holds a plain lambda calculus, which the terms of the meaning language are read as.

A plain term has indexes and no names, counts its binders from zero and knows nothing of
placeholders: an operator is a constant, and an application of an operator is an application like
any other. Renaming and substitution are by functions on indexes, so that all laws below are
equations between composed functions. A step contracts one application of an abstraction, anywhere
in a term, and operators never compute.
-/

import Mathlib.Logic.Relation
import WordArithmetic.Lambda.Term

namespace WordArithmetic

/-- A plain term. -/
inductive PlainTerm where
  | occurrence (index : Nat)
  | abstraction (body : PlainTerm)
  | application (function argument : PlainTerm)
  | number (value : Float)
  | operator (operator : Operator)

namespace PlainTerm

/-! ### Renaming and substitution -/

/-- A renaming below one more binder. -/
def liftRenaming (change : Nat → Nat) : Nat → Nat
  | 0 => 0
  | index + 1 => change index + 1

/-- Renames the free variables. -/
def rename (change : Nat → Nat) : PlainTerm → PlainTerm
  | occurrence index => occurrence (change index)
  | abstraction body => abstraction (body.rename (liftRenaming change))
  | application function argument =>
    application (function.rename change) (argument.rename change)
  | number value => number value
  | operator sign => operator sign

/-- A substitution below one more binder. -/
def liftSubstitution (substitution : Nat → PlainTerm) : Nat → PlainTerm
  | 0 => occurrence 0
  | index + 1 => (substitution index).rename Nat.succ

/-- Substitutes for the free variables. -/
def substitute (substitution : Nat → PlainTerm) : PlainTerm → PlainTerm
  | occurrence index => substitution index
  | abstraction body => abstraction (body.substitute (liftSubstitution substitution))
  | application function argument =>
    application (function.substitute substitution) (argument.substitute substitution)
  | number value => number value
  | operator sign => operator sign

/-- The substitution that puts a term in the place of the nearest variable. -/
def instantiation (argument : PlainTerm) : Nat → PlainTerm
  | 0 => argument
  | index + 1 => occurrence index

/-- Puts a term in the place of the nearest variable. -/
def instantiate (body argument : PlainTerm) : PlainTerm :=
  body.substitute (instantiation argument)

theorem liftRenaming_comp (outer inner : Nat → Nat) :
    liftRenaming outer ∘ liftRenaming inner = liftRenaming (outer ∘ inner) := by
  funext index
  cases index with
  | zero => rfl
  | succ index => rfl

theorem rename_rename (outer inner : Nat → Nat) (term : PlainTerm) :
    (term.rename inner).rename outer = term.rename (outer ∘ inner) := by
  induction term generalizing outer inner with
  | occurrence index => rfl
  | abstraction body hypothesis =>
    simp only [rename, hypothesis, liftRenaming_comp]
  | application function argument functionHypothesis argumentHypothesis =>
    simp only [rename, functionHypothesis, argumentHypothesis]
  | number value => rfl
  | operator sign => rfl

theorem liftRenaming_id : liftRenaming id = id := by
  funext index
  cases index with
  | zero => rfl
  | succ index => rfl

theorem rename_id (term : PlainTerm) : term.rename id = term := by
  induction term with
  | occurrence index => rfl
  | abstraction body hypothesis => rw [rename, liftRenaming_id, hypothesis]
  | application function argument functionHypothesis argumentHypothesis =>
    rw [rename, functionHypothesis, argumentHypothesis]
  | number value => rfl
  | operator sign => rfl

theorem liftSubstitution_comp_liftRenaming (substitution : Nat → PlainTerm)
    (change : Nat → Nat) :
    liftSubstitution substitution ∘ liftRenaming change =
      liftSubstitution (substitution ∘ change) := by
  funext index
  cases index with
  | zero => rfl
  | succ index => rfl

/-- Substituting in a renamed term. -/
theorem substitute_rename (substitution : Nat → PlainTerm) (change : Nat → Nat)
    (term : PlainTerm) :
    (term.rename change).substitute substitution = term.substitute (substitution ∘ change) := by
  induction term generalizing substitution change with
  | occurrence index => rfl
  | abstraction body hypothesis =>
    simp only [rename, substitute, hypothesis, liftSubstitution_comp_liftRenaming]
  | application function argument functionHypothesis argumentHypothesis =>
    simp only [rename, substitute, functionHypothesis, argumentHypothesis]
  | number value => rfl
  | operator sign => rfl

theorem rename_comp_liftSubstitution (change : Nat → Nat) (substitution : Nat → PlainTerm) :
    rename (liftRenaming change) ∘ liftSubstitution substitution =
      liftSubstitution (rename change ∘ substitution) := by
  funext index
  cases index with
  | zero => rfl
  | succ index =>
    show ((substitution index).rename Nat.succ).rename (liftRenaming change) =
      ((substitution index).rename change).rename Nat.succ
    rw [rename_rename, rename_rename]
    rfl

/-- Renaming the outcome of a substitution. -/
theorem rename_substitute (change : Nat → Nat) (substitution : Nat → PlainTerm)
    (term : PlainTerm) :
    (term.substitute substitution).rename change =
      term.substitute (rename change ∘ substitution) := by
  induction term generalizing substitution change with
  | occurrence index => rfl
  | abstraction body hypothesis =>
    simp only [rename, substitute, hypothesis, rename_comp_liftSubstitution]
  | application function argument functionHypothesis argumentHypothesis =>
    simp only [rename, substitute, functionHypothesis, argumentHypothesis]
  | number value => rfl
  | operator sign => rfl

theorem substitute_comp_liftSubstitution (outer inner : Nat → PlainTerm) :
    substitute (liftSubstitution outer) ∘ liftSubstitution inner =
      liftSubstitution (substitute outer ∘ inner) := by
  funext index
  cases index with
  | zero => rfl
  | succ index =>
    show ((inner index).rename Nat.succ).substitute (liftSubstitution outer) =
      ((inner index).substitute outer).rename Nat.succ
    rw [substitute_rename, rename_substitute]
    rfl

theorem substitute_substitute (outer inner : Nat → PlainTerm) (term : PlainTerm) :
    (term.substitute inner).substitute outer = term.substitute (substitute outer ∘ inner) := by
  induction term generalizing outer inner with
  | occurrence index => rfl
  | abstraction body hypothesis =>
    simp only [substitute, hypothesis, substitute_comp_liftSubstitution]
  | application function argument functionHypothesis argumentHypothesis =>
    simp only [substitute, functionHypothesis, argumentHypothesis]
  | number value => rfl
  | operator sign => rfl

theorem liftSubstitution_occurrence : liftSubstitution occurrence = occurrence := by
  funext index
  cases index with
  | zero => rfl
  | succ index => rfl

theorem substitute_occurrence (term : PlainTerm) : term.substitute occurrence = term := by
  induction term with
  | occurrence index => rfl
  | abstraction body hypothesis => rw [substitute, liftSubstitution_occurrence, hypothesis]
  | application function argument functionHypothesis argumentHypothesis =>
    rw [substitute, functionHypothesis, argumentHypothesis]
  | number value => rfl
  | operator sign => rfl

theorem rename_eq_abstraction {change : Nat → Nat} {term body : PlainTerm}
    (renamed : term.rename change = abstraction body) :
    ∃ inner, term = abstraction inner ∧ inner.rename (liftRenaming change) = body := by
  cases term with
  | abstraction inner => exact ⟨inner, rfl, abstraction.inj renamed⟩
  | _ => cases renamed

theorem rename_eq_application {change : Nat → Nat} {term function argument : PlainTerm}
    (renamed : term.rename change = application function argument) :
    ∃ left right, term = application left right ∧ left.rename change = function ∧
      right.rename change = argument := by
  cases term with
  | application left right => exact ⟨left, right, rfl, application.inj renamed⟩
  | _ => cases renamed

theorem rename_eq_operator {change : Nat → Nat} {term : PlainTerm} {sign : Operator}
    (renamed : term.rename change = operator sign) : term = operator sign := by
  cases term with
  | operator other => exact renamed
  | _ => cases renamed

/-- Moving a term below one more binder and putting anything in the place of its variable undo each
other. -/
theorem instantiate_rename_succ (argument term : PlainTerm) :
    (term.rename Nat.succ).instantiate argument = term := by
  rw [instantiate, substitute_rename]
  exact substitute_occurrence term

/-- Renaming after a term has been put in the place of the nearest variable. -/
theorem rename_instantiate (change : Nat → Nat) (body argument : PlainTerm) :
    (body.instantiate argument).rename change =
      (body.rename (liftRenaming change)).instantiate (argument.rename change) := by
  rw [instantiate, instantiate, rename_substitute, substitute_rename]
  congr 1
  funext index
  cases index with
  | zero => rfl
  | succ index => rfl

/-- Substituting after a term has been put in the place of the nearest variable. -/
theorem substitute_instantiate (substitution : Nat → PlainTerm) (body argument : PlainTerm) :
    (body.instantiate argument).substitute substitution =
      (body.substitute (liftSubstitution substitution)).instantiate
        (argument.substitute substitution) := by
  rw [instantiate, instantiate, substitute_substitute, substitute_substitute]
  congr 1
  funext index
  cases index with
  | zero => rfl
  | succ index => exact (instantiate_rename_succ _ _).symm

/-! ### Steps -/

/-- One application of an abstraction is contracted, anywhere in a term. -/
inductive Step : PlainTerm → PlainTerm → Prop
  | contract (body argument : PlainTerm) :
      Step (application (abstraction body) argument) (body.instantiate argument)
  | body {body next : PlainTerm} (step : Step body next) :
      Step (abstraction body) (abstraction next)
  | function {function next argument : PlainTerm} (step : Step function next) :
      Step (application function argument) (application next argument)
  | argument {function argument next : PlainTerm} (step : Step argument next) :
      Step (application function argument) (application function next)

theorem Step.rename {term next : PlainTerm} (step : Step term next) (change : Nat → Nat) :
    Step (term.rename change) (next.rename change) := by
  induction step generalizing change with
  | contract body argument =>
    rw [rename_instantiate]
    exact Step.contract _ _
  | body _ hypothesis => exact Step.body (hypothesis _)
  | function _ hypothesis => exact Step.function (hypothesis _)
  | argument _ hypothesis => exact Step.argument (hypothesis _)

theorem Step.substitute {term next : PlainTerm} (step : Step term next)
    (substitution : Nat → PlainTerm) :
    Step (term.substitute substitution) (next.substitute substitution) := by
  induction step generalizing substitution with
  | contract body argument =>
    rw [substitute_instantiate]
    exact Step.contract _ _
  | body _ hypothesis => exact Step.body (hypothesis _)
  | function _ hypothesis => exact Step.function (hypothesis _)
  | argument _ hypothesis => exact Step.argument (hypothesis _)

/-- Any number of steps. -/
abbrev Steps : PlainTerm → PlainTerm → Prop :=
  Relation.ReflTransGen Step

theorem Steps.abstraction {body next : PlainTerm} (steps : Steps body next) :
    Steps (abstraction body) (abstraction next) :=
  steps.lift PlainTerm.abstraction fun _ _ step => Step.body step

theorem Steps.application {function nextFunction argument nextArgument : PlainTerm}
    (left : Steps function nextFunction) (right : Steps argument nextArgument) :
    Steps (application function argument) (application nextFunction nextArgument) := by
  have first : Steps (PlainTerm.application function argument)
      (PlainTerm.application nextFunction argument) :=
    left.lift (fun term => PlainTerm.application term argument) fun _ _ step => Step.function step
  have second : Steps (PlainTerm.application nextFunction argument)
      (PlainTerm.application nextFunction nextArgument) :=
    right.lift (PlainTerm.application nextFunction) fun _ _ step => Step.argument step
  exact first.trans second

theorem Steps.rename {term next : PlainTerm} (steps : Steps term next) (change : Nat → Nat) :
    Steps (term.rename change) (next.rename change) :=
  steps.lift (PlainTerm.rename change) fun _ _ step => step.rename change

end PlainTerm

end WordArithmetic
