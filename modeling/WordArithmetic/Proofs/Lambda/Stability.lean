/-
This file shows that the reduction of a term is over when it ends.

What is reached is normal, whether the term has a type or free variables or not. Said by what does
not occur: nowhere in it, the bodies of abstractions and the arguments that external functions hold
included, is an abstraction or an external function applied. And a normal term reduces to itself:
its applications are stuck, and the reduction of a stuck application only reduces its parts.
-/

import WordArithmetic.Proofs.Lambda.NormalForm
import WordArithmetic.Proofs.Lambda.Termination

namespace WordArithmetic

namespace Term

/-! ### Parts -/

/-- A term is a part of itself, and the parts of what a term is made of are its parts: of bodies, of
functions and arguments of applications, and of arguments that an external function holds. -/
inductive IsPart (part : Term) : Term → Prop
  | self : IsPart part part
  | body {name : String} {type : TypeCode} {body : Term} (inside : IsPart part body) :
      IsPart part (.abstraction name type body)
  | function {function argument : Term} (inside : IsPart part function) :
      IsPart part (.application function argument)
  | argument {function argument : Term} (inside : IsPart part argument) :
      IsPart part (.application function argument)
  | held {function : External} {missing : Int} {arguments : List Term} {argument : Term}
      (member : argument ∈ arguments) (inside : IsPart part argument) :
      IsPart part (.external function missing arguments)

/-- Whether a term takes an argument when it is applied: abstractions and external functions do,
constants among them. -/
def takesArgument : Term → Bool
  | .abstraction .. | .external .. => true
  | _ => false

/-- Whether a term is the application of something that takes an argument. -/
def isContractible : Term → Bool
  | .application function _ => function.takesArgument
  | _ => false

theorem contract?_eq_none_iff {function argument : Term} :
    function.contract? argument = none ↔ function.takesArgument = false := by
  cases function with
  | abstraction name type body => exact iff_of_false (Option.some_ne_none _) nofun
  | external function missing arguments => exact iff_of_false (Option.some_ne_none _) nofun
  | _ => exact iff_of_true rfl rfl

namespace IsNormal

variable {term : Term}

/-- In a normal term nothing that takes an argument is applied, wherever it stands. -/
theorem not_isContractible (normal : term.IsNormal) {part : Term} (inside : part.IsPart term) :
    part.isContractible = false := by
  induction normal with
  | occurrence name type index =>
    cases inside with
    | self => rfl
  | abstraction name type _ hypothesis =>
    cases inside with
    | self => rfl
    | body inside => exact hypothesis inside
  | application _ _ stuck functionHypothesis argumentHypothesis =>
    cases inside with
    | self => exact contract?_eq_none_iff.1 stuck
    | function inside => exact functionHypothesis inside
    | argument inside => exact argumentHypothesis inside
  | external function missing _ hypothesis =>
    cases inside with
    | self => rfl
    | held member inside => exact hypothesis _ member inside

/-- A normal term reduces to itself. -/
theorem reducesTo_self (normal : term.IsNormal) : term.ReducesTo term := by
  induction normal with
  | occurrence name type index => exact reducesTo_variable name type index
  | abstraction name type _ hypothesis => exact hypothesis.abstraction name type
  | application _ _ stuck functionHypothesis argumentHypothesis =>
    exact reducesTo_stuck functionHypothesis argumentHypothesis stuck
  | external function missing _ hypothesis =>
    exact reducesTo_external (List.forall₂_same.2 hypothesis) function missing

end IsNormal

/-- If the reduction of a term ends, whatever the term is, then nowhere in what it leaves is an
abstraction or an external function applied, and the reduction of that ends as well and leaves it as
it is. -/
theorem leaves_nothing_contractible {depth : Nat} {term value : Term}
    (reduced : reduce? depth term = some value) :
    (∀ part : Term, part.IsPart value → part.isContractible = false) ∧ value.ReducesTo value := by
  have normal := isNormal_of_reduce? depth term value reduced
  exact ⟨fun part inside => normal.not_isContractible inside, normal.reducesTo_self⟩

/-- A term without a type and with free variables: below one of them, which is applied, an operator
receives its second argument. -/
theorem leaves_nothing_contractible_open :
    let term : Term := .application
      (.abstraction "f" TypeCode.number
        (.application (.free "g") (.application (.variable "f" TypeCode.number 1) (.free "y"))))
      (.application Operator.subtraction.external.term (.free "x"))
    ∃ value, reduce? 6 term = some value ∧
      (∀ part : Term, part.IsPart value → part.isContractible = false) ∧ value.ReducesTo value := by
  intro term
  have ends : (reduce? 6 term).isSome = true := by decide +kernel
  obtain ⟨value, reduced⟩ := Option.isSome_iff_exists.1 ends
  exact ⟨value, reduced, leaves_nothing_contractible reduced⟩

end Term

end WordArithmetic
