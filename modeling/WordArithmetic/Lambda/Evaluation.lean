/-
This file computes the value of a term and prints terms.

An external function is constant when all its arguments are, so that its value can be computed; it
is then printed as that value, which is why printing a term can fail. The denotation of a term is
the value of its normal form, if that is constant. A failure of arithmetic on the way makes the
term undefined, as does a normal form that is no constant.
-/

import WordArithmetic.Lambda.Normal

namespace WordArithmetic

/-- Computes with an operator. Division by zero is refused, whatever is divided. -/
def Operator.apply (operator : Operator) (left right : Float) : Except Failure Float :=
  match operator with
  | .addition => .ok (left + right)
  | .subtraction => .ok (left - right)
  | .multiplication => .ok (left * right)
  | .division => if right == 0.0 then .error .divisionByZero else .ok (left / right)

namespace Term

mutual

/-- Whether a term is an external function with constant arguments only. -/
def isConstant : Term → Bool
  | .external _ _ arguments => areConstant arguments
  | _ => false

/-- Whether all terms of a list are constant. -/
def areConstant : List Term → Bool
  | [] => true
  | first :: rest => first.isConstant && areConstant rest

end

mutual

/-- The value of an external function, computed from the values of its arguments. -/
def constantValue : Term → Except Failure Value
  | .external function _ arguments =>
    match function.rule with
    | .fixed value => .ok value
    | .arithmetic operator =>
      match constantValues arguments with
      | [left, right] => do
        let first ← (← left).toFloat
        let second ← (← right).toFloat
        return .float (← operator.apply first second)
      | _ => .error .outOfRange
  | _ => .error .notSupported

/-- The values of the arguments of an external function. -/
def constantValues : List Term → List (Except Failure Value)
  | [] => []
  | first :: rest => first.constantValue :: constantValues rest

end

/-- Whether an external function is constant. The question is put to external functions only. -/
def isConstant? : Term → Except Failure Bool
  | .external function missing arguments =>
    .ok (Term.external function missing arguments).isConstant
  | _ => .error .notSupported

mutual

/-- The printed form of a term. -/
def print : Term → Except Failure String
  | .variable name _ index => .ok s!"{name}-{index}"
  | .abstraction name type body => do
    let shown ← body.print
    return s!"(lambda ({name}:{type.text}) {shown})"
  | .application function argument => do
    let left ← function.print
    let right ← argument.print
    return s!"({left} {right})"
  | .external function missing arguments =>
    if areConstant arguments then do
      return (← (Term.external function missing arguments).constantValue).print
    else do
      return function.name ++ "(" ++ String.intercalate "," (← printAll arguments) ++ ")"

/-- The printed forms of the arguments of an external function. -/
def printAll : List Term → Except Failure (List String)
  | [] => .ok []
  | first :: rest => do return (← first.print) :: (← printAll rest)

end

/-! ### Evaluation -/

/-- What the evaluation of a term comes to. -/
inductive Evaluated where
  | value (value : Value)
  | undefined (reason : String)
  | failed (failure : Failure)

/-- Why a term whose normal form is no constant is undefined. -/
def notConstantReason : String := "term does not evaluate to a constant"

/-- Evaluates a term, reducing it to the given depth. -/
def evaluate (depth : Nat) (term : Term) : Evaluated :=
  match term.copy.reduce? depth with
  | none => .failed .reductionTooDeep
  | some normal =>
    if normal.isConstant then
      match normal.constantValue with
      | .ok value => .value value
      | .error failure =>
        if failure.isArithmetic then .undefined failure.message else .failed failure
    else .undefined notConstantReason

/-- The failure that reports an undefined term. A term that cannot be printed is not shown. -/
def undefinedFailure (term : Term) (reason : String) : Failure :=
  .evaluation reason (term.print.toOption.getD "")

/-- The value of a term. -/
def denote (depth : Nat) (term : Term) : Except Failure Value :=
  match term.evaluate depth with
  | .value value => .ok value
  | .undefined reason => .error (term.undefinedFailure reason)
  | .failed failure => .error failure

/-- Makes sure that what evaluation comes to can be told: if a term is undefined, it has to be
printed. -/
def ensureReportable (depth : Nat) (term : Term) : Except Failure Unit :=
  match term.evaluate depth with
  | .undefined _ => term.print.map fun _ => ()
  | _ => .ok ()

/-! ### Forms -/

/-- The kinds of terms that are never equal to each other: variables, abstractions, applications,
external functions with a fixed value, and those of each operator. -/
inductive Kind where
  | variable
  | abstraction
  | application
  | fixed
  | arithmetic (operator : Operator)
deriving DecidableEq, Repr

/-- The kind of a term. -/
def kind : Term → Kind
  | .variable .. => .variable
  | .abstraction .. => .abstraction
  | .application .. => .application
  | .external function _ _ =>
    match function.rule with
    | .fixed _ => .fixed
    | .arithmetic operator => .arithmetic operator

/-- Terms are equal when they are of the same kind and print alike. -/
def sameForm (left right : Term) : Except Failure Bool :=
  if left.kind = right.kind then do return (← left.print) == (← right.print) else .ok false

end Term

/-- A term that serves as a latent form, with its printed form at hand. -/
structure LatentForm where
  term : Term
  printed : String

namespace LatentForm

/-- The latent form of a term. A term that cannot be printed counts as printed empty. -/
def ofTerm (term : Term) : LatentForm :=
  ⟨term, match term.print with
    | .ok printed => printed
    | .error _ => ""⟩

/-- Latent forms are compared by their kind and their printed form. -/
instance : BEq LatentForm :=
  ⟨fun left right => left.term.kind == right.term.kind && left.printed == right.printed⟩

instance : ToString LatentForm := ⟨LatentForm.printed⟩

end LatentForm

end WordArithmetic
