/-
This file says when a hypothesis about a question is valid.

A hypothesis is a result, usually with the latent form that led to it. Either it is compared with
the known answer, as a decimal with some number of places, or it is looked up among the results,
and if need be the forms, that count as valid. A hypothesis without form passes every list of
forms, so that masses of results can be taken over all forms.
-/

import WordArithmetic.Number.Places
import WordArithmetic.Value

namespace WordArithmetic

/-- A test of hypotheses. -/
inductive Validator (Form : Type) where
  /-- The result agrees with the answer in this many decimal places. -/
  | answer (places : Int)
  /-- The result is one of these, and the form one of those, if any are listed. -/
  | among (results : List Value) (forms : Option (List Form))

namespace Validator

/-- The number of decimal places in which a result has to agree with the answer. -/
def defaultPlaces : Int := 6

/-- Whether a result and an answer are the same number when both are rounded. A missing result is
no number and not valid; the result is read first, then the answer. -/
def agrees (places : Int) (answer result : Value) : Except Failure Bool :=
  match result with
  | .absent => .ok false
  | _ => do
    let found ← roundTo places (← result.toFloat)
    let expected ← roundTo places (← answer.toFloat)
    return found == expected

/-- Whether a hypothesis about a question with a known answer is valid. -/
def accepts {Form : Type} [BEq Form] (validator : Validator Form) (answer : Value)
    (form : Option Form) (result : Value) : Except Failure Bool :=
  match validator with
  | .answer places => agrees places answer result
  | .among results forms => .ok <|
    result.isAmong results &&
      match forms, form with
      | some forms, some form => forms.contains form
      | _, _ => true

end Validator

end WordArithmetic
