/-
This file finds the type of a term.

The type of a variable and of an external function is written in it; an abstraction has the type
of functions from its parameter to its body, and an application what `TypeCode.application` leaves
of the function's type. An application that does not fit has no type, which is an answer; only an
abstraction over a body without type is a failure, since no function type can be written for it.
-/

import WordArithmetic.Lambda.Term

namespace WordArithmetic

/-- The type of a term. -/
def Term.typecheck : Term → Except Failure TypeCode
  | .variable _ type _ => .ok type.addBrackets
  | .abstraction _ type body => do type.concat (← body.typecheck)
  | .application function argument => do
    return TypeCode.application (← function.typecheck) (← argument.typecheck)
  | .external function _ _ => .ok function.type

end WordArithmetic
