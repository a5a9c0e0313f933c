/-
This file reduces terms to normal form, with call by value.

The function of an application is reduced first. If that gives an abstraction or an external
function, the argument is reduced next, is substituted, and the result is reduced in turn. The
bodies of abstractions and the arguments of external functions are reduced as well. A term need not
have a normal form, so the reduction is given a bound on its depth and gives up beyond it.
-/

import WordArithmetic.Lambda.Term

namespace WordArithmetic

namespace Term

/-- The normal form of a term, if it is reached within the given depth. -/
def reduce? : (depth : Nat) → Term → Option Term
  | 0, _ => none
  | depth + 1, term =>
    match term with
    | .variable name type index => some (.variable name type index)
    | .abstraction name type body => (reduce? depth body).map (.abstraction name type ·)
    | .external function missing arguments =>
      (arguments.mapM (reduce? depth)).map (.external function missing ·)
    | .application function argument =>
      match reduce? depth function with
      | none => none
      | some (.abstraction name _ body) => do
        let supplied ← reduce? depth argument
        reduce? depth (substitute (some name) supplied 1 body)
      | some (.external function missing arguments) => do
        let supplied ← reduce? depth argument
        reduce? depth (substitute none supplied 0 (.external function missing arguments))
      | some stuck => (reduce? depth argument).map (.application stuck ·)

/-- The depth to which terms are reduced unless another one is asked for. -/
def defaultDepth : Nat := 5000

end Term

end WordArithmetic
