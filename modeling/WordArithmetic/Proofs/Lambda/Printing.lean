/-
This file shows that written terms can be printed.

Printing fails where a constant is printed as its value and the value cannot be computed. A program
writes no such constant: what it writes are numbers, and operators whose arguments are still
missing. What binds a name changes neither.
-/

import WordArithmetic.Lambda.Evaluation
import WordArithmetic.Proofs.Lambda.Written

namespace WordArithmetic

/-- A term whose variables are resolved has a printed form. -/
theorem Resolved.exists_print {context : List (String × SimpleType)} {term : Term}
    (resolved : Resolved context term) : ∃ printed, term.print = .ok printed := by
  induction resolved with
  | free _ => exact ⟨_, rfl⟩
  | bound _ => exact ⟨_, rfl⟩
  | lost _ _ _ _ => exact ⟨_, rfl⟩
  | abstraction _ _ hypothesis =>
    obtain ⟨inside, shown⟩ := hypothesis
    rw [Term.print, shown]
    exact ⟨_, rfl⟩
  | application _ _ functionHypothesis argumentHypothesis =>
    obtain ⟨left, functionShown⟩ := functionHypothesis
    obtain ⟨right, argumentShown⟩ := argumentHypothesis
    rw [Term.print, functionShown, argumentShown]
    exact ⟨_, rfl⟩
  | number value => exact ⟨_, rfl⟩
  | operator operator => cases operator <;> exact ⟨_, rfl⟩

/-- A written term is printed as its latent form says. -/
theorem Term.Written.print_eq {term : Term} (written : term.Written) :
    term.print = .ok (LatentForm.ofTerm term).printed := by
  obtain ⟨printed, shown⟩ := written.resolved.exists_print
  rw [LatentForm.ofTerm, shown]

end WordArithmetic
