/-
This file shows that numbers have values.

A term that is composed of terms of the arithmetic sessions and whose type is found to be that of
numbers has no free variable. As long as no index reaches the reserved one, its reduction ends with
a constant, so its evaluation gives a number or fails by a division, and the reason that its normal
form is no constant is never given.
-/

import WordArithmetic.Proofs.Lambda.NormalForm
import WordArithmetic.Proofs.Lambda.Reader
import WordArithmetic.Proofs.Lambda.Termination
import WordArithmetic.Proofs.Lambda.Typing

namespace WordArithmetic

namespace Term

/-- A written number means something, and its reduction ends with a constant of that value. -/
theorem Written.reducesTo {term : Term} (written : term.Written)
    (typed : term.typecheck = .ok TypeCode.number) (below : term.copy.StaysBelow) :
    ∃ (meaning : Environment [] → SimpleType.number.Meaning) (value : Term),
      HasMeaning [] term .number meaning ∧ term.copy.ReducesTo value ∧ value.isConstant = true ∧
        value.constantValue = Except.map Value.float (meaning ()) ∧
          ∀ failure, meaning () = .error failure → failure = .divisionByZero := by
  rw [written.copy] at below ⊢
  obtain ⟨meaning, has⟩ := written.hasMeaning (below term (Visits.here term)) typed
  obtain ⟨plain, encodes, means⟩ := has.exists_plain
  obtain ⟨value, next, reduces, steps, valueEncodes⟩ := encodes.reducesTo means below
  obtain ⟨depth, reduced⟩ := reduces.exists_depth
  have normal := isNormal_of_reduce? depth term value reduced
  exact ⟨meaning, value, has, reduces, normal.isConstant valueEncodes (means.steps steps)⟩

/-- A composed number means something, and its reduction ends with a constant of that value. -/
theorem Composed.reducesTo {term : Term} (composed : term.Composed)
    (typed : term.typecheck = .ok TypeCode.number) (below : term.copy.StaysBelow) :
    ∃ (meaning : Environment [] → SimpleType.number.Meaning) (value : Term),
      HasMeaning [] term .number meaning ∧ term.copy.ReducesTo value ∧ value.isConstant = true ∧
        value.constantValue = Except.map Value.float (meaning ()) ∧
          ∀ failure, meaning () = .error failure → failure = .divisionByZero :=
  composed.written.reducesTo typed below

/-- A composed number has no free variable, its reduction ends with a constant, and it is never
undefined for want of one. -/
theorem Composed.ends_with_constant {term : Term} (composed : term.Composed)
    (typed : term.typecheck = .ok TypeCode.number) (below : term.copy.StaysBelow) :
    term.isBoundIn [] = true ∧
      (∃ value : Term, term.copy.ReducesTo value ∧ value.isConstant = true) ∧
        ∀ depth, term.evaluate depth ≠ .undefined notConstantReason := by
  obtain ⟨meaning, value, has, reduces, constant, valueIs, fails⟩ := composed.reducesTo typed below
  have here := below term.copy (Visits.here term.copy)
  rw [composed.written.copy] at here
  refine ⟨has.isBoundIn here, ⟨value, reduces, constant⟩, fun depth => ?_⟩
  rw [evaluate]
  cases reduced : term.copy.reduce? depth with
  | none => exact nofun
  | some normal =>
    obtain ⟨reached, reachedValue⟩ := reduces.exists_depth
    obtain rfl := reduce?_unique reachedValue reduced
    simp only [constant, if_true, valueIs]
    cases means : meaning () with
    | ok number => exact nofun
    | error failure =>
      obtain rfl := fails failure means
      intro same
      exact absurd (Evaluated.undefined.inj same) (by decide)

/-! ### Checking that indexes stay below -/

/-- Reduces a term to the given depth and checks every term on the way: whether all bound variables
have an index below the reserved one. -/
def checksBelow : (depth : Nat) → Term → Bool
  | 0, _ => false
  | _ + 1, .variable name type index => (Term.variable name type index).isBelow
  | depth + 1, .abstraction _ _ body => checksBelow depth body
  | depth + 1, .external _ _ arguments =>
    areBelow arguments && arguments.all (checksBelow depth)
  | depth + 1, .application function argument =>
    checksBelow depth function && checksBelow depth argument &&
      match reduce? depth function, reduce? depth argument with
      | some head, some supplied =>
        (head.contract? supplied).all (checksBelow depth) &&
          (head.contractPlainly? supplied).all isBelow
      | _, _ => false

/-- A check that succeeds covers the whole reduction. -/
theorem staysBelow_of_checksBelow {depth : Nat} {term : Term}
    (checked : term.checksBelow depth = true) : term.StaysBelow := by
  induction depth generalizing term with
  | zero => cases checked
  | succ depth hypothesis =>
    intro state visited
    match term with
    | .variable name type index =>
      cases visited with
      | here => exact checked
    | .abstraction name type body =>
      rw [checksBelow] at checked
      have inside := hypothesis checked
      cases visited with
      | here => exact inside body (Visits.here body)
      | body later => exact inside state later
    | .external function missing arguments =>
      rw [checksBelow, Bool.and_eq_true, List.all_eq_true] at checked
      cases visited with
      | here => exact checked.1
      | among member later => exact hypothesis (checked.2 _ member) state later
    | .application function argument =>
      rw [checksBelow, Bool.and_eq_true, Bool.and_eq_true] at checked
      obtain ⟨⟨functionChecked, argumentChecked⟩, outcome⟩ := checked
      have left := hypothesis functionChecked
      have right := hypothesis argumentChecked
      split at outcome
      · rename_i head supplied functionReached argumentReached
        rw [Bool.and_eq_true] at outcome
        cases visited with
        | here =>
          exact (Bool.and_eq_true _ _).mpr
            ⟨left function (Visits.here function), right argument (Visits.here argument)⟩
        | function later => exact left state later
        | argument later => exact right state later
        | contracted functionReduced argumentReduced contracted later =>
          obtain rfl := reduce?_unique functionReached functionReduced
          obtain rfl := reduce?_unique argumentReached argumentReduced
          rw [contracted] at outcome
          exact hypothesis outcome.1 state later
        | moved functionReduced argumentReduced contracted =>
          obtain rfl := reduce?_unique functionReached functionReduced
          obtain rfl := reduce?_unique argumentReached argumentReduced
          rw [contracted] at outcome
          exact outcome.2
      · cases outcome

end Term

/-- Whether a program is read as a number whose reduction ends within the given depth while all
indexes stay below the reserved one. -/
def Session.readsNumber (session : Session) (depth : Nat) (code : String) : Bool :=
  match (session.read code).2 with
  | .ok (some term) =>
    decide (term.typecheck.toOption = some TypeCode.number) && term.copy.checksBelow depth
  | _ => false

theorem Session.exists_of_readsNumber {session : Session} {depth : Nat} {code : String}
    (reads : session.readsNumber depth code = true) :
    ∃ term, (session.read code).2 = .ok (some term) ∧
      term.typecheck = .ok TypeCode.number ∧ term.copy.StaysBelow := by
  unfold readsNumber at reads
  split at reads
  · rename_i term result
    rw [Bool.and_eq_true, decide_eq_true_eq] at reads
    exact ⟨term, result, eq_ok_of_toOption reads.1, Term.staysBelow_of_checksBelow reads.2⟩
  · cases reads

/-- A function that is applied twice, to an operator with one argument missing. -/
theorem Term.Composed.ends_with_constant_twice :
    ∃ term, (Session.arithmetic.read
        "((lambda (f:num=>num x:num) (f (f x))) (- 10) 3)").2 = .ok (some term) ∧
      term.typecheck = .ok TypeCode.number ∧ term.copy.StaysBelow ∧ term.isBoundIn [] = true ∧
        (∃ value : Term, term.copy.ReducesTo value ∧ value.isConstant = true) ∧
          ∀ depth, term.evaluate depth ≠ .undefined notConstantReason := by
  have reads : Session.arithmetic.readsNumber 30
      "((lambda (f:num=>num x:num) (f (f x))) (- 10) 3)" = true := by decide +kernel
  obtain ⟨term, result, typed, below⟩ := Session.exists_of_readsNumber reads
  have composed := Term.Composed.read .arithmetic result
  exact ⟨term, result, typed, below, Term.Composed.ends_with_constant composed typed below⟩

end WordArithmetic
