/-
This file tells what the reduction of a term leaves.

More depth never changes an outcome, and an outcome is normal: nothing in it can be contracted. Of
the terms without free variables only abstractions and external functions are normal, since an
application of either is contracted. Then the types decide: of these only constants are numbers, and
the value of such a constant is what the term means.
-/

import Mathlib.Data.List.Forall2
import WordArithmetic.Proofs.Lambda.Denotation
import WordArithmetic.Proofs.Lambda.Encoding

namespace WordArithmetic

namespace Term

/-! ### Depth -/

theorem mapM_eq_some_iff {change : Term → Option Term} {terms values : List Term} :
    terms.mapM change = some values ↔
      List.Forall₂ (fun term value => change term = some value) terms values := by
  induction terms generalizing values with
  | nil =>
    rw [List.mapM_nil, List.forall₂_nil_left_iff]
    exact ⟨fun same => (Option.some.inj same).symm, fun same => congrArg some same.symm⟩
  | cons first rest hypothesis =>
    rw [List.mapM_cons, Option.bind_eq_bind, Option.bind_eq_some_iff, List.forall₂_cons_left_iff]
    constructor
    · rintro ⟨value, firstValue, all⟩
      rw [Option.bind_eq_bind, Option.bind_eq_some_iff] at all
      obtain ⟨others, restValues, same⟩ := all
      exact ⟨value, others, firstValue, hypothesis.1 restValues, (Option.some.inj same).symm⟩
    · rintro ⟨value, others, firstValue, restValues, rfl⟩
      refine ⟨value, firstValue, ?_⟩
      rw [hypothesis.2 restValues]
      rfl

theorem reduce?_variable_eq {depth : Nat} {name : String} {code : TypeCode} {index : Int}
    {value : Term} (reduced : reduce? depth (.variable name code index) = some value) :
    value = .variable name code index := by
  cases depth with
  | zero => cases reduced
  | succ depth => exact (Option.some.inj reduced).symm

theorem exists_of_reduce?_external {depth : Nat} {function : External} {missing : Int}
    {arguments : List Term} {value : Term}
    (reduced : reduce? (depth + 1) (.external function missing arguments) = some value) :
    ∃ values, List.Forall₂ (fun argument value => reduce? depth argument = some value) arguments
      values ∧ value = .external function missing values := by
  rw [reduce?, Option.map_eq_some_iff] at reduced
  obtain ⟨values, argumentsReduced, rfl⟩ := reduced
  exact ⟨values, mapM_eq_some_iff.1 argumentsReduced, rfl⟩

/-- Nothing happens to an external function without arguments. -/
theorem reduce?_external_nil_eq {depth : Nat} {function : External} {missing : Int} {value : Term}
    (reduced : reduce? depth (.external function missing []) = some value) :
    value = .external function missing [] := by
  cases depth with
  | zero => cases reduced
  | succ depth =>
    obtain ⟨values, each, rfl⟩ := exists_of_reduce?_external reduced
    cases each
    rfl

/-- What is reached within some depth is reached within one more. -/
theorem reduce?_succ (depth : Nat) (term value : Term) (reduced : reduce? depth term = some value) :
    reduce? (depth + 1) term = some value := by
  induction depth generalizing term value with
  | zero => cases reduced
  | succ depth hypothesis =>
    match term with
    | .variable name type index => exact reduced
    | .abstraction name type body =>
      rw [reduce?, Option.map_eq_some_iff] at reduced ⊢
      obtain ⟨bodyValue, bodyReduced, rfl⟩ := reduced
      exact ⟨bodyValue, hypothesis body bodyValue bodyReduced, rfl⟩
    | .external function missing arguments =>
      obtain ⟨values, each, rfl⟩ := exists_of_reduce?_external reduced
      rw [reduce?, mapM_eq_some_iff.2 (each.imp hypothesis)]
      rfl
    | .application function argument =>
      rw [reduce?_application, Option.bind_eq_some_iff] at reduced ⊢
      obtain ⟨head, functionReduced, reduced⟩ := reduced
      rw [Option.bind_eq_some_iff] at reduced
      obtain ⟨supplied, argumentReduced, reduced⟩ := reduced
      refine ⟨head, hypothesis function head functionReduced, ?_⟩
      rw [hypothesis argument supplied argumentReduced, Option.bind_some]
      cases contracted : head.contract? supplied with
      | none =>
        rw [contracted] at reduced
        exact reduced
      | some result =>
        rw [contracted] at reduced
        exact hypothesis result value reduced

/-- What is reached within some depth is reached within any larger one. -/
theorem reduce?_of_le {depth larger : Nat} {term value : Term} (more : depth ≤ larger)
    (reduced : reduce? depth term = some value) : reduce? larger term = some value := by
  induction more with
  | refl => exact reduced
  | step _ hypothesis => exact reduce?_succ _ term value hypothesis

/-- Whatever the depth, only one outcome is reached. -/
theorem reduce?_unique {depth other : Nat} {term value found : Term}
    (reached : reduce? depth term = some value) (reduced : reduce? other term = some found) :
    found = value := by
  have first := reduce?_of_le (Nat.le_max_left depth other) reached
  have second := reduce?_of_le (Nat.le_max_right depth other) reduced
  exact Option.some.inj (second.symm.trans first)

/-! ### Normal forms -/

/-- Nothing in a term can be contracted. -/
inductive IsNormal : Term → Prop
  | occurrence (name : String) (type : TypeCode) (index : Int) :
      IsNormal (.variable name type index)
  | abstraction (name : String) (type : TypeCode) {body : Term} (inside : IsNormal body) :
      IsNormal (.abstraction name type body)
  | application {function argument : Term} (applied : IsNormal function)
      (supplied : IsNormal argument) (stuck : function.contract? argument = none) :
      IsNormal (.application function argument)
  | external (function : External) (missing : Int) {arguments : List Term}
      (each : ∀ argument ∈ arguments, IsNormal argument) :
      IsNormal (.external function missing arguments)

theorem forall_mem_of_forall₂ {change : Term → Option Term} {property : Term → Prop}
    {terms values : List Term}
    (each : List.Forall₂ (fun term value => change term = some value) terms values)
    (keeps : ∀ term ∈ terms, ∀ value, change term = some value → property value) :
    ∀ value ∈ values, property value := by
  induction each with
  | nil => exact List.forall_mem_nil property
  | cons first _ hypothesis =>
    obtain ⟨firstKeeps, restKeeps⟩ := List.forall_mem_cons.1 keeps
    exact List.forall_mem_cons.2 ⟨firstKeeps _ first, hypothesis restKeeps⟩

/-- The reduction of a term ends with a normal form. -/
theorem isNormal_of_reduce? (depth : Nat) (term value : Term)
    (reduced : reduce? depth term = some value) : value.IsNormal := by
  induction depth generalizing term value with
  | zero => cases reduced
  | succ depth hypothesis =>
    match term with
    | .variable name type index =>
      obtain rfl := Option.some.inj reduced
      exact IsNormal.occurrence name type index
    | .abstraction name type body =>
      rw [reduce?, Option.map_eq_some_iff] at reduced
      obtain ⟨bodyValue, bodyReduced, rfl⟩ := reduced
      exact IsNormal.abstraction name type (hypothesis body bodyValue bodyReduced)
    | .external function missing arguments =>
      obtain ⟨values, each, rfl⟩ := exists_of_reduce?_external reduced
      exact IsNormal.external function missing
        (forall_mem_of_forall₂ each fun argument _ => hypothesis argument)
    | .application function argument =>
      rw [reduce?_application, Option.bind_eq_some_iff] at reduced
      obtain ⟨head, functionReduced, reduced⟩ := reduced
      rw [Option.bind_eq_some_iff] at reduced
      obtain ⟨supplied, argumentReduced, reduced⟩ := reduced
      cases contracted : head.contract? supplied with
      | none =>
        rw [contracted] at reduced
        obtain rfl := Option.some.inj reduced
        exact IsNormal.application (hypothesis function head functionReduced)
          (hypothesis argument supplied argumentReduced) contracted
      | some result =>
        rw [contracted] at reduced
        exact hypothesis result value reduced

end Term

/-! ### Normal forms without free variables -/

section Closed

variable {term : Term} {plain : PlainTerm}

/-- A normal form without free variables is contracted when it is applied: it is an abstraction or
an external function. -/
theorem Term.IsNormal.contract?_ne_none {lost : PlainTerm → Prop} (normal : term.IsNormal)
    (encodes : EncodesUpTo lost [] term plain) (argument : Term) :
    term.contract? argument ≠ none := by
  induction normal generalizing plain argument with
  | occurrence name code index =>
    cases encodes with
    | occurrence found _ => cases found
  | abstraction name code inside => exact Option.some_ne_none _
  | application applied supplied stuck hypothesis =>
    cases encodes with
    | application appliedEncodes _ => exact absurd stuck (hypothesis appliedEncodes _)
  | external function missing each => exact Option.some_ne_none _

/-- The value of an operator with both arguments is computed from theirs. -/
theorem Term.constantValue_full {first second : Term} {left right : Except Failure Float}
    (firstValue : first.constantValue = Except.map Value.float left)
    (secondValue : second.constantValue = Except.map Value.float right) (operator : Operator) :
    (Term.external operator.external 0 [first, second]).constantValue =
      Except.map Value.float (operator.meaning left right) := by
  rw [Term.constantValue, Term.constantValues, Term.constantValues, Term.constantValues,
    firstValue, secondValue]
  cases left with
  | error failure => rfl
  | ok left =>
    cases right with
    | error failure => rfl
    | ok right => rfl

/-- An operator fails only when it divides by zero or one of its operands fails. -/
theorem Operator.eq_divisionByZero {left right : Except Failure Float} {failure : Failure}
    (leftFails : ∀ cause, left = .error cause → cause = .divisionByZero)
    (rightFails : ∀ cause, right = .error cause → cause = .divisionByZero) (operator : Operator)
    (failed : operator.meaning left right = .error failure) : failure = .divisionByZero := by
  cases left with
  | error cause =>
    cases failed
    exact leftFails failure rfl
  | ok left =>
    cases right with
    | error cause =>
      cases failed
      exact rightFails failure rfl
    | ok right =>
      change operator.apply left right = .error failure at failed
      cases operator with
      | division =>
        rw [Operator.apply] at failed
        split at failed
        · cases failed
          rfl
        · cases failed
      | _ => cases failed

/-- A normal form without free variables that is a number is a constant. Its value is what it means,
and fails only by a division. -/
theorem Term.IsNormal.isConstant {meaning : Environment [] → SimpleType.number.Meaning}
    (normal : term.IsNormal) (encodes : Encodes [] term plain)
    (means : Means [] plain .number meaning) :
    term.isConstant = true ∧ term.constantValue = Except.map Value.float (meaning ()) ∧
      ∀ failure, meaning () = .error failure → failure = .divisionByZero := by
  induction normal generalizing plain meaning with
  | occurrence name code index =>
    cases encodes with
    | occurrence found _ => cases found
  | abstraction name code inside =>
    cases encodes with
    | abstraction _ => cases means
  | application applied supplied stuck _ =>
    cases encodes with
    | application appliedEncodes _ =>
      have readUpTo := appliedEncodes.upTo fun _ => False
      exact absurd stuck (applied.contract?_ne_none readUpTo _)
  | external function missing each hypothesis =>
    cases encodes with
    | number value =>
      cases means
      exact ⟨rfl, rfl, fun _ failed => by cases failed⟩
    | operator operator => cases means
    | half supplied =>
      cases means with
      | application applied _ => cases applied
    | @full _ operator first second left right leftSupplied rightSupplied =>
      cases means with
      | application applied rightMeans =>
        cases applied with
        | application applied leftMeans =>
          cases applied
          obtain ⟨firstConstant, firstValue, firstFails⟩ :=
            hypothesis first (List.mem_cons_self ..) leftSupplied leftMeans
          obtain ⟨secondConstant, secondValue, secondFails⟩ :=
            hypothesis second (List.mem_cons_of_mem _ (List.mem_cons_self ..)) rightSupplied
              rightMeans
          refine ⟨?_, Term.constantValue_full firstValue secondValue operator, fun failure failed =>
            operator.eq_divisionByZero firstFails secondFails failed⟩
          rw [Term.isConstant, Term.areConstant, Term.areConstant, Term.areConstant,
            firstConstant, secondConstant]
          rfl

end Closed

end WordArithmetic
