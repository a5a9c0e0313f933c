/-
This file says what the denotation of a term is, whether or not the term has a type.

Reduction lets every external function receive an argument, also a number, and an operator that has
both of its own: the argument is dropped, and the function is kept. What is left then means nothing
any more, but wherever this happens the plain term has more arguments than its head takes. Up to
such places the reduction of a term is followed by steps of the plain term. So the denotation is
what evaluation by names comes to, a number or that there is none, as long as evaluation by names
does not come across too many arguments itself. If it does, there may be a denotation nevertheless:
a term with a number at its head denotes this number, whatever it is applied to.
-/

import WordArithmetic.Proofs.Lambda.Apart
import WordArithmetic.Proofs.Lambda.Preservation
import WordArithmetic.Proofs.Lambda.Untyped

namespace WordArithmetic

/-! ### Too many arguments -/

namespace PlainTerm

/-- The head of a term has more arguments than it takes. -/
inductive Oversupplied : PlainTerm → Prop
  | number (value : Float) (argument : PlainTerm) :
      Oversupplied (application (number value) argument)
  | operator (sign : Operator) (left right third : PlainTerm) :
      Oversupplied (application (application (application (operator sign) left) right) third)
  | application {function : PlainTerm} (argument : PlainTerm)
      (oversupplied : Oversupplied function) : Oversupplied (application function argument)

namespace Oversupplied

theorem staysLost : StaysLost Oversupplied where
  rename change oversupplied := by
    induction oversupplied with
    | number value argument => exact .number value _
    | operator sign left right third => exact .operator sign _ _ _
    | application argument _ hypothesis => exact .application _ hypothesis
  substitute substitution oversupplied := by
    induction oversupplied with
    | number value argument => exact .number value _
    | operator sign left right third => exact .operator sign _ _ _
    | application argument _ hypothesis => exact .application _ hypothesis

/-- Evaluation by names comes across the arguments that are too many. -/
theorem yields {plain : PlainTerm} (oversupplied : Oversupplied plain)
    (arguments : List PlainTerm) : Yields plain arguments .oversupplied := by
  induction oversupplied generalizing arguments with
  | number value argument => exact .application (.numberApplied value argument arguments)
  | operator sign left right third =>
    exact .application (.application (.application (.fullApplied sign left right third arguments)))
  | application argument _ hypothesis => exact .application (hypothesis _)

end Oversupplied

end PlainTerm

open PlainTerm (Steps Oversupplied Yields)

/-- A term is read as a plain term, except where that has too many arguments. -/
abbrev EncodesSupplied : List String → Term → PlainTerm → Prop :=
  EncodesUpTo Oversupplied

/-! ### Reduction follows the plain term -/

/-- A value is read as what a plain term steps to, renamed. -/
def Follows (names : List String) (change : Nat → Nat) (value : Term) (plain : PlainTerm) : Prop :=
  ∃ next, Steps plain next ∧ EncodesSupplied names value (next.rename change)

namespace Follows

variable {names : List String} {change : Nat → Nat}

theorem self {value : Term} {plain : PlainTerm}
    (encodes : EncodesSupplied names value (plain.rename change)) :
    Follows names change value plain :=
  ⟨plain, .refl, encodes⟩

theorem abstraction {name : String} {body : Term} {plain : PlainTerm}
    (follows : Follows (name :: names) (PlainTerm.liftRenaming change) body plain)
    (type : TypeCode) :
    Follows names change (.abstraction name type body) (.abstraction plain) := by
  obtain ⟨next, steps, encodes⟩ := follows
  exact ⟨_, steps.abstraction, .abstraction encodes⟩

/-- An operator with one argument, which stands below a placeholder. -/
theorem half {first : Term} {plain : PlainTerm}
    (follows : Follows (placeholderName :: names) (Nat.succ ∘ change) first plain)
    (operator : Operator) :
    Follows names change (.external operator.external 1 [first, lastPlaceholder])
      (.application (.operator operator) plain) := by
  obtain ⟨next, steps, encodes⟩ := follows
  rw [← PlainTerm.rename_rename] at encodes
  exact ⟨_, Steps.application .refl steps, .half encodes⟩

/-- An operator with both of its arguments. -/
theorem full {first second : Term} {left right : PlainTerm}
    (leftFollows : Follows names change first left)
    (rightFollows : Follows names change second right) (operator : Operator) :
    Follows names change (.external operator.external 0 [first, second])
      (.application (.application (.operator operator) left) right) := by
  obtain ⟨nextLeft, leftSteps, leftEncodes⟩ := leftFollows
  obtain ⟨nextRight, rightSteps, rightEncodes⟩ := rightFollows
  exact ⟨_, Steps.application (Steps.application .refl leftSteps) rightSteps,
    .full leftEncodes rightEncodes⟩

section Application

variable {head supplied : Term} {left right : PlainTerm}

theorem application (headFollows : Follows names change head left)
    (suppliedFollows : Follows names change supplied right) :
    Follows names change (.application head supplied) (.application left right) := by
  obtain ⟨nextLeft, leftSteps, headEncodes⟩ := headFollows
  obtain ⟨nextRight, rightSteps, suppliedEncodes⟩ := suppliedFollows
  exact ⟨_, leftSteps.application rightSteps, .application headEncodes suppliedEncodes⟩

/-- A contraction is followed by a step of the plain term, or by none. An external function that
receives more arguments than it takes is still an external function. -/
theorem of_encodes {result : Term} (headEncodes : EncodesSupplied names head (left.rename change))
    (suppliedEncodes : EncodesSupplied names supplied (right.rename change))
    (contracted : head.contractPlainly? supplied = some result) :
    Follows names change result (.application left right) := by
  generalize renamed : left.rename change = seen at headEncodes
  have whole : PlainTerm.rename change (.application left right) =
      .application seen (right.rename change) := by rw [PlainTerm.rename, renamed]
  -- an external function that drops the argument stays where the plain term has too many of them
  have lost : ∀ {function : External} {missing : Int} {arguments : List Term},
      (Term.external function missing arguments).contractPlainly? supplied = some result →
      Oversupplied (.application seen (right.rename change)) →
        Follows names change result (.application left right) := by
    intro function missing arguments contracted oversupplied
    rw [Term.contractPlainly?, Term.fill] at contracted
    refine self ?_
    rw [whole, ← Option.some.inj contracted]
    exact .external oversupplied
  cases headEncodes with
  | occurrence _ _ => cases contracted
  | abstraction inside =>
    obtain ⟨body, rfl, rfl⟩ := PlainTerm.rename_eq_abstraction renamed
    refine ⟨_, .single (.contract body right), ?_⟩
    rw [← Option.some.inj contracted, PlainTerm.rename_instantiate]
    exact inside.fill_nearest Oversupplied.staysLost suppliedEncodes
  | application _ _ => cases contracted
  | number value => exact lost contracted (.number value _)
  | operator operator =>
    have received := Encodes.contract_operator operator supplied
    refine self ?_
    rw [whole, Option.some.inj (contracted.symm.trans received)]
    exact .half (suppliedEncodes.raise_outside Oversupplied.staysLost [placeholderName])
  | half inside =>
    obtain ⟨moved, received, encodes⟩ := inside.contract_half Oversupplied.staysLost suppliedEncodes
    refine self ?_
    rw [whole, Option.some.inj (contracted.symm.trans received)]
    exact .full encodes suppliedEncodes
  | @full _ operator _ _ _ _ _ _ => exact lost contracted (.operator operator _ _ _)
  | external isLost => exact lost contracted (.application _ isLost)

/-- What is contracted and then followed is followed from the start. -/
theorem contract {result value : Term} (headFollows : Follows names change head left)
    (suppliedFollows : Follows names change supplied right)
    (contracted : head.contractPlainly? supplied = some result)
    (later : ∀ next, EncodesSupplied names result (PlainTerm.rename change next) →
      Follows names change value next) :
    Follows names change value (.application left right) := by
  obtain ⟨nextLeft, leftSteps, headEncodes⟩ := headFollows
  obtain ⟨nextRight, rightSteps, suppliedEncodes⟩ := suppliedFollows
  obtain ⟨next, steps, encodes⟩ := of_encodes headEncodes suppliedEncodes contracted
  obtain ⟨last, more, valueEncodes⟩ := later next encodes
  exact ⟨last, ((leftSteps.application rightSteps).trans steps).trans more, valueEncodes⟩

end Application

end Follows

/-- What a term is reduced to is read as what the plain term steps to that the term is read as. -/
theorem EncodesUpTo.reduce {depth : Nat} {names : List String} {change : Nat → Nat}
    {term value : Term} {plain : PlainTerm}
    (encodes : EncodesSupplied names term (plain.rename change)) (typed : term.isTyped = true)
    (below : term.StaysBelow) (reduced : Term.reduce? depth term = some value) :
    Follows names change value plain := by
  -- the induction is on the depth, as what a contraction leaves is no part of the term
  induction depth generalizing names change term value plain with
  | zero => cases reduced
  | succ depth hypothesis =>
    have whole := encodes
    generalize renamed : plain.rename change = seen at encodes
    cases encodes with
    | occurrence _ _ =>
      rw [Term.reduce?_variable_eq reduced]
      exact .self whole
    | abstraction inside =>
      obtain ⟨body, rfl, rfl⟩ := PlainTerm.rename_eq_abstraction renamed
      rw [Term.reduce?, Option.map_eq_some_iff] at reduced
      obtain ⟨bodyValue, bodyReduced, rfl⟩ := reduced
      exact (hypothesis inside typed below.body bodyReduced).abstraction _
    | application applied supplied =>
      obtain ⟨left, right, rfl, rfl, rfl⟩ := PlainTerm.rename_eq_application renamed
      obtain ⟨functionTyped, argumentTyped⟩ := (Bool.and_eq_true _ _).mp typed
      rw [Term.reduce?_application, Option.bind_eq_some_iff] at reduced
      obtain ⟨head, functionReduced, reduced⟩ := reduced
      rw [Option.bind_eq_some_iff] at reduced
      obtain ⟨operand, argumentReduced, reduced⟩ := reduced
      have headFollows := hypothesis applied functionTyped below.function functionReduced
      have operandFollows := hypothesis supplied argumentTyped below.argument argumentReduced
      cases contracted : head.contract? operand with
      | none =>
        rw [contracted] at reduced
        obtain rfl := Option.some.inj reduced
        exact headFollows.application operandFollows
      | some result =>
        rw [contracted] at reduced
        have headTyped := Term.isTyped_reduce? functionTyped functionReduced
        have operandTyped := Term.isTyped_reduce? argumentTyped argumentReduced
        have resultTyped := Term.isTyped_contract? headTyped operandTyped contracted
        have resultBelow : result.StaysBelow := fun state visited =>
          below state (.contracted functionReduced argumentReduced contracted visited)
        exact headFollows.contract operandFollows
          (below.contractPlainly?_eq functionReduced argumentReduced operandTyped contracted)
          fun next resultEncodes => hypothesis resultEncodes resultTyped resultBelow reduced
    | number value =>
      rw [Term.reduce?_external_nil_eq reduced]
      exact .self whole
    | operator operator =>
      obtain ⟨values, each, rfl⟩ := Term.exists_of_reduce?_external reduced
      obtain _ | ⟨first, _ | ⟨last, _ | _⟩⟩ := each
      rw [Term.reduce?_variable_eq first, Term.reduce?_variable_eq last]
      exact .self whole
    | half supplied =>
      obtain ⟨sign, plainFirst, rfl, signRenamed, rfl⟩ := PlainTerm.rename_eq_application renamed
      obtain rfl := PlainTerm.rename_eq_operator signRenamed
      obtain ⟨values, each, rfl⟩ := Term.exists_of_reduce?_external reduced
      obtain _ | ⟨first, _ | ⟨last, _ | _⟩⟩ := each
      rw [PlainTerm.rename_rename] at supplied
      rw [Term.reduce?_variable_eq last]
      exact (hypothesis supplied ((Bool.and_eq_true _ _).mp typed).1
        (below.among (List.mem_cons_self ..)) first).half _
    | full leftSupplied rightSupplied =>
      obtain ⟨applied, right, rfl, leftRenamed, rfl⟩ := PlainTerm.rename_eq_application renamed
      obtain ⟨sign, left, rfl, signRenamed, rfl⟩ := PlainTerm.rename_eq_application leftRenamed
      obtain rfl := PlainTerm.rename_eq_operator signRenamed
      obtain ⟨values, each, rfl⟩ := Term.exists_of_reduce?_external reduced
      obtain _ | ⟨first, _ | ⟨second, _ | _⟩⟩ := each
      obtain ⟨firstTyped, restTyped⟩ := (Bool.and_eq_true _ _).mp typed
      have firstFollows :=
        hypothesis leftSupplied firstTyped (below.among (List.mem_cons_self ..)) first
      have secondFollows :=
        hypothesis rightSupplied ((Bool.and_eq_true _ _).mp restTyped).1
          (below.among (List.mem_cons_of_mem _ (List.mem_cons_self ..))) second
      exact firstFollows.full secondFollows _
    | external isLost =>
      obtain ⟨values, each, rfl⟩ := Term.exists_of_reduce?_external reduced
      subst renamed
      exact .self (.external isLost)

/-! ### What values are evaluated to -/

namespace Conclusion

/-- What the conclusion about a term says of its value. It says nothing if there are too many
arguments. -/
def Describes (value : Term) : Conclusion → Prop
  | number result => value.isConstant = true ∧ value.constantValue = .ok (.float result)
  | function => value.isConstant = false
  | dividedByZero =>
    value.isConstant = true → value.constantValue = .error .divisionByZero
  | notNumeric => value.isConstant = false
  | oversupplied => True
  | unbound _ => False

end Conclusion

section Full

variable {sign : Operator} {first second : Term}

theorem Term.isConstant_full :
    (Term.external sign.external 0 [first, second]).isConstant = true ↔
      first.isConstant = true ∧ second.isConstant = true := by
  rw [isConstant, areConstant, areConstant, areConstant, Bool.and_true, Bool.and_eq_true]

/-- The value of the first argument is computed first. -/
theorem Term.constantValue_full_of_error {failure : Failure}
    (failed : first.constantValue = .error failure) :
    (Term.external sign.external 0 [first, second]).constantValue = .error failure := by
  rw [constantValue, constantValues, constantValues, constantValues, failed]
  rfl

/-- An operator computes from the values of its arguments if the first one is a number. -/
theorem Conclusion.describes_combine_number {left : Float} {right : Conclusion}
    (leftConstant : first.isConstant = true) (leftValue : first.constantValue = .ok (.float left))
    (rightDescribes : right.Describes second) :
    (Conclusion.combine sign (.number left) right).Describes
      (.external sign.external 0 [first, second]) := by
  have leftMapped : first.constantValue = Except.map Value.float (.ok left) := leftValue
  have notConstant : second.isConstant = false →
      (Term.external sign.external 0 [first, second]).isConstant = false := fun rightNot =>
    Bool.eq_false_iff.2 fun both => Bool.eq_false_iff.1 rightNot (Term.isConstant_full.1 both).2
  cases right with
  | number right =>
    obtain ⟨rightConstant, rightValue⟩ := rightDescribes
    have rightMapped : second.constantValue = Except.map Value.float (.ok right) := rightValue
    have value : (Term.external sign.external 0 [first, second]).constantValue =
        Except.map Value.float (sign.apply left right) :=
      Term.constantValue_full leftMapped rightMapped sign
    rw [Conclusion.combine]
    cases computed : sign.apply left right with
    | ok result =>
      rw [computed] at value
      exact ⟨Term.isConstant_full.2 ⟨leftConstant, rightConstant⟩, value⟩
    | error failure =>
      have failed : sign.meaning (.ok left) (.ok right) = .error failure := computed
      obtain rfl : failure = .divisionByZero := by
        refine Operator.eq_divisionByZero ?_ ?_ sign failed
        · exact nofun
        · exact nofun
      rw [computed] at value
      exact fun _ => value
  | function => exact notConstant rightDescribes
  | dividedByZero =>
    intro both
    have rightMapped : second.constantValue = Except.map Value.float (.error .divisionByZero) :=
      rightDescribes (Term.isConstant_full.1 both).2
    exact Term.constantValue_full leftMapped rightMapped sign
  | notNumeric => exact notConstant rightDescribes
  | oversupplied => exact trivial
  | unbound name => exact rightDescribes

/-- What is said of the values of two arguments gives what is said of that of the operator. -/
theorem Conclusion.Describes.combine {left right : Conclusion}
    (leftDescribes : left.Describes first) (rightDescribes : right.Describes second) :
    (Conclusion.combine sign left right).Describes (.external sign.external 0 [first, second]) := by
  have notConstant : first.isConstant = false →
      (Term.external sign.external 0 [first, second]).isConstant = false := fun leftNot =>
    Bool.eq_false_iff.2 fun both => Bool.eq_false_iff.1 leftNot (Term.isConstant_full.1 both).1
  cases left with
  | number left => exact describes_combine_number leftDescribes.1 leftDescribes.2 rightDescribes
  | function => exact notConstant leftDescribes
  | dividedByZero =>
    intro both
    exact Term.constantValue_full_of_error (leftDescribes (Term.isConstant_full.1 both).1)
  | notNumeric => exact notConstant leftDescribes
  | oversupplied => exact trivial
  | unbound name => exact leftDescribes

end Full

/-- The value of a term without free variables is described by what evaluation by names comes to. -/
theorem Term.IsNormal.exists_conclusion {value : Term} {plain : PlainTerm}
    (normal : value.IsNormal) (encodes : EncodesSupplied [] value plain) :
    ∃ conclusion : Conclusion, Yields plain [] conclusion ∧ conclusion.Describes value := by
  induction normal generalizing plain with
  | occurrence name code index =>
    cases encodes with
    | occurrence found _ => cases found
  | abstraction name code inside =>
    cases encodes with
    | abstraction _ => exact ⟨.function, .function _, rfl⟩
  | application applied supplied stuck _ =>
    cases encodes with
    | application appliedEncodes _ =>
      exact absurd stuck (applied.contract?_ne_none appliedEncodes _)
  | external function missing each hypothesis =>
    cases encodes with
    | number value => exact ⟨.number value, .number value, rfl, rfl⟩
    | operator sign => exact ⟨.function, .operator sign, rfl⟩
    | @half _ sign first inner _ =>
      refine ⟨.function, .application (.half sign inner), ?_⟩
      show (first.isConstant && false) = false
      exact Bool.and_false _
    | full leftSupplied rightSupplied =>
      obtain ⟨left, leftYields, leftDescribes⟩ :=
        hypothesis _ (List.mem_cons_self ..) leftSupplied
      obtain ⟨right, rightYields, rightDescribes⟩ :=
        hypothesis _ (List.mem_cons_of_mem _ (List.mem_cons_self ..)) rightSupplied
      exact ⟨_, .application (.application (.full leftYields rightYields)),
        leftDescribes.combine rightDescribes⟩
    | external isLost => exact ⟨.oversupplied, isLost.yields [], trivial⟩

/-! ### Denotations -/

/-- What a conclusion about a term promises of its denotation. It promises nothing if there are too
many arguments. -/
def Conclusion.Promises (term : Term) : Conclusion → Prop
  | number value => term.HasDenotation (.ok (.float value))
  | function => term.HasDenotation (.error (term.undefinedFailure Term.notConstantReason))
  | dividedByZero => ∃ reason ∈ [Failure.divisionByZero.message, Term.notConstantReason],
      term.HasDenotation (.error (term.undefinedFailure reason))
  | notNumeric => term.HasDenotation (.error (term.undefinedFailure Term.notConstantReason))
  | oversupplied => True
  | unbound _ => False

namespace Term

variable {term value : Term}

theorem exists_reducesTo {depth : Nat} (ends : (term.reduce? depth).isSome = true) :
    ∃ value, term.ReducesTo value := by
  obtain ⟨value, reduced⟩ := Option.isSome_iff_exists.1 ends
  exact ⟨value, depth, fun larger more => reduce?_of_le more reduced⟩

/-- A term whose value is no constant is undefined for that reason. -/
theorem ReducesTo.hasDenotation_of_not_isConstant (reduces : term.copy.ReducesTo value)
    (notConstant : value.isConstant = false) :
    term.HasDenotation (.error (term.undefinedFailure notConstantReason)) := by
  refine reduces.hasDenotation fun depth reduced => ?_
  rw [denote, evaluate, reduced]
  simp only [notConstant, Bool.false_eq_true, if_false]

theorem ReducesTo.hasDenotation_of_ok {result : Value} (reduces : term.copy.ReducesTo value)
    (constant : value.isConstant = true) (computed : value.constantValue = .ok result) :
    term.HasDenotation (.ok result) := by
  refine reduces.hasDenotation fun depth reduced => ?_
  rw [denote, evaluate, reduced]
  simp only [constant, if_true, computed]

theorem ReducesTo.hasDenotation_of_divisionByZero (reduces : term.copy.ReducesTo value)
    (constant : value.isConstant = true)
    (computed : value.constantValue = .error .divisionByZero) :
    term.HasDenotation (.error (term.undefinedFailure Failure.divisionByZero.message)) := by
  refine reduces.hasDenotation fun depth reduced => ?_
  rw [denote, evaluate, reduced]
  simp only [constant, if_true, computed]
  rfl

end Term

/-- What describes the value of a term keeps its promises about the denotation. -/
theorem Conclusion.Describes.promises {term value : Term} {conclusion : Conclusion}
    (describes : conclusion.Describes value) (reduces : term.copy.ReducesTo value) :
    conclusion.Promises term := by
  cases conclusion with
  | number result => exact reduces.hasDenotation_of_ok describes.1 describes.2
  | function => exact reduces.hasDenotation_of_not_isConstant describes
  | dividedByZero =>
    cases constant : value.isConstant with
    | true =>
      exact ⟨_, List.mem_cons_self,
        reduces.hasDenotation_of_divisionByZero constant (describes constant)⟩
    | false =>
      exact ⟨_, List.mem_cons_of_mem _ List.mem_cons_self,
        reduces.hasDenotation_of_not_isConstant constant⟩
  | notNumeric => exact reduces.hasDenotation_of_not_isConstant describes
  | oversupplied => exact trivial
  | unbound name => exact describes

namespace Term

/-- The reduction of a composed term without free variables ends only if its evaluation by names
does, and then it has the denotation that evaluation by names promises: the number that this comes
to, or none if it divides by zero, finds something else than a number in the place of one, or comes
to a function. Only if evaluation by names comes across too many arguments the term may have any
denotation or none. -/
theorem Composed.denotation_by_names {term : Term} (composed : term.Composed)
    (closed : term.isClosedIn [] = true) (below : term.copy.StaysBelow)
    (reduces : ∃ value, term.copy.ReducesTo value) :
    ∃ conclusion : Conclusion,
      Settles (fun depth => (Closure.suspend [] term).run depth []) (some conclusion) ∧
        conclusion.Promises term := by
  obtain ⟨value, reduces⟩ := reduces
  obtain ⟨depth, reduced⟩ := reduces.exists_depth
  have same := composed.written.copy
  rw [same] at below reduced
  obtain ⟨plain, nearest⟩ :=
    composed.written.resolved.exists_encodesNearest closed (below term (Visits.here term))
  have encodes := nearest.encodes
  have upTo : EncodesSupplied [] term (plain.rename id) := by
    rw [PlainTerm.rename_id]
    exact encodes.upTo _
  obtain ⟨next, steps, valueEncodes⟩ := upTo.reduce encodes.isTyped below reduced
  rw [PlainTerm.rename_id] at valueEncodes
  have normal := isNormal_of_reduce? depth term value reduced
  obtain ⟨conclusion, yields, describes⟩ := normal.exists_conclusion valueEncodes
  have stands : Closure.StandsFor (.suspend [] term) (plain.substitute .occurrence) :=
    .suspend nearest fun _ _ found => by cases found
  rw [PlainTerm.substitute_occurrence] at stands
  exact ⟨conclusion, (Yields.of_steps steps yields).settles stands .nil,
    describes.promises reduces⟩

/-- A function that returns a subtraction with one argument missing, where an addition needs a
number. -/
theorem Composed.denotation_by_names_of_half :
    ∃ term, (Session.arithmetic.read
        "((lambda (g:num=>num x:num) (+ (g x) 1)) (lambda (y:num) (- y)) 2)").2 =
          .ok (some term) ∧
      term.isClosedIn [] = true ∧ term.copy.StaysBelow ∧ (∃ value, term.copy.ReducesTo value) ∧
        Settles (fun depth => (Closure.suspend [] term).run depth []) (some .notNumeric) ∧
          term.HasDenotation (.error (term.undefinedFailure notConstantReason)) := by
  have checked : (Session.arithmetic.term?
      "((lambda (g:num=>num x:num) (+ (g x) 1)) (lambda (y:num) (- y)) 2)").any (fun term =>
        term.isClosedIn [] && term.copy.checksBelow 30 && (term.copy.reduce? 30).isSome &&
          decide ((Closure.suspend [] term).run 30 [] = some .notNumeric)) = true := by
    decide +kernel
  obtain ⟨term, found, all⟩ := (Option.any_eq_true _ _).1 checked
  rw [Bool.and_eq_true, Bool.and_eq_true, Bool.and_eq_true, decide_eq_true_eq] at all
  obtain ⟨⟨⟨closed, bounded⟩, ends⟩, runs⟩ := all
  have result := Session.read_of_term? found
  have below := staysBelow_of_checksBelow bounded
  have reduces := exists_reducesTo ends
  have settles := Closure.settles_of_run runs
  obtain ⟨conclusion, comes, promises⟩ :=
    Composed.denotation_by_names (.read .arithmetic result) closed below reduces
  obtain rfl := Option.some.inj (comes.unique settles)
  exact ⟨term, result, closed, below, reduces, settles, promises⟩

/-! ### Dropped arguments -/

/-- The number at the head of a term, whatever it is applied to. -/
def headNumber? : Term → Option Float
  | .application function _ => function.headNumber?
  | .external ⟨_, .fixed (.float number), _, _⟩ 0 [] => some number
  | _ => none

/-- The number at the head of a term is what the term is reduced to, as every argument is dropped
once it is reduced itself. -/
theorem exists_of_headNumber? {depth : Nat} {term value : Term} {number : Float}
    (found : term.headNumber? = some number) (reduced : term.copy.reduce? depth = some value) :
    ∃ function : External, function.rule = .fixed (.float number) ∧
      value = .external function 0 [] := by
  induction depth generalizing term value with
  | zero => cases reduced
  | succ depth hypothesis =>
    unfold headNumber? at found
    split at found
    · rename_i function argument
      have copied : (Term.application function argument).copy =
          .application function.copy argument.copy := rfl
      rw [copied, reduce?_application, Option.bind_eq_some_iff] at reduced
      obtain ⟨head, functionReduced, reduced⟩ := reduced
      obtain ⟨supplied, -, reduced⟩ := Option.bind_eq_some_iff.1 reduced
      obtain ⟨constant, rule, rfl⟩ := hypothesis found functionReduced
      exact ⟨constant, rule, reduce?_external_nil_eq reduced⟩
    · obtain rfl := Option.some.inj found
      exact ⟨_, rfl, reduce?_external_nil_eq reduced⟩
    · cases found

/-- A term with a number at its head has this number as its denotation, however many arguments the
number is applied to, if its reduction ends. -/
theorem hasDenotation_of_headNumber? {term : Term} {number : Float}
    (found : term.headNumber? = some number)
    (reduces : ∃ value, term.copy.ReducesTo value) : term.HasDenotation (.ok (.float number)) := by
  obtain ⟨value, reduces⟩ := reduces
  obtain ⟨depth, reduced⟩ := reduces.exists_depth
  obtain ⟨function, rule, rfl⟩ := exists_of_headNumber? found reduced
  refine reduces.hasDenotation_of_ok rfl ?_
  rw [constantValue, rule]

/-- Two is applied to three. Evaluation by names comes across an argument that is too much, and the
denotation is two. -/
theorem denotes_applied_number :
    ∃ term, (Session.arithmetic.read "(2 3)").2 = .ok (some term) ∧ term.isClosedIn [] = true ∧
      term.copy.StaysBelow ∧ (∃ value, term.copy.ReducesTo value) ∧
        Settles (fun depth => (Closure.suspend [] term).run depth []) (some .oversupplied) ∧
          term.HasDenotation (.ok (.float 2)) ∧
            ∀ failure, ¬ term.HasDenotation (.error failure) := by
  have checked : (Session.arithmetic.term? "(2 3)").any (fun term =>
      term.isClosedIn [] && term.copy.checksBelow 30 && (term.copy.reduce? 30).isSome &&
        decide ((Closure.suspend [] term).run 30 [] = some .oversupplied) &&
          decide (term.headNumber? = some 2)) = true := by
    decide +kernel
  obtain ⟨term, found, all⟩ := (Option.any_eq_true _ _).1 checked
  rw [Bool.and_eq_true, Bool.and_eq_true, Bool.and_eq_true, Bool.and_eq_true,
    decide_eq_true_eq, decide_eq_true_eq] at all
  obtain ⟨⟨⟨⟨closed, bounded⟩, ends⟩, runs⟩, head⟩ := all
  have reduces := exists_reducesTo ends
  have denotes := hasDenotation_of_headNumber? head reduces
  refine ⟨term, Session.read_of_term? found, closed, staysBelow_of_checksBelow bounded, reduces,
    Closure.settles_of_run runs, denotes, fun failure failed => ?_⟩
  cases denotes.1.unique failed.1

end Term

end WordArithmetic
