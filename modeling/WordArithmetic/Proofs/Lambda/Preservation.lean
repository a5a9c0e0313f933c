/-
This file shows that reduction keeps the types that terms have by the rules, and tells when the type
that is found for a value is still the one that was found for the program.

Raising, filling and contracting keep types, so reduction does, as long as no index reaches the
reserved one. What is found for an external function is the type that it started with, however many
arguments it has received, so the type of a value is found again exactly if no external function in
it, below abstractions and in applications, holds an argument. That two such functions cannot make
up for each other is because a value is normal: an application in it has a variable at its head, and
this variable says which types its operands have.
-/

import WordArithmetic.Proofs.Lambda.Evaluation
import WordArithmetic.Proofs.Lambda.TypeRules

namespace WordArithmetic

namespace Typing

variable {marked : Prop} {context : List (String × SimpleType)} {term : Term} {type : SimpleType}

/-! ### Moving indexes keeps types -/

/-- A term that is put below more binders, outside some that it stands below already, keeps its
type. -/
theorem raise (typing : Typing marked context term type) (inner : List (String × SimpleType))
    {outer : List (String × SimpleType)} (split : context = inner ++ outer)
    (between : List (String × SimpleType)) :
    Typing marked (inner ++ (between ++ outer)) (term.raise between.length inner.length) type := by
  induction typing generalizing inner with
  | @occurrence context name type index code found mark =>
    subst split
    rw [Term.raise]
    by_cases near : index < inner.length
    · rw [List.getElem?_append_left near] at found
      rw [if_neg (by omega)]
      exact .occurrence (by rw [List.getElem?_append_left near]; exact found) mark
    · have place : (index : Int) + 1 + between.length =
          ((index + between.length : Nat) : Int) + 1 := by omega
      rw [if_pos (by omega), place]
      exact .occurrence
        ((getElem?_append_between between (Nat.le_of_not_lt near)).trans found) mark
  | @abstraction context name body argument result inside hypothesis =>
    exact .abstraction (hypothesis ((name, argument) :: inner) (by rw [split]; rfl))
  | application _ _ appliedHypothesis suppliedHypothesis =>
    exact .application (appliedHypothesis inner split) (suppliedHypothesis inner split)
  | number value => exact .number value
  | operator operator =>
    rw [Term.raise_operator _ (Int.natCast_nonneg _)]
    exact .operator operator
  | @half context operator first supplied hypothesis =>
    rw [Term.raise, Term.raiseAll, Term.raiseAll, Term.raiseAll,
      Term.raise_lastPlaceholder _ (by omega)]
    exact .half fun other =>
      hypothesis other ((placeholderName, other) :: inner) (by rw [split]; rfl)
  | full _ _ leftHypothesis rightHypothesis =>
    rw [Term.raise, Term.raiseAll, Term.raiseAll, Term.raiseAll, Int.add_zero]
    exact .full (leftHypothesis inner split) (rightHypothesis inner split)

/-- A term that is put below more binders keeps its type. -/
theorem raise_outside (typing : Typing marked context term type)
    (between : List (String × SimpleType)) :
    Typing marked (between ++ context) (term.raise between.length 0) type :=
  typing.raise [] rfl between

/-- A term in which a binder is removed keeps its type, if what takes the place of its variable has
the type of the binder. -/
theorem fill (typing : Typing marked context term type) (inner : List (String × SimpleType))
    {name : String} {argument : SimpleType} {outer : List (String × SimpleType)}
    (split : context = inner ++ (name, argument) :: outer) {replacement : Term}
    (supplied : Typing marked outer replacement argument) :
    Typing marked (inner ++ outer) (Term.fill (some name) replacement (inner.length + 1) term)
      type := by
  induction typing generalizing inner with
  | @occurrence context other type index code found mark =>
    subst split
    rcases Nat.lt_trichotomy index inner.length with near | here | far
    · rw [Term.fill_variable_of_lt _ _ _ _ (by omega)]
      rw [List.getElem?_append_left near] at found
      exact .occurrence (by rw [List.getElem?_append_left near]; exact found) mark
    · subst here
      rw [List.getElem?_append_right (Nat.le_refl _), Nat.sub_self,
        List.getElem?_cons_zero] at found
      obtain ⟨rfl, rfl⟩ := Prod.mk.inj (Option.some.inj found)
      rw [Term.fill, if_pos ⟨rfl, rfl⟩, Int.add_sub_cancel]
      exact supplied.raise_outside inner
    · have place : (index : Int) + 1 - 1 = ((index - 1 : Nat) : Int) + 1 := by omega
      rw [Term.fill, if_neg (by omega), if_pos (by omega), place]
      exact .occurrence ((getElem?_append_without _ far).trans found) mark
  | @abstraction context other body taken result inside hypothesis =>
    have below := hypothesis ((other, taken) :: inner) (by rw [split]; rfl)
    rw [List.length_cons, Int.natCast_succ] at below
    rw [Term.fill]
    exact .abstraction below
  | application _ _ appliedHypothesis suppliedHypothesis =>
    rw [Term.fill]
    exact .application (appliedHypothesis inner split) (suppliedHypothesis inner split)
  | number value =>
    rw [Term.fill_number]
    exact .number value
  | operator operator =>
    rw [Term.fill_operator _ _ (by omega)]
    exact .operator operator
  | @half context operator first _ hypothesis =>
    rw [Term.fill_half _ _ (by omega)]
    refine .half fun other => ?_
    have below := hypothesis other ((placeholderName, other) :: inner) (by rw [split]; rfl)
    rw [List.length_cons, Int.natCast_succ] at below
    exact below
  | full _ _ leftHypothesis rightHypothesis =>
    rw [Term.fill_full _ _ (by omega)]
    exact .full (leftHypothesis inner split) (rightHypothesis inner split)

/-- A term in which the nearest binder is removed keeps its type. -/
theorem fill_nearest {name : String} {argument : SimpleType} {replacement : Term}
    (typing : Typing marked ((name, argument) :: context) term type)
    (supplied : Typing marked context replacement argument) :
    Typing marked context (Term.fill (some name) replacement 1 term) type :=
  typing.fill [] rfl supplied

/-! ### Contractions keep types -/

/-- What an operator holds below a placeholder is not the placeholder, since it has its type
whatever the placeholder is. -/
theorem isVariable_one_of_forall
    (typing : ∀ other, Typing marked ((placeholderName, other) :: context) term .number) :
    term.isVariable (some placeholderName) 1 = false := by
  have typed := typing .operation
  cases typed with
  | @occurrence _ name _ index code found mark =>
    cases index with
    | zero =>
      rw [List.getElem?_cons_zero] at found
      cases found
    | succ index =>
      have different : ((index.succ : Nat) : Int) + 1 ≠ 1 := by omega
      rw [Term.isVariable, decide_eq_false different, Bool.and_false]
  | _ => rfl

/-- What comes of a function and an operand that it takes has the type of the application. -/
theorem contract {head supplied result : Term} {argument : SimpleType}
    (applied : Typing marked context head (.arrow argument type))
    (operand : Typing marked context supplied argument)
    (contracted : head.contractPlainly? supplied = some result) :
    Typing marked context result type := by
  match head with
  | .variable name code index => cases contracted
  | .application function operand => cases contracted
  | .abstraction name code body =>
    obtain ⟨taken, left, rfl, same, inside⟩ := applied.abstraction_cases
    obtain ⟨rfl, rfl⟩ := SimpleType.arrow.inj same
    obtain rfl := Option.some.inj contracted
    exact inside.fill_nearest operand
  | .external function missing arguments =>
    generalize same : SimpleType.arrow argument type = whole at applied
    cases applied with
    | number value => cases same
    | operator operator =>
      obtain ⟨rfl, rfl⟩ := SimpleType.arrow.inj same
      obtain rfl := Option.some.inj
        (contracted.symm.trans (Encodes.contract_operator operator supplied))
      exact .half fun other => operand.raise_outside [(placeholderName, other)]
    | @half _ operator first held =>
      obtain ⟨rfl, rfl⟩ := SimpleType.arrow.inj same
      have apart := isVariable_one_of_forall held
      obtain rfl := Option.some.inj
        (contracted.symm.trans (Term.contractPlainly?_half operator supplied apart))
      exact .full ((held .number).fill_nearest operand) operand
    | full _ _ => cases same

end Typing

/-! ### Reduction keeps types -/

theorem Typing.isTyped {context : List (String × SimpleType)} {term : Term} {type : SimpleType}
    (typing : Typing True context term type) : term.isTyped = true := by
  induction typing with
  | @occurrence context name type index code found mark =>
    rw [mark trivial]
    exact bne_iff_ne.2 type.code_ne_untyped
  | abstraction _ hypothesis => exact hypothesis
  | application _ _ appliedHypothesis suppliedHypothesis =>
    exact (Bool.and_eq_true _ _).mpr ⟨appliedHypothesis, suppliedHypothesis⟩
  | number value => rfl
  | operator operator => rfl
  | half _ hypothesis => exact (Bool.and_eq_true _ _).mpr ⟨hypothesis .number, rfl⟩
  | full _ _ leftHypothesis rightHypothesis =>
    exact (Bool.and_eq_true _ _).mpr
      ⟨leftHypothesis, (Bool.and_eq_true _ _).mpr ⟨rightHypothesis, rfl⟩⟩

/-- As long as indexes stay below the reserved one, a contraction is what it would be if indexes
only moved. -/
theorem Term.StaysBelow.contractPlainly?_eq {function argument head supplied result : Term}
    {depth : Nat} (below : (Term.application function argument).StaysBelow)
    (functionReduced : reduce? depth function = some head)
    (argumentReduced : reduce? depth argument = some supplied) (typed : supplied.isTyped = true)
    (contracted : head.contract? supplied = some result) :
    head.contractPlainly? supplied = some result := by
  cases moved : head.contractPlainly? supplied with
  | none => cases head <;> cases moved <;> cases contracted
  | some plain =>
    have plainBelow := below plain (Visits.moved functionReduced argumentReduced moved)
    have same := contract?_eq typed moved plainBelow
    exact same.symm.trans contracted

/-- The value that a term is reduced to has the type of the term. -/
theorem Typing.reduce {depth : Nat} {context : List (String × SimpleType)} {term value : Term}
    {type : SimpleType} (typing : Typing True context term type) (below : term.StaysBelow)
    (reduced : Term.reduce? depth term = some value) : Typing True context value type := by
  induction depth generalizing context term value type with
  | zero => cases reduced
  | succ depth hypothesis =>
    cases typing with
    | occurrence found mark =>
      obtain rfl := Option.some.inj reduced
      exact .occurrence found mark
    | abstraction inside =>
      rw [Term.reduce?, Option.map_eq_some_iff] at reduced
      obtain ⟨bodyValue, bodyReduced, rfl⟩ := reduced
      exact .abstraction (hypothesis inside below.body bodyReduced)
    | @application _ function operand argument _ applied supplied =>
      rw [Term.reduce?_application, Option.bind_eq_some_iff] at reduced
      obtain ⟨head, functionReduced, reduced⟩ := reduced
      rw [Option.bind_eq_some_iff] at reduced
      obtain ⟨operandValue, operandReduced, reduced⟩ := reduced
      have headTyping := hypothesis applied below.function functionReduced
      have valueTyping := hypothesis supplied below.argument operandReduced
      cases contracted : head.contract? operandValue with
      | none =>
        rw [contracted] at reduced
        obtain rfl := Option.some.inj reduced
        exact .application headTyping valueTyping
      | some result =>
        rw [contracted] at reduced
        have plainly := below.contractPlainly?_eq functionReduced operandReduced
          valueTyping.isTyped contracted
        have resultBelow : result.StaysBelow := fun state visited =>
          below state (.contracted functionReduced operandReduced contracted visited)
        exact hypothesis (headTyping.contract valueTyping plainly) resultBelow reduced
    | number value =>
      rw [Term.reduce?_external_nil_eq reduced]
      exact .number value
    | operator operator =>
      obtain ⟨values, each, rfl⟩ := Term.exists_of_reduce?_external reduced
      obtain _ | ⟨first, _ | ⟨last, _ | _⟩⟩ := each
      rw [Term.reduce?_variable_eq first, Term.reduce?_variable_eq last]
      exact .operator operator
    | half supplied =>
      obtain ⟨values, each, rfl⟩ := Term.exists_of_reduce?_external reduced
      obtain _ | ⟨first, _ | ⟨last, _ | _⟩⟩ := each
      rw [Term.reduce?_variable_eq last]
      exact .half fun other =>
        hypothesis (supplied other) (below.among (List.mem_cons_self ..)) first
    | full leftSupplied rightSupplied =>
      obtain ⟨values, each, rfl⟩ := Term.exists_of_reduce?_external reduced
      obtain _ | ⟨first, _ | ⟨second, _ | _⟩⟩ := each
      exact .full (hypothesis leftSupplied (below.among (List.mem_cons_self ..)) first)
        (hypothesis rightSupplied
          (below.among (List.mem_cons_of_mem _ (List.mem_cons_self ..))) second)

/-! ### External functions that hold arguments -/

/-- Whether an external function, below abstractions or in applications, holds an argument. -/
def Term.hasSupplied : Term → Bool
  | .variable .. => false
  | .abstraction _ _ body => body.hasSupplied
  | .application function argument => function.hasSupplied || argument.hasSupplied
  | .external function missing _ => decide (missing < function.argumentTypes.length)

theorem Anchored.hasSupplied {context : List (String × SimpleType)} {term : Term}
    (anchored : Anchored context term) : term.hasSupplied = false := by
  induction anchored with
  | free _ => rfl
  | bound _ => rfl
  | abstraction _ hypothesis => exact hypothesis
  | application _ _ functionHypothesis argumentHypothesis =>
    exact (Bool.or_eq_false_iff).2 ⟨functionHypothesis, argumentHypothesis⟩
  | number value => rfl
  | operator operator => rfl

section Supplied

variable {context : List (String × SimpleType)} {term : Term} {type : SimpleType}

theorem Means.of_getElem? {name : String} {index : Nat}
    (found : context[index]? = some (name, type)) :
    ∃ meaning, Means (context.map Prod.snd) (.occurrence index) type meaning := by
  induction context generalizing index with
  | nil => cases found
  | cons entry context hypothesis =>
    cases index with
    | zero =>
      obtain rfl := Option.some.inj found
      exact ⟨_, .nearest⟩
    | succ index =>
      obtain ⟨meaning, means⟩ := hypothesis found
      exact ⟨_, .further means⟩

/-- A typed term in which no external function holds an argument is read as a plain term of the same
type. -/
theorem Typing.exists_plain (typing : Typing True context term type)
    (unsupplied : term.hasSupplied = false) :
    ∃ plain meaning, Encodes (context.map Prod.fst) term plain ∧
      Means (context.map Prod.snd) plain type meaning := by
  induction typing with
  | @occurrence context name type index code found mark =>
    obtain ⟨meaning, means⟩ := Means.of_getElem? found
    have named : (context.map Prod.fst)[index]? = some name := by
      rw [List.getElem?_map, found]
      rfl
    refine ⟨_, meaning, .occurrence named ?_, means⟩
    rw [mark trivial]
    exact type.code_ne_untyped
  | abstraction _ hypothesis =>
    obtain ⟨plain, meaning, encodes, means⟩ := hypothesis unsupplied
    exact ⟨_, _, .abstraction encodes, .abstraction means⟩
  | application _ _ appliedHypothesis suppliedHypothesis =>
    obtain ⟨functionUnsupplied, operandUnsupplied⟩ := Bool.or_eq_false_iff.1 unsupplied
    obtain ⟨left, leftMeaning, leftEncodes, leftMeans⟩ := appliedHypothesis functionUnsupplied
    obtain ⟨right, rightMeaning, rightEncodes, rightMeans⟩ := suppliedHypothesis operandUnsupplied
    exact ⟨_, _, .application leftEncodes rightEncodes, .application leftMeans rightMeans⟩
  | number value => exact ⟨_, _, .number value, .number value⟩
  | operator operator => exact ⟨_, _, .operator operator, .operator operator⟩
  | half _ _ => cases unsupplied
  | full _ _ _ _ => cases unsupplied

/-- The type that is found for a typed term is its type by the rules, if no external function in it
holds an argument. -/
theorem Typing.typecheck_eq (typing : Typing True context term type)
    (unsupplied : term.hasSupplied = false) : term.typecheck = .ok type.code := by
  induction typing with
  | occurrence found mark =>
    rw [Term.typecheck, mark trivial]
    rfl
  | @abstraction context name body argument result inside hypothesis =>
    rw [Term.typecheck, hypothesis unsupplied]
    exact SimpleType.concat_code argument result
  | @application context function operand argument result _ _ appliedHypothesis
      suppliedHypothesis =>
    obtain ⟨functionUnsupplied, operandUnsupplied⟩ := Bool.or_eq_false_iff.1 unsupplied
    rw [Term.typecheck, appliedHypothesis functionUnsupplied, suppliedHypothesis operandUnsupplied]
    exact congrArg Except.ok (SimpleType.application_code argument result)
  | number value => rfl
  | operator operator => rfl
  | half _ _ => cases unsupplied
  | full _ _ _ _ => cases unsupplied

/-- If an external function in a typed normal form holds an argument, another type than that by the
rules is found, if any, and for an application it is found that there is none. -/
theorem Term.IsNormal.typecheck_of_hasSupplied (normal : term.IsNormal)
    (typing : Typing True context term type) (supplied : term.hasSupplied = true)
    {code : TypeCode} (typed : term.typecheck = .ok code) :
    code ≠ type.code ∧
      ∀ function argument, term = .application function argument → code = TypeCode.untyped := by
  induction typing generalizing code with
  | occurrence _ _ => cases supplied
  | @abstraction context name body argument result inside hypothesis =>
    obtain ⟨bodyCode, bodyTyped, joined⟩ := typecheck_abstraction typed
    cases normal with
    | abstraction _ _ bodyNormal =>
      have different := (hypothesis bodyNormal supplied bodyTyped).1
      refine ⟨?_, fun _ _ same => by cases same⟩
      rintro rfl
      exact different (SimpleType.eq_of_concat_eq joined)
  | @application context function operand argument result applied _ functionHypothesis
      operandHypothesis =>
    obtain ⟨functionCode, operandCode, functionTyped, operandTyped, rfl⟩ :=
      typecheck_application typed
    suffices absent : TypeCode.application functionCode operandCode = TypeCode.untyped by
      rw [absent]
      exact ⟨fun same => result.code_ne_untyped same.symm, fun _ _ _ => rfl⟩
    cases normal with
    | application functionNormal operandNormal stuck =>
      by_cases inFunction : function.hasSupplied = true
      · -- only an application that is stuck can hold something and take an operand
        have untyped : functionCode = TypeCode.untyped := by
          have untyped := (functionHypothesis functionNormal inFunction functionTyped).2
          match function with
          | .variable name code index => cases inFunction
          | .application inner first => exact untyped inner first rfl
          | .abstraction name code body => cases stuck
          | .external sign missing arguments => cases stuck
        rw [untyped, SimpleType.application_untyped_left]
      · rw [Bool.not_eq_true] at inFunction
        have inOperand : operand.hasSupplied = true := by
          rw [hasSupplied, inFunction, Bool.false_or] at supplied
          exact supplied
        have different := (operandHypothesis operandNormal inOperand operandTyped).1
        rw [applied.typecheck_eq inFunction, Except.ok.injEq] at functionTyped
        rw [← functionTyped, SimpleType.application_of_ne different.symm]
  | number value => cases supplied
  | operator operator => cases supplied
  | half _ _ =>
    obtain rfl := Except.ok.inj typed
    refine ⟨fun same => ?_, fun _ _ same => by cases same⟩
    have types : SimpleType.operation.code = (SimpleType.arrow .number .number).code := same
    exact absurd (SimpleType.code_injective types) (by decide)
  | full _ _ _ _ =>
    obtain rfl := Except.ok.inj typed
    refine ⟨fun same => ?_, fun _ _ same => by cases same⟩
    have types : SimpleType.operation.code = SimpleType.number.code := same
    exact absurd (SimpleType.code_injective types) (by decide)

/-- The type that is found for a typed normal form is its type by the rules exactly if no external
function in it holds an argument. -/
theorem Term.IsNormal.typecheck_eq_iff (normal : term.IsNormal)
    (typing : Typing True context term type) :
    term.typecheck = .ok type.code ↔ term.hasSupplied = false := by
  constructor
  · intro typed
    by_contra supplied
    rw [Bool.not_eq_false] at supplied
    exact (normal.typecheck_of_hasSupplied typing supplied typed).1 rfl
  · exact typing.typecheck_eq

end Supplied

namespace Session.Reachable

variable {session : Session} {code : String} {term : Term}

/-- The value of a program without free variables whose type is found has the same type by the
rules. It is found again exactly if no external function in the value holds an argument. -/
theorem typecheck_value_iff (reachable : session.Reachable)
    (result : (session.read code).2 = .ok (some term)) (closed : term.isClosedIn [] = true)
    {type : TypeCode} (typed : term.typecheck = .ok type) (fits : type ≠ TypeCode.untyped)
    (below : term.copy.StaysBelow) :
    ∃ (simple : SimpleType) (value : Term), type = simple.code ∧ term.copy.ReducesTo value ∧
      HasType [] value simple ∧ (value.typecheck = .ok type ↔ value.hasSupplied = false) := by
  have written := (reachable.isWritten.read code).2 term result
  have anchored := written.anchored
  rw [written.copy] at below ⊢
  obtain ⟨found, foundTyped, right, -⟩ | ⟨failed, -⟩ := anchored.typecheck_cases closed
  · obtain rfl := Except.ok.inj (foundTyped.symm.trans typed)
    obtain ⟨simple, rfl, typing⟩ | ⟨untyped, -⟩ := right
    · obtain ⟨plain, meaning, encodes, means⟩ := typing.exists_plain anchored.hasSupplied
      obtain ⟨value, next, reduces, -, -⟩ := encodes.reducesTo means below
      obtain ⟨depth, reduced⟩ := reduces.exists_depth
      have valueTyping := typing.reduce below reduced
      have normal := Term.isNormal_of_reduce? depth term value reduced
      exact ⟨simple, value, rfl, reduces, valueTyping.hasType,
        normal.typecheck_eq_iff valueTyping⟩
    · exact absurd untyped fits
  · rw [failed] at typed
    cases typed

/-- A function that keeps a subtraction with one argument missing. -/
theorem typecheck_value_iff_of_half :
    ∃ term, (Session.arithmetic.read
        "((lambda (f:num=>num x:num) (lambda (y:num) (f (f x)))) (- 10))").2 = .ok (some term) ∧
      term.isClosedIn [] = true ∧
      ∃ type, term.typecheck = .ok type ∧ type ≠ TypeCode.untyped ∧ term.copy.StaysBelow ∧
        ∃ (simple : SimpleType) (value : Term), type = simple.code ∧ term.copy.ReducesTo value ∧
          HasType [] value simple ∧ (value.typecheck = .ok type ↔ value.hasSupplied = false) := by
  have checked : (Session.arithmetic.term?
      "((lambda (f:num=>num x:num) (lambda (y:num) (f (f x)))) (- 10))").any (fun term =>
        term.isClosedIn [] && term.copy.checksBelow 30 &&
          term.typecheck.toOption == some SimpleType.operation.code) = true := by
    decide +kernel
  obtain ⟨term, found, all⟩ := (Option.any_eq_true _ _).1 checked
  rw [Bool.and_eq_true, Bool.and_eq_true, beq_iff_eq] at all
  obtain ⟨⟨closed, bounded⟩, type⟩ := all
  have result := Session.read_of_term? found
  have typed := eq_ok_of_toOption type
  have fits := SimpleType.operation.code_ne_untyped
  have below := Term.staysBelow_of_checksBelow bounded
  exact ⟨term, result, closed, _, typed, fits, below,
    typecheck_value_iff .arithmetic result closed typed fits below⟩

/-- An addition with one argument is found to take one number, and its value to take two. -/
theorem typecheck_value_ne_of_half :
    ∃ term value : Term, (Session.arithmetic.read "(+ 2)").2 = .ok (some term) ∧
      term.isClosedIn [] = true ∧
      term.typecheck = .ok (SimpleType.arrow .number .number).code ∧
      term.copy.ReducesTo value ∧ value.typecheck = .ok SimpleType.operation.code ∧
      SimpleType.operation.code ≠ (SimpleType.arrow .number .number).code := by
  have checked : (Session.arithmetic.term? "(+ 2)").any (fun term =>
      term.isClosedIn [] &&
        term.typecheck.toOption == some (SimpleType.arrow .number .number).code &&
        (term.copy.reduce? 5).any fun value =>
          value.typecheck.toOption == some SimpleType.operation.code) = true := by
    decide +kernel
  obtain ⟨term, found, all⟩ := (Option.any_eq_true _ _).1 checked
  rw [Bool.and_eq_true, Bool.and_eq_true, beq_iff_eq] at all
  obtain ⟨⟨closed, type⟩, reduces⟩ := all
  obtain ⟨value, reduced, valueType⟩ := (Option.any_eq_true _ _).1 reduces
  refine ⟨term, value, Session.read_of_term? found, closed, eq_ok_of_toOption type,
    ⟨5, fun depth enough => Term.reduce?_of_le enough reduced⟩,
    eq_ok_of_toOption (beq_iff_eq.1 valueType), fun same => ?_⟩
  exact absurd (SimpleType.code_injective same) (by decide)

end Session.Reachable

end WordArithmetic
