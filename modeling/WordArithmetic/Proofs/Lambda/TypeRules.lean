/-
This file gives the typing rules and compares them with the type that is found for a term.

By the rules a variable has the type that its binder is annotated with, a number is a number, and an
operator takes two numbers, one after the other, and returns one. The type that is found goes by
what is written on a variable instead. A program writes on every variable the type of the binder
that its index counts to, also beyond the reserved index, so the two agree on every term without
free variables. Only where the body of an abstraction has no type do they part: by the rules the
term has no type, but none is found either, because the search ends with a failure.
-/

import WordArithmetic.Proofs.Lambda.Denotation
import WordArithmetic.Proofs.Lambda.Encoding
import WordArithmetic.Proofs.Lambda.Reader
import WordArithmetic.Proofs.Lambda.Typing

namespace WordArithmetic

/-! ### The rules -/

/-- A term has a type below binders with these names and types, the nearest first. An operator that
has received an argument is a function of the other one, and the argument has its type whatever the
placeholder that it stands below is. If the term is `marked`, every variable has the type of its
binder written on it. -/
inductive Typing (marked : Prop) : List (String × SimpleType) → Term → SimpleType → Prop
  | occurrence {context : List (String × SimpleType)} {name : String} {type : SimpleType}
      {index : Nat} {code : TypeCode} (found : context[index]? = some (name, type))
      (mark : marked → code = type.code) :
      Typing marked context (.variable name code (index + 1)) type
  | abstraction {context : List (String × SimpleType)} {name : String} {body : Term}
      {argument result : SimpleType}
      (inside : Typing marked ((name, argument) :: context) body result) :
      Typing marked context (.abstraction name argument.code body) (.arrow argument result)
  | application {context : List (String × SimpleType)} {function operand : Term}
      {argument result : SimpleType}
      (applied : Typing marked context function (.arrow argument result))
      (supplied : Typing marked context operand argument) :
      Typing marked context (.application function operand) result
  | number {context : List (String × SimpleType)} (value : Float) :
      Typing marked context (Term.number value) .number
  | operator {context : List (String × SimpleType)} (operator : Operator) :
      Typing marked context operator.external.term .operation
  | half {context : List (String × SimpleType)} {operator : Operator} {first : Term}
      (supplied : ∀ other, Typing marked ((placeholderName, other) :: context) first .number) :
      Typing marked context (.external operator.external 1 [first, lastPlaceholder])
        (.arrow .number .number)
  | full {context : List (String × SimpleType)} {operator : Operator} {first second : Term}
      (leftSupplied : Typing marked context first .number)
      (rightSupplied : Typing marked context second .number) :
      Typing marked context (.external operator.external 0 [first, second]) .number

/-- A term has a type by the rules, whatever types are written on its variables. -/
abbrev HasType : List (String × SimpleType) → Term → SimpleType → Prop :=
  Typing False

namespace Typing

variable {marked : Prop} {context : List (String × SimpleType)} {name : String} {code : TypeCode}
  {body function operand : Term} {type : SimpleType}

theorem abstraction_cases (typing : Typing marked context (.abstraction name code body) type) :
    ∃ argument result, code = argument.code ∧ type = .arrow argument result ∧
      Typing marked ((name, argument) :: context) body result := by
  cases typing with
  | abstraction inside => exact ⟨_, _, rfl, rfl, inside⟩

theorem application_cases
    (typing : Typing marked context (.application function operand) type) :
    ∃ argument, Typing marked context function (.arrow argument type) ∧
      Typing marked context operand argument := by
  cases typing with
  | application applied supplied => exact ⟨_, applied, supplied⟩

theorem hasType {term : Term} (typing : Typing marked context term type) :
    HasType context term type := by
  induction typing with
  | occurrence found _ => exact .occurrence found False.elim
  | abstraction _ hypothesis => exact .abstraction hypothesis
  | application _ _ appliedHypothesis suppliedHypothesis =>
    exact .application appliedHypothesis suppliedHypothesis
  | number value => exact .number value
  | operator operator => exact .operator operator
  | half _ hypothesis => exact .half hypothesis
  | full _ _ leftHypothesis rightHypothesis => exact .full leftHypothesis rightHypothesis

/-- How many arguments an external function is waiting for tells its type. -/
theorem external_cases {function : External} {missing : Int} {arguments : List Term}
    (typing : Typing marked context (.external function missing arguments) type) :
    missing = 0 ∧ type = .number ∨ missing = 1 ∧ type = .arrow .number .number ∨
      missing = 2 ∧ type = .operation := by
  cases typing with
  | number value => exact .inl ⟨rfl, rfl⟩
  | operator operator => exact .inr (.inr ⟨rfl, rfl⟩)
  | half supplied => exact .inr (.inl ⟨rfl, rfl⟩)
  | full leftSupplied rightSupplied => exact .inl ⟨rfl, rfl⟩

end Typing

/-- A term has no more than one type. -/
theorem HasType.unique {context : List (String × SimpleType)} {term : Term}
    {type other : SimpleType} (typing : HasType context term type)
    (otherTyping : HasType context term other) : type = other := by
  induction typing generalizing other with
  | @occurrence context name type index code found mark =>
    generalize place : (index : Int) + 1 = position at otherTyping
    cases otherTyping with
    | @occurrence _ _ _ otherIndex _ otherFound _ =>
      obtain rfl : index = otherIndex := by omega
      rw [found] at otherFound
      exact congrArg Prod.snd (Option.some.inj otherFound)
  | abstraction _ hypothesis =>
    obtain ⟨argument, result, same, rfl, inside⟩ := otherTyping.abstraction_cases
    obtain rfl := SimpleType.code_injective same
    rw [hypothesis inside]
  | application _ _ appliedHypothesis _ =>
    obtain ⟨argument, applied, _⟩ := otherTyping.application_cases
    exact (SimpleType.arrow.inj (appliedHypothesis applied)).2
  | number value | full _ _ _ _ =>
    obtain ⟨-, rfl⟩ | ⟨impossible, -⟩ | ⟨impossible, -⟩ := otherTyping.external_cases
    · rfl
    · cases impossible
    · cases impossible
  | operator operator =>
    obtain ⟨impossible, -⟩ | ⟨impossible, -⟩ | ⟨-, rfl⟩ := otherTyping.external_cases
    · cases impossible
    · cases impossible
    · rfl
  | half _ _ =>
    obtain ⟨impossible, -⟩ | ⟨-, rfl⟩ | ⟨impossible, -⟩ := otherTyping.external_cases
    · cases impossible
    · rfl
    · cases impossible

/-! ### Terms that programs write -/

namespace Term

mutual

/-- Whether a term below binders of these names has no free variable: every index counts to a binder
of the variable's name. -/
def isClosedIn (names : List String) : Term → Bool
  | .variable name _ index => decide (0 < index) && names[(index - 1).toNat]? == some name
  | .abstraction name _ body => body.isClosedIn (name :: names)
  | .application function argument => function.isClosedIn names && argument.isClosedIn names
  | .external _ missing arguments =>
    areClosedIn (List.replicate missing.toNat placeholderName ++ names) arguments

/-- The same for the arguments of an external function. -/
def areClosedIn (names : List String) : List Term → Bool
  | [] => true
  | first :: rest => first.isClosedIn names && areClosedIn names rest

end

end Term

/-- Every variable of a term below binders with these names and types is free, or has the type of
the binder written on it that its index counts to. -/
inductive Anchored : List (String × SimpleType) → Term → Prop
  | free {context : List (String × SimpleType)} {name : String}
      (absent : name ∉ context.map Prod.fst) : Anchored context (Term.free name)
  | bound {context : List (String × SimpleType)} {name : String} {type : SimpleType} {index : Nat}
      (found : context[index]? = some (name, type)) :
      Anchored context (.variable name type.code (index + 1))
  | abstraction {context : List (String × SimpleType)} {name : String} {type : SimpleType}
      {body : Term} (inside : Anchored ((name, type) :: context) body) :
      Anchored context (.abstraction name type.code body)
  | application {context : List (String × SimpleType)} {function argument : Term}
      (applied : Anchored context function) (supplied : Anchored context argument) :
      Anchored context (.application function argument)
  | number {context : List (String × SimpleType)} (value : Float) :
      Anchored context (Term.number value)
  | operator {context : List (String × SimpleType)} (operator : Operator) :
      Anchored context operator.external.term

/-- Binding a name by an abstraction around all others keeps variables anchored. One that has the
reserved index is bound again, to the new binder and with its type. -/
theorem Anchored.capture {context : List (String × SimpleType)} {term : Term}
    (anchored : Anchored context term) (name : String) (type : SimpleType) :
    Anchored (context ++ [(name, type)])
      (term.capture name type.code (context.length + 1)) := by
  have last : ∀ context : List (String × SimpleType),
      (context ++ [(name, type)])[context.length]? = some (name, type) := by
    intro context
    rw [List.getElem?_append_right (Nat.le_refl _), Nat.sub_self]
    rfl
  induction anchored with
  | @free context other absent =>
    rw [Term.free, Term.capture]
    by_cases same : name = other
    · subst same
      rw [if_pos ⟨rfl, rfl⟩, SimpleType.addBrackets_code]
      exact Anchored.bound (last context)
    · rw [if_neg fun captured => same captured.1]
      refine Anchored.free ?_
      rw [List.map_append, List.mem_append, not_or]
      exact ⟨absent, fun added => same (List.mem_singleton.1 added).symm⟩
  | @bound context other otherType index found =>
    rw [Term.capture]
    by_cases captured : name = other ∧ (index : Int) + 1 = freeIndex
    · rw [if_pos captured, SimpleType.addBrackets_code, ← captured.1]
      exact Anchored.bound (last context)
    · rw [if_neg captured]
      have near := (List.getElem?_eq_some_iff.1 found).1
      refine Anchored.bound ?_
      rw [List.getElem?_append_left near]
      exact found
  | abstraction _ hypothesis =>
    rw [List.length_cons, Int.natCast_succ] at hypothesis
    exact Anchored.abstraction hypothesis
  | application _ _ functionHypothesis argumentHypothesis =>
    exact Anchored.application functionHypothesis argumentHypothesis
  | number value => exact Anchored.number value
  | operator operator => exact Anchored.operator operator

/-- The variables of a written term are anchored. -/
theorem Term.Written.anchored {term : Term} (written : term.Written) : Anchored [] term := by
  induction written with
  | free name => exact Anchored.free List.not_mem_nil
  | number value => exact Anchored.number value
  | operator operator => exact Anchored.operator operator
  | application _ _ functionHypothesis argumentHypothesis =>
    exact Anchored.application functionHypothesis argumentHypothesis
  | @abstract name type body _ _ hypothesis =>
    exact Anchored.abstraction (hypothesis.capture name type)

/-! ### Abstractions over bodies without type -/

/-- Somewhere in a term, outside the arguments of external functions, stands an abstraction whose
body has no type. -/
inductive HasUntypedBody : List (String × SimpleType) → Term → Prop
  | here {context : List (String × SimpleType)} {name : String} {argument : SimpleType}
      {body : Term} (untyped : ∀ type, ¬HasType ((name, argument) :: context) body type) :
      HasUntypedBody context (.abstraction name argument.code body)
  | body {context : List (String × SimpleType)} {name : String} {argument : SimpleType}
      {body : Term} (later : HasUntypedBody ((name, argument) :: context) body) :
      HasUntypedBody context (.abstraction name argument.code body)
  | function {context : List (String × SimpleType)} {function operand : Term}
      (later : HasUntypedBody context function) :
      HasUntypedBody context (.application function operand)
  | operand {context : List (String × SimpleType)} {function operand : Term}
      (later : HasUntypedBody context operand) :
      HasUntypedBody context (.application function operand)

/-- A term in which the body of an abstraction has no type has none either. -/
theorem HasUntypedBody.not_hasType {context : List (String × SimpleType)} {term : Term}
    (untyped : HasUntypedBody context term) (type : SimpleType) : ¬HasType context term type := by
  intro typing
  induction untyped generalizing type with
  | here untyped =>
    obtain ⟨argument, result, same, rfl, inside⟩ := typing.abstraction_cases
    obtain rfl := SimpleType.code_injective same
    exact untyped result inside
  | body _ hypothesis =>
    obtain ⟨argument, result, same, rfl, inside⟩ := typing.abstraction_cases
    obtain rfl := SimpleType.code_injective same
    exact hypothesis result inside
  | function _ hypothesis =>
    obtain ⟨argument, applied, -⟩ := typing.application_cases
    exact hypothesis _ applied
  | operand _ hypothesis =>
    obtain ⟨argument, -, supplied⟩ := typing.application_cases
    exact hypothesis argument supplied

theorem Typing.not_hasUntypedBody {marked : Prop} {context : List (String × SimpleType)}
    {term : Term} {type : SimpleType} (typing : Typing marked context term type) :
    ¬HasUntypedBody context term :=
  fun untyped => untyped.not_hasType type typing.hasType

theorem HasUntypedBody.not_application {context : List (String × SimpleType)}
    {function operand : Term} (functionSound : ¬HasUntypedBody context function)
    (operandSound : ¬HasUntypedBody context operand) :
    ¬HasUntypedBody context (.application function operand) := by
  intro untyped
  cases untyped with
  | function later => exact functionSound later
  | operand later => exact operandSound later

/-! ### The type that is found -/

/-- A written type is what the rules say of a term: its type, or that it has none. -/
def IsVerdict (context : List (String × SimpleType)) (term : Term) (code : TypeCode) : Prop :=
  (∃ type : SimpleType, code = type.code ∧ Typing True context term type) ∨
    code = TypeCode.untyped ∧ ∀ type, ¬HasType context term type

theorem IsVerdict.eq_code_iff {context : List (String × SimpleType)} {term : Term}
    {code : TypeCode} (right : IsVerdict context term code) (type : SimpleType) :
    code = type.code ↔ HasType context term type := by
  obtain ⟨simple, rfl, typing⟩ | ⟨rfl, untyped⟩ := right
  · constructor
    · intro same
      rw [← SimpleType.code_injective same]
      exact typing.hasType
    · intro other
      rw [typing.hasType.unique other]
  · exact ⟨fun same => absurd same.symm type.code_ne_untyped,
      fun typing => absurd typing (untyped type)⟩

theorem IsVerdict.eq_untyped_iff {context : List (String × SimpleType)} {term : Term}
    {code : TypeCode} (right : IsVerdict context term code) :
    code = TypeCode.untyped ↔ ∀ type, ¬HasType context term type := by
  obtain ⟨simple, rfl, typing⟩ | ⟨rfl, untyped⟩ := right
  · exact ⟨fun same => absurd same simple.code_ne_untyped,
      fun untyped => absurd typing.hasType (untyped simple)⟩
  · exact ⟨fun _ => untyped, fun _ => rfl⟩

/-- What is left of the types of a function and an operand is right for the application if they
are right for its parts. -/
theorem IsVerdict.application {context : List (String × SimpleType)} {function operand : Term}
    {functionCode operandCode : TypeCode} (functionRight : IsVerdict context function functionCode)
    (operandRight : IsVerdict context operand operandCode) :
    IsVerdict context (.application function operand)
      (TypeCode.application functionCode operandCode) := by
  obtain ⟨functionType, rfl, applied⟩ | ⟨rfl, untyped⟩ := functionRight
  · obtain ⟨operandType, rfl, supplied⟩ | ⟨rfl, untyped⟩ := operandRight
    · by_cases fits : TypeCode.application functionType.code operandType.code = TypeCode.untyped
      · refine .inr ⟨fits, fun type typing => ?_⟩
        obtain ⟨argument, otherApplied, otherSupplied⟩ := typing.application_cases
        obtain rfl := applied.hasType.unique otherApplied
        obtain rfl := supplied.hasType.unique otherSupplied
        rw [SimpleType.application_code] at fits
        exact SimpleType.code_ne_untyped type fits
      · obtain ⟨result, rfl, same⟩ := SimpleType.application_eq rfl fits
        exact .inl ⟨result, same, .application applied supplied⟩
    · refine .inr ⟨SimpleType.application_untyped_right _, fun type typing => ?_⟩
      obtain ⟨argument, -, supplied⟩ := typing.application_cases
      exact untyped argument supplied
  · refine .inr ⟨SimpleType.application_untyped_left _, fun type typing => ?_⟩
    obtain ⟨argument, applied, -⟩ := typing.application_cases
    exact untyped _ applied

/-- The type that is found for an anchored term without free variables is what the rules say of it,
unless an abstraction has a body without type: then none is found. -/
theorem Anchored.typecheck_cases {context : List (String × SimpleType)} {term : Term}
    (anchored : Anchored context term) (closed : term.isClosedIn (context.map Prod.fst) = true) :
    (∃ code, term.typecheck = .ok code ∧ IsVerdict context term code ∧
      ¬HasUntypedBody context term) ∨
        term.typecheck = .error .untypedBody ∧ HasUntypedBody context term := by
  induction anchored with
  | @free context name absent =>
    rw [Term.free, Term.isClosedIn, Bool.and_eq_true, beq_iff_eq] at closed
    exact absurd (List.mem_of_getElem? closed.2) absent
  | @bound context name type index found =>
    have typing : Typing True context (.variable name type.code (index + 1)) type :=
      .occurrence found fun _ => rfl
    exact .inl ⟨_, rfl, .inl ⟨_, rfl, typing⟩, typing.not_hasUntypedBody⟩
  | @abstraction context name argument body _ hypothesis =>
    rw [Term.typecheck]
    obtain ⟨code, found, right, sound⟩ | ⟨found, later⟩ := hypothesis closed
    · obtain ⟨result, rfl, inside⟩ | ⟨rfl, untyped⟩ := right
      · have typing := inside.abstraction
        rw [found]
        exact .inl ⟨_, SimpleType.concat_code argument result, .inl ⟨_, rfl, typing⟩,
          typing.not_hasUntypedBody⟩
      · rw [found]
        exact .inr ⟨rfl, .here untyped⟩
    · rw [found]
      exact .inr ⟨rfl, .body later⟩
  | @application context function operand _ _ functionHypothesis operandHypothesis =>
    rw [Term.isClosedIn, Bool.and_eq_true] at closed
    rw [Term.typecheck]
    obtain ⟨functionCode, found, functionRight, functionSound⟩ | ⟨found, later⟩ :=
      functionHypothesis closed.1
    · obtain ⟨operandCode, operandFound, operandRight, operandSound⟩ | ⟨operandFound, later⟩ :=
        operandHypothesis closed.2
      · rw [found, operandFound]
        exact .inl ⟨_, rfl, functionRight.application operandRight,
          HasUntypedBody.not_application functionSound operandSound⟩
      · rw [found, operandFound]
        exact .inr ⟨rfl, .operand later⟩
    · rw [found]
      exact .inr ⟨rfl, .function later⟩
  | @number context value =>
    have typing : Typing True context (Term.number value) .number := .number value
    exact .inl ⟨_, rfl, .inl ⟨_, rfl, typing⟩, typing.not_hasUntypedBody⟩
  | @operator context operator =>
    have typing : Typing True context operator.external.term .operation := .operator operator
    exact .inl ⟨_, rfl, .inl ⟨_, rfl, typing⟩, typing.not_hasUntypedBody⟩

namespace Session.Reachable

variable {session : Session} {code : String} {term : Term}

/-- The type that is found for a program without free variables is its type by the rules. That there
is none is found if the rules give it none and no abstraction in it has a body without type. Such an
abstraction, wherever in the program it stands, makes the search fail, and nothing else does. -/
theorem typecheck_iff (reachable : session.Reachable)
    (result : (session.read code).2 = .ok (some term)) (closed : term.isClosedIn [] = true) :
    (∀ type : SimpleType, term.typecheck = .ok type.code ↔ HasType [] term type) ∧
      (term.typecheck = .ok TypeCode.untyped ↔
        (∀ type, ¬HasType [] term type) ∧ ¬HasUntypedBody [] term) ∧
      ∀ failure, term.typecheck = .error failure ↔
        failure = .untypedBody ∧ HasUntypedBody [] term := by
  have written := (reachable.isWritten.read code).2 term result
  obtain ⟨found, typed, right, sound⟩ | ⟨failed, untyped⟩ := written.anchored.typecheck_cases closed
  · rw [typed, Except.ok.injEq]
    refine ⟨fun type => ?_, ?_, fun failure => ⟨nofun, fun failed => absurd failed.2 sound⟩⟩
    · rw [Except.ok.injEq]
      exact right.eq_code_iff type
    · rw [right.eq_untyped_iff, and_iff_left sound]
  · rw [failed]
    refine ⟨fun type => ⟨nofun, fun typing => absurd typing (untyped.not_hasType type)⟩,
      ⟨nofun, fun sound => absurd untyped sound.2⟩, fun failure => ?_⟩
    rw [Except.error.injEq, and_iff_left untyped]
    exact eq_comm

/-- A function that takes numbers, applied to an operand without type. -/
theorem typecheck_iff_of_untyped_operand :
    ∃ term, (Session.arithmetic.read "((lambda (x:num) (+ x 1)) (2 3))").2 = .ok (some term) ∧
      term.isClosedIn [] = true ∧
      (∀ type : SimpleType, term.typecheck = .ok type.code ↔ HasType [] term type) ∧
      (term.typecheck = .ok TypeCode.untyped ↔
        (∀ type, ¬HasType [] term type) ∧ ¬HasUntypedBody [] term) ∧
      ∀ failure, term.typecheck = .error failure ↔
        failure = .untypedBody ∧ HasUntypedBody [] term := by
  have checked : (Session.arithmetic.term? "((lambda (x:num) (+ x 1)) (2 3))").any
      (Term.isClosedIn []) = true := by decide +kernel
  obtain ⟨term, found, closed⟩ := (Option.any_eq_true _ _).1 checked
  have result := Session.read_of_term? found
  exact ⟨term, result, closed, typecheck_iff .arithmetic result closed⟩

/-- The same operand without type as the body of an abstraction: the rules give the abstraction no
type, and this is not what is found. -/
theorem typecheck_ne_untyped_of_untyped_body :
    ∃ term, (Session.arithmetic.read "(lambda (x:num) (2 3))").2 = .ok (some term) ∧
      term.isClosedIn [] = true ∧ (∀ type, ¬HasType [] term type) ∧
        term.typecheck ≠ .ok TypeCode.untyped ∧ term.typecheck = .error .untypedBody := by
  have checked : (Session.arithmetic.term? "(lambda (x:num) (2 3))").any (fun term =>
      term.isClosedIn [] && term.typecheck.toOption.isNone) = true := by decide +kernel
  obtain ⟨term, found, both⟩ := (Option.any_eq_true _ _).1 checked
  obtain ⟨closed, nothing⟩ := (Bool.and_eq_true _ _).mp both
  have result := Session.read_of_term? found
  have written := (Session.IsWritten.arithmetic.read _).2 term result
  obtain ⟨code, typed, -⟩ | ⟨failed, untyped⟩ := written.anchored.typecheck_cases closed
  · rw [typed] at nothing
    cases nothing
  · refine ⟨term, result, closed, untyped.not_hasType, ?_, failed⟩
    rw [failed]
    exact nofun

end Session.Reachable

end WordArithmetic
