/-
This file tells for which programs a copy is always printed like what it is a copy of.

A program is its own copy, and so is whatever has been copied. Reduction can undo this: it moves a
free variable below an abstraction by raising its index from the reserved one, and lowers the index
again when a binder goes, so that the variable carries the reserved index below an abstraction that
may have its name, and the next copy binds it. If no parameter of a program has the name of one of
its free variables, this is so for everything that comes of the program, since reduction and copying
bring in no new names, and nothing is ever bound.
-/

import WordArithmetic.Proofs.Lambda.Copies
import WordArithmetic.Proofs.Lambda.NormalForm
import WordArithmetic.Proofs.Lambda.Reader

namespace WordArithmetic

namespace Term

/-! ### Names of free variables and of parameters -/

mutual

/-- Whether all variables of a term that have no type have one of these names, and no parameter
does. -/
def isApart (names : List String) : Term → Bool
  | .variable name type _ => type != TypeCode.untyped || names.contains name
  | .abstraction name _ body => !names.contains name && body.isApart names
  | .application function argument => function.isApart names && argument.isApart names
  | .external _ _ arguments => areApart names arguments

/-- The same for the arguments of an external function. -/
def areApart (names : List String) : List Term → Bool
  | [] => true
  | first :: rest => first.isApart names && areApart names rest

end

theorem addBrackets_ne_untyped (code : TypeCode) : code.addBrackets ≠ TypeCode.untyped := by
  cases code with
  | name text => exact nofun
  | tuple parts => exact nofun

section

variable {names : List String}

theorem isApart_abstraction {name : String} {type : TypeCode} {body : Term} :
    (abstraction name type body).isApart names = true ↔
      names.contains name = false ∧ body.isApart names = true := by
  rw [isApart, Bool.and_eq_true, Bool.not_eq_true']

theorem isApart_application {function argument : Term} :
    (application function argument).isApart names = true ↔
      function.isApart names = true ∧ argument.isApart names = true := by
  rw [isApart, Bool.and_eq_true]

theorem areApart_cons {first : Term} {rest : List Term} :
    areApart names (first :: rest) = true ↔
      first.isApart names = true ∧ areApart names rest = true := by
  rw [areApart, Bool.and_eq_true]

theorem areApart_iff {terms : List Term} :
    areApart names terms = true ↔ ∀ term ∈ terms, term.isApart names = true := by
  induction terms with
  | nil => exact iff_of_true rfl (List.forall_mem_nil _)
  | cons first rest hypothesis => rw [areApart_cons, hypothesis, List.forall_mem_cons]

theorem isApart_capture (name : String) (type : TypeCode) :
    ∀ (depth : Int) (term : Term), term.isApart names = true →
      (term.capture name type depth).isApart names = true
  | depth, .variable other otherType index, apart => by
    rw [capture]
    split
    · rw [isApart, bne_iff_ne.2 (addBrackets_ne_untyped type), Bool.true_or]
    · exact apart
  | depth, .abstraction other otherType body, apart => by
    rw [isApart_abstraction] at apart
    rw [capture, isApart_abstraction]
    exact apart.imp_right (isApart_capture name type (depth + 1) body)
  | depth, .application function argument, apart => by
    rw [isApart_application] at apart
    rw [capture, isApart_application]
    exact apart.imp (isApart_capture name type depth function)
      (isApart_capture name type depth argument)
  | _, .external function missing arguments, apart => apart

mutual

theorem isApart_shift (amount : Int) :
    ∀ (depth : Int) (term : Term), term.isApart names = true →
      (term.shift amount depth).isApart names = true
  | _, .variable name type index, apart => apart
  | depth, .abstraction name type body, apart => by
    rw [isApart_abstraction] at apart
    rw [shift, abstract, isApart_abstraction]
    have inside := isApart_shift amount (depth + 1) body apart.2
    exact ⟨apart.1, isApart_capture name type 1 _ inside⟩
  | depth, .application function argument, apart => by
    rw [isApart_application] at apart
    rw [shift, isApart_application]
    exact apart.imp (isApart_shift amount depth function) (isApart_shift amount depth argument)
  | depth, .external function missing arguments, apart => by
    rw [isApart] at apart
    rw [shift, isApart, areApart_shiftAll amount (depth + missing) arguments apart]

theorem areApart_shiftAll (amount : Int) :
    ∀ (depth : Int) (terms : List Term), areApart names terms = true →
      areApart names (shiftAll amount depth terms) = true
  | _, [], _ => rfl
  | depth, first :: rest, apart => by
    rw [areApart_cons] at apart
    rw [shiftAll, areApart_cons]
    exact apart.imp (isApart_shift amount depth first) (areApart_shiftAll amount depth rest)

end

mutual

theorem isApart_substitute {replacement : Term} (supplied : replacement.isApart names = true) :
    ∀ (name : Option String) (depth : Int) (term : Term), term.isApart names = true →
      (substitute name replacement depth term).isApart names = true
  | name, depth, .variable other type index, apart => by
    rw [substitute]
    split
    · exact isApart_shift (depth - 1) 0 replacement supplied
    · split
      · exact apart
      · exact apart
  | name, depth, .abstraction other type body, apart => by
    rw [isApart_abstraction] at apart
    rw [substitute, isApart_abstraction]
    exact apart.imp_right (isApart_substitute supplied name (depth + 1) body)
  | name, depth, .application function argument, apart => by
    rw [isApart_application] at apart
    rw [substitute, isApart_application]
    exact apart.imp (isApart_substitute supplied name depth function)
      (isApart_substitute supplied name depth argument)
  | name, depth, .external function missing arguments, apart => by
    rw [isApart] at apart
    rw [substitute]
    exact areApart_substituteAll supplied _ _ arguments apart

theorem areApart_substituteAll {replacement : Term} (supplied : replacement.isApart names = true) :
    ∀ (name : Option String) (depth : Int) (terms : List Term), areApart names terms = true →
      areApart names (substituteAll name replacement depth terms) = true
  | _, _, [], _ => rfl
  | name, depth, first :: rest, apart => by
    rw [areApart_cons] at apart
    rw [substituteAll, areApart_cons]
    exact apart.imp (isApart_substitute supplied name depth first)
      (areApart_substituteAll supplied name depth rest)

end

theorem isApart_contract? {head supplied result : Term} (headApart : head.isApart names = true)
    (suppliedApart : supplied.isApart names = true)
    (contracted : head.contract? supplied = some result) : result.isApart names = true := by
  match head with
  | .variable name type index => cases contracted
  | .application function argument => cases contracted
  | .abstraction name type body =>
    obtain rfl := Option.some.inj contracted
    exact isApart_substitute suppliedApart _ _ body (isApart_abstraction.1 headApart).2
  | .external function missing arguments =>
    obtain rfl := Option.some.inj contracted
    exact isApart_substitute suppliedApart _ _ _ headApart

/-- Reduction brings in no new names. -/
theorem isApart_reduce? (depth : Nat) (term value : Term) (apart : term.isApart names = true)
    (reduced : reduce? depth term = some value) : value.isApart names = true := by
  induction depth generalizing term value with
  | zero => cases reduced
  | succ depth hypothesis =>
    match term with
    | .variable name type index =>
      obtain rfl := Option.some.inj reduced
      exact apart
    | .abstraction name type body =>
      rw [isApart_abstraction] at apart
      rw [reduce?, Option.map_eq_some_iff] at reduced
      obtain ⟨bodyValue, bodyReduced, rfl⟩ := reduced
      exact isApart_abstraction.2 ⟨apart.1, hypothesis body bodyValue apart.2 bodyReduced⟩
    | .external function missing arguments =>
      rw [isApart, areApart_iff] at apart
      obtain ⟨values, each, rfl⟩ := exists_of_reduce?_external reduced
      rw [isApart, areApart_iff]
      exact forall_mem_of_forall₂ each fun argument member value =>
        hypothesis argument value (apart argument member)
    | .application function argument =>
      rw [isApart_application] at apart
      rw [reduce?_application, Option.bind_eq_some_iff] at reduced
      obtain ⟨head, functionReduced, reduced⟩ := reduced
      rw [Option.bind_eq_some_iff] at reduced
      obtain ⟨supplied, argumentReduced, reduced⟩ := reduced
      have headApart := hypothesis function head apart.1 functionReduced
      have suppliedApart := hypothesis argument supplied apart.2 argumentReduced
      cases contracted : head.contract? supplied with
      | none =>
        rw [contracted] at reduced
        obtain rfl := Option.some.inj reduced
        exact isApart_application.2 ⟨headApart, suppliedApart⟩
      | some result =>
        rw [contracted] at reduced
        exact hypothesis result value (isApart_contract? headApart suppliedApart contracted) reduced

/-! ### No names -/

mutual

/-- That a term is apart from no names says that all of its variables have types. -/
theorem isApart_nil : ∀ term : Term, term.isApart [] = term.isTyped
  | .variable _ _ _ => Bool.or_false _
  | .abstraction _ _ body => isApart_nil body
  | .application function argument => congrArg₂ and (isApart_nil function) (isApart_nil argument)
  | .external _ _ arguments => areApart_nil arguments

theorem areApart_nil : ∀ terms : List Term, areApart [] terms = areTyped terms
  | [] => rfl
  | first :: rest => congrArg₂ and (isApart_nil first) (areApart_nil rest)

end

/-- Reduction leaves no variable without type. -/
theorem isTyped_reduce? {depth : Nat} {term value : Term} (typed : term.isTyped = true)
    (reduced : reduce? depth term = some value) : value.isTyped = true := by
  rw [← isApart_nil] at typed ⊢
  exact isApart_reduce? depth term value typed reduced

theorem isTyped_contract? {head supplied result : Term} (headTyped : head.isTyped = true)
    (suppliedTyped : supplied.isTyped = true)
    (contracted : head.contract? supplied = some result) : result.isTyped = true := by
  rw [← isApart_nil] at headTyped suppliedTyped ⊢
  exact isApart_contract? headTyped suppliedTyped contracted

/-! ### Nothing to bind -/

/-- Where bound variables stay below the reserved index, no other name has it. -/
theorem hasReserved_of_isApart {name : String} (other : names.contains name = false) :
    ∀ term : Term, term.isApart names = true → term.isBelow = true →
      term.hasReserved name = false
  | .variable found type index, apart, below => by
    rw [isApart, Bool.or_eq_true, bne_iff_ne] at apart
    rw [isBelow, Bool.or_eq_true, beq_iff_eq, decide_eq_true_eq] at below
    rw [hasReserved, Bool.and_eq_false_iff, beq_eq_false_iff_ne, beq_eq_false_iff_ne]
    by_cases same : name = found
    · have typed : type ≠ TypeCode.untyped := by
        rw [← same, other] at apart
        exact apart.resolve_right Bool.false_ne_true
      exact .inr (Int.ne_of_lt (below.resolve_left typed))
    · exact .inl same
  | .abstraction found type body, apart, below => by
    rw [isBelow] at below
    rw [hasReserved, hasReserved_of_isApart other body (isApart_abstraction.1 apart).2 below]
  | .application function argument, apart, below => by
    rw [isApart_application] at apart
    rw [isBelow, Bool.and_eq_true] at below
    rw [hasReserved, hasReserved_of_isApart other function apart.1 below.1,
      hasReserved_of_isApart other argument apart.2 below.2]
    rfl
  | .external function missing arguments, _, _ => rfl

mutual

theorem isSettled_of_isApart :
    ∀ term : Term, term.isApart names = true → term.isBelow = true → term.isSettled = true
  | .variable name type index, _, _ => rfl
  | .abstraction name type body, apart, below => by
    rw [isApart_abstraction] at apart
    rw [isBelow] at below
    exact isSettled_abstraction.2 ⟨hasReserved_of_isApart apart.1 body apart.2 below,
      isSettled_of_isApart body apart.2 below⟩
  | .application function argument, apart, below => by
    rw [isApart_application] at apart
    rw [isBelow, Bool.and_eq_true] at below
    exact isSettled_application.2 ⟨isSettled_of_isApart function apart.1 below.1,
      isSettled_of_isApart argument apart.2 below.2⟩
  | .external function missing arguments, apart, below => by
    rw [isApart] at apart
    rw [isBelow] at below
    rw [isSettled, areSettled_of_areApart arguments apart below]

theorem areSettled_of_areApart :
    ∀ terms : List Term, areApart names terms = true → areBelow terms = true →
      areSettled terms = true
  | [], _, _ => rfl
  | first :: rest, apart, below => by
    rw [areApart_cons] at apart
    rw [areBelow, Bool.and_eq_true] at below
    exact areSettled_cons.2 ⟨isSettled_of_isApart first apart.1 below.1,
      areSettled_of_areApart rest apart.2 below.2⟩

end

end

/-! ### Histories -/

/-- A term comes of another one by copying and reducing any number of times. -/
inductive Becomes (origin : Term) : Term → Prop
  | start : Becomes origin origin
  | copy {term : Term} (before : Becomes origin term) : Becomes origin term.copy
  | value {term value : Term} {depth : Nat} (before : Becomes origin term)
      (reduced : reduce? depth term = some value) : Becomes origin value

theorem Becomes.isApart {origin term : Term} (becomes : origin.Becomes term) {names : List String}
    (apart : origin.isApart names = true) : term.isApart names = true := by
  induction becomes with
  | start => exact apart
  | copy _ hypothesis => exact isApart_shift 0 0 _ hypothesis
  | value _ reduced hypothesis => exact isApart_reduce? _ _ _ hypothesis reduced

end Term

namespace Session.Reachable

variable {session : Session} {code : String} {origin term : Term}

/-- A program is its own copy, and so is every copy of what comes of it. What comes of it is printed
like its copy exactly if it is settled, and it is settled if no parameter of the program has the
name of a free variable, as long as bound variables stay below the reserved index. -/
theorem print_copy_iff (reachable : session.Reachable)
    (result : (session.read code).2 = .ok (some origin)) (becomes : origin.Becomes term) :
    origin.copy = origin ∧ term.copy.copy = term.copy ∧
      (term.isSettled = true → term.copy = term) ∧
      ((term.nesting : Int) < freeIndex → ∀ shown, term.print = .ok shown →
        (term.copy.print = .ok shown ↔ term.isSettled = true)) ∧
      ∀ names, origin.isApart names = true → term.isBelow = true → term.isSettled = true := by
  have written := (reachable.isWritten.read code).2 origin result
  exact ⟨written.copy, term.copy_copy, Term.copy_eq_of_isSettled,
    fun low shown printed => Term.print_copy_eq_iff low printed,
    fun names apart below => Term.isSettled_of_isApart term (becomes.isApart apart) below⟩

/-- A free variable that carries the reserved index again below a parameter of another name. -/
theorem print_copy_iff_of_apart :
    ∃ origin term : Term,
      (Session.arithmetic.read
        "((lambda (z:num) ((lambda (x:num) (lambda (w:num) x)) y)) 3)").2 = .ok (some origin) ∧
      origin.Becomes term ∧ origin.isApart ["y"] = true ∧ term.isBelow = true ∧
      (term.nesting : Int) < freeIndex ∧
      term.print = .ok "(lambda (w:('num',)) y-100000)" ∧ term.copy.print = term.print := by
  have checked : (Session.arithmetic.term?
      "((lambda (z:num) ((lambda (x:num) (lambda (w:num) x)) y)) 3)").any (fun origin =>
        origin.isApart ["y"] && (origin.reduce? 10).any fun term =>
          term.isBelow && decide ((term.nesting : Int) < freeIndex) &&
            term.print.toOption == some "(lambda (w:('num',)) y-100000)") = true := by
    decide +kernel
  obtain ⟨origin, found, all⟩ := (Option.any_eq_true _ _).1 checked
  obtain ⟨apart, reduces⟩ := (Bool.and_eq_true _ _).mp all
  obtain ⟨term, reduced, rest⟩ := (Option.any_eq_true _ _).1 reduces
  rw [Bool.and_eq_true, Bool.and_eq_true, decide_eq_true_eq, beq_iff_eq] at rest
  obtain ⟨⟨below, low⟩, shown⟩ := rest
  have result := Session.read_of_term? found
  have becomes : origin.Becomes term := .value .start reduced
  have printed := eq_ok_of_toOption shown
  obtain ⟨-, -, -, prints, settles⟩ := print_copy_iff .arithmetic result becomes
  have printedCopy := (prints low _ printed).2 (settles _ apart below)
  exact ⟨origin, term, result, becomes, apart, below, low, printed,
    printedCopy.trans printed.symm⟩

/-- The same free variable below a parameter of its name: the next copy binds it. -/
theorem print_copy_ne_of_captured :
    ∃ origin term : Term,
      (Session.arithmetic.read
        "((lambda (z:num) ((lambda (x:num) (lambda (y:num) x)) y)) 3)").2 = .ok (some origin) ∧
      origin.Becomes term ∧ term.print = .ok "(lambda (y:('num',)) y-100000)" ∧
      term.copy.print = .ok "(lambda (y:('num',)) y-1)" ∧ term.copy.print ≠ term.print := by
  have checked : (Session.arithmetic.term?
      "((lambda (z:num) ((lambda (x:num) (lambda (y:num) x)) y)) 3)").any (fun origin =>
        (origin.reduce? 10).any fun term =>
          term.print.toOption == some "(lambda (y:('num',)) y-100000)" &&
            term.copy.print.toOption == some "(lambda (y:('num',)) y-1)") = true := by
    decide +kernel
  obtain ⟨origin, found, reduces⟩ := (Option.any_eq_true _ _).1 checked
  obtain ⟨term, reduced, shown⟩ := (Option.any_eq_true _ _).1 reduces
  rw [Bool.and_eq_true, beq_iff_eq, beq_iff_eq] at shown
  have printed := eq_ok_of_toOption shown.1
  have printedCopy := eq_ok_of_toOption shown.2
  refine ⟨origin, term, Session.read_of_term? found, .value .start reduced, printed, printedCopy,
    fun same => ?_⟩
  rw [printed, printedCopy] at same
  exact absurd (Except.ok.inj same) (by decide)

end Session.Reachable

end WordArithmetic
