/-
This file tells what shifting and substitution do to indexes from what they do to names.

Shifting builds abstractions anew, so a variable whose index happens to become the reserved one is
bound again, by name. As long as this does not happen shifting only adds to indexes (`raise`), and
substitution only moves them (`fill`). `isBelow` says that it has not happened: every bound variable
has an index below the reserved one.
-/

import WordArithmetic.Lambda.Normal

namespace WordArithmetic

namespace Term

/-! ### Moving indexes -/

mutual

/-- Adds `amount` to the indexes that point out of a term, which lies below `depth` binders, and
binds nothing. -/
def raise (amount depth : Int) : Term → Term
  | .variable name type index =>
    .variable name type (if index - depth > 0 then index + amount else index)
  | .abstraction name type body => .abstraction name type (body.raise amount (depth + 1))
  | .application function argument =>
    .application (function.raise amount depth) (argument.raise amount depth)
  | .external function missing arguments =>
    .external function missing (raiseAll amount (depth + missing) arguments)

/-- The same for the arguments of an external function. -/
def raiseAll (amount depth : Int) : List Term → List Term
  | [] => []
  | first :: rest => first.raise amount depth :: raiseAll amount depth rest

end

mutual

/-- Substitution that raises its replacement and binds nothing. -/
def fill (name : Option String) (replacement : Term) (depth : Int) : Term → Term
  | .variable other type index =>
    if name = some other ∧ index = depth then replacement.raise (depth - 1) 0
    else if index - depth > 0 then .variable other type (index - 1)
    else .variable other type index
  | .abstraction other type body =>
    .abstraction other type (fill name replacement (depth + 1) body)
  | .application function argument =>
    .application (fill name replacement depth function) (fill name replacement depth argument)
  | .external function missing arguments =>
    let own : Bool := depth < missing
    let sought := if own then name.or (some placeholderName) else name
    let supplied := arguments.countP (isVariable sought (depth + missing))
    .external function (if own then missing - supplied else missing)
      (fillAll sought replacement (depth + missing) arguments)

/-- The same in the arguments of an external function. -/
def fillAll (name : Option String) (replacement : Term) (depth : Int) : List Term → List Term
  | [] => []
  | first :: rest => fill name replacement depth first :: fillAll name replacement depth rest

end

mutual

/-- Whether all bound variables of a term have an index below the reserved one. A variable that
nothing has bound has no type, and is not asked for its index. -/
def isBelow : Term → Bool
  | .variable _ type index => type == TypeCode.untyped || decide (index < freeIndex)
  | .abstraction _ _ body => body.isBelow
  | .application function argument => function.isBelow && argument.isBelow
  | .external _ _ arguments => areBelow arguments

/-- The same for the arguments of an external function. -/
def areBelow : List Term → Bool
  | [] => true
  | first :: rest => first.isBelow && areBelow rest

end

mutual

/-- Raising by nothing changes nothing. -/
theorem raise_zero (depth : Int) : ∀ term : Term, term.raise 0 depth = term
  | .variable name type index => by
    rw [raise, Int.add_zero, ite_self]
  | .abstraction name type body => by
    rw [raise, raise_zero (depth + 1) body]
  | .application function argument => by
    rw [raise, raise_zero depth function, raise_zero depth argument]
  | .external function missing arguments => by
    rw [raise, raiseAll_zero (depth + missing) arguments]

theorem raiseAll_zero (depth : Int) : ∀ terms : List Term, raiseAll 0 depth terms = terms
  | [] => rfl
  | first :: rest => by
    rw [raiseAll, raise_zero depth first, raiseAll_zero depth rest]

end

/-! ### When nothing is bound anew -/

mutual

/-- Whether all variables of a term have types. -/
def isTyped : Term → Bool
  | .variable _ type _ => type != TypeCode.untyped
  | .abstraction _ _ body => body.isTyped
  | .application function argument => function.isTyped && argument.isTyped
  | .external _ _ arguments => areTyped arguments

/-- The same for the arguments of an external function. -/
def areTyped : List Term → Bool
  | [] => true
  | first :: rest => first.isTyped && areTyped rest

end

mutual

/-- The indexes of all variables of a term. -/
def indexes : Term → List Int
  | .variable _ _ index => [index]
  | .abstraction _ _ body => body.indexes
  | .application function argument => function.indexes ++ argument.indexes
  | .external _ _ arguments => indexesAll arguments

/-- The same for the arguments of an external function. -/
def indexesAll : List Term → List Int
  | [] => []
  | first :: rest => first.indexes ++ indexesAll rest

end

mutual

/-- No variable of a term carries the reserved index if all have types and indexes below it. -/
theorem not_mem_indexes :
    ∀ term : Term, term.isTyped = true → term.isBelow = true → freeIndex ∉ term.indexes
  | .variable name type index, typed, below => by
    rw [isTyped, bne_iff_ne] at typed
    rw [isBelow, Bool.or_eq_true, beq_iff_eq, decide_eq_true_eq] at below
    have bound := below.resolve_left typed
    rw [indexes, List.mem_singleton]
    exact (Int.ne_of_lt bound).symm
  | .abstraction name type body, typed, below => by
    rw [isTyped] at typed
    rw [isBelow] at below
    exact not_mem_indexes body typed below
  | .application function argument, typed, below => by
    rw [isTyped, Bool.and_eq_true] at typed
    rw [isBelow, Bool.and_eq_true] at below
    rw [indexes, List.mem_append, not_or]
    exact ⟨not_mem_indexes function typed.1 below.1, not_mem_indexes argument typed.2 below.2⟩
  | .external function missing arguments, typed, below => by
    rw [isTyped] at typed
    rw [isBelow] at below
    exact not_mem_indexesAll arguments typed below

theorem not_mem_indexesAll :
    ∀ terms : List Term, areTyped terms = true → areBelow terms = true →
      freeIndex ∉ indexesAll terms
  | [], _, _ => List.not_mem_nil
  | first :: rest, typed, below => by
    rw [areTyped, Bool.and_eq_true] at typed
    rw [areBelow, Bool.and_eq_true] at below
    rw [indexesAll, List.mem_append, not_or]
    exact ⟨not_mem_indexes first typed.1 below.1, not_mem_indexesAll rest typed.2 below.2⟩

end

/-- A term in which no variable carries the reserved index has nothing to bind. -/
theorem capture_eq (name : String) (type : TypeCode) :
    ∀ (depth : Int) (term : Term), freeIndex ∉ term.indexes →
      term.capture name type depth = term
  | depth, .variable other otherType index, absent => by
    rw [indexes, List.mem_singleton] at absent
    rw [capture, if_neg fun same => absent same.2.symm]
  | depth, .abstraction other otherType body, absent => by
    rw [indexes] at absent
    rw [capture, capture_eq name type (depth + 1) body absent]
  | depth, .application function argument, absent => by
    rw [indexes, List.mem_append, not_or] at absent
    rw [capture, capture_eq name type depth function absent.1,
      capture_eq name type depth argument absent.2]
  | _, .external function missing arguments, _ => rfl

mutual

theorem isTyped_raise (amount depth : Int) :
    ∀ term : Term, (term.raise amount depth).isTyped = term.isTyped
  | .variable name type index => rfl
  | .abstraction name type body => by
    rw [raise, isTyped, isTyped, isTyped_raise amount (depth + 1) body]
  | .application function argument => by
    rw [raise, isTyped, isTyped, isTyped_raise amount depth function,
      isTyped_raise amount depth argument]
  | .external function missing arguments => by
    rw [raise, isTyped, isTyped, areTyped_raiseAll amount (depth + missing) arguments]

theorem areTyped_raiseAll (amount depth : Int) :
    ∀ terms : List Term, areTyped (raiseAll amount depth terms) = areTyped terms
  | [] => rfl
  | first :: rest => by
    rw [raiseAll, areTyped, areTyped, isTyped_raise amount depth first,
      areTyped_raiseAll amount depth rest]

end

mutual

/-- Shifting only raises as long as no index becomes the reserved one. -/
theorem shift_eq_raise (amount : Int) :
    ∀ (depth : Int) (term : Term), freeIndex ∉ (term.raise amount depth).indexes →
      term.shift amount depth = term.raise amount depth
  | _, .variable name type index, _ => rfl
  | depth, .abstraction name type body, absent => by
    rw [raise, indexes] at absent
    rw [raise, shift, shift_eq_raise amount (depth + 1) body absent, abstract,
      capture_eq name type 1 _ absent]
  | depth, .application function argument, absent => by
    rw [raise, indexes, List.mem_append, not_or] at absent
    rw [raise, shift, shift_eq_raise amount depth function absent.1,
      shift_eq_raise amount depth argument absent.2]
  | depth, .external function missing arguments, absent => by
    rw [raise, indexes] at absent
    rw [raise, shift, shiftAll_eq_raiseAll amount (depth + missing) arguments absent]

theorem shiftAll_eq_raiseAll (amount : Int) :
    ∀ (depth : Int) (terms : List Term), freeIndex ∉ indexesAll (raiseAll amount depth terms) →
      shiftAll amount depth terms = raiseAll amount depth terms
  | _, [], _ => rfl
  | depth, first :: rest, absent => by
    rw [raiseAll, indexesAll, List.mem_append, not_or] at absent
    rw [raiseAll, shiftAll, shift_eq_raise amount depth first absent.1,
      shiftAll_eq_raiseAll amount depth rest absent.2]

end

mutual

/-- Substitution only moves indexes as long as none reaches the reserved one. -/
theorem substitute_eq_fill {replacement : Term} (typed : replacement.isTyped = true) :
    ∀ (name : Option String) (depth : Int) (term : Term),
      (fill name replacement depth term).isBelow = true →
        substitute name replacement depth term = fill name replacement depth term
  | name, depth, .variable other type index, below => by
    rw [fill] at below ⊢
    rw [substitute]
    split
    · rename_i found
      rw [if_pos found] at below
      exact shift_eq_raise _ 0 replacement
        (not_mem_indexes _ ((isTyped_raise _ 0 replacement).trans typed) below)
    · rfl
  | name, depth, .abstraction other type body, below => by
    rw [fill, isBelow] at below
    rw [fill, substitute, substitute_eq_fill typed name (depth + 1) body below]
  | name, depth, .application function argument, below => by
    rw [fill, isBelow, Bool.and_eq_true] at below
    rw [fill, substitute, substitute_eq_fill typed name depth function below.1,
      substitute_eq_fill typed name depth argument below.2]
  | name, depth, .external function missing arguments, below => by
    rw [fill, isBelow] at below
    rw [fill, substitute]
    simp only [substituteAll_eq_fillAll typed _ _ arguments below]

theorem substituteAll_eq_fillAll {replacement : Term} (typed : replacement.isTyped = true) :
    ∀ (name : Option String) (depth : Int) (terms : List Term),
      areBelow (fillAll name replacement depth terms) = true →
        substituteAll name replacement depth terms = fillAll name replacement depth terms
  | _, _, [], _ => rfl
  | name, depth, first :: rest, below => by
    rw [fillAll, areBelow, Bool.and_eq_true] at below
    rw [fillAll, substituteAll, substitute_eq_fill typed name depth first below.1,
      substituteAll_eq_fillAll typed name depth rest below.2]

end

/-! ### Contractions -/

/-- What comes of a reduced function when it receives a reduced argument, if it takes one. -/
def contract? (function argument : Term) : Option Term :=
  match function with
  | .abstraction name _ body => some (substitute (some name) argument 1 body)
  | .external function missing arguments =>
    some (substitute none argument 0 (.external function missing arguments))
  | _ => none

/-- What should come of it if indexes only move. -/
def contractPlainly? (function argument : Term) : Option Term :=
  match function with
  | .abstraction name _ body => some (fill (some name) argument 1 body)
  | .external function missing arguments =>
    some (fill none argument 0 (.external function missing arguments))
  | _ => none

/-- A contraction only moves indexes as long as none reaches the reserved one. -/
theorem contract?_eq {head argument result : Term} (typed : argument.isTyped = true)
    (contracted : head.contractPlainly? argument = some result) (below : result.isBelow = true) :
    head.contract? argument = some result := by
  match head with
  | .variable name type index => cases contracted
  | .application function operand => cases contracted
  | .abstraction name type body =>
    obtain rfl := Option.some.inj contracted
    rw [contract?, substitute_eq_fill typed _ _ _ below]
  | .external function missing arguments =>
    obtain rfl := Option.some.inj contracted
    rw [contract?, substitute_eq_fill typed _ _ _ below]

/-- An application is reduced by reducing both parts, contracting them and reducing the outcome, or
it is stuck. -/
theorem reduce?_application (depth : Nat) (function argument : Term) :
    reduce? (depth + 1) (.application function argument) =
      (reduce? depth function).bind fun head => (reduce? depth argument).bind fun supplied =>
        match head.contract? supplied with
        | some result => reduce? depth result
        | none => some (.application head supplied) := by
  rw [reduce?]
  cases reduce? depth function with
  | none => rfl
  | some head =>
    cases head <;> cases reduce? depth argument <;> rfl

/-- The terms that the reduction of a term comes across: the term itself, those in the reduction of
its parts and in that of what they are contracted to, and also what a contraction would come to if
it only moved indexes. -/
inductive Visits : Term → Term → Prop
  | here (term : Term) : Visits term term
  | body {name : String} {type : TypeCode} {body state : Term} (later : Visits body state) :
      Visits (.abstraction name type body) state
  | among {function : External} {missing : Int} {arguments : List Term} {argument state : Term}
      (member : argument ∈ arguments) (later : Visits argument state) :
      Visits (.external function missing arguments) state
  | function {function argument state : Term} (later : Visits function state) :
      Visits (.application function argument) state
  | argument {function argument state : Term} (later : Visits argument state) :
      Visits (.application function argument) state
  | contracted {function argument head supplied result state : Term} {depth : Nat}
      (functionReduced : reduce? depth function = some head)
      (argumentReduced : reduce? depth argument = some supplied)
      (contracted : head.contract? supplied = some result) (later : Visits result state) :
      Visits (.application function argument) state
  | moved {function argument head supplied state : Term} {depth : Nat}
      (functionReduced : reduce? depth function = some head)
      (argumentReduced : reduce? depth argument = some supplied)
      (contracted : head.contractPlainly? supplied = some state) :
      Visits (.application function argument) state

/-- No bound variable reaches the reserved index while a term is reduced. -/
def StaysBelow (term : Term) : Prop :=
  ∀ state, Visits term state → state.isBelow = true

end Term

end WordArithmetic
