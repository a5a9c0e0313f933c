/-
This file describes the terms that programs write.

A written term is put together from free variables, numbers, operators, applications and
abstractions, and each abstraction binds by name what is free in its body at the time. Two facts
follow. A copy binds nothing anew, so a written term is its own copy. And every variable ends up in
one of three states: it is free, or it is bound by the nearest abstraction of its name, or it has
been lost because its index reached the reserved one.
-/

import WordArithmetic.Proofs.Lambda.Indexes
import WordArithmetic.Proofs.Lambda.SimpleType

namespace WordArithmetic

namespace Term

/-- A term that a program can write. -/
inductive Written : Term → Prop
  | free (name : String) : Written (Term.free name)
  | number (value : Float) : Written (Term.number value)
  | operator (operator : Operator) : Written operator.external.term
  | application {function argument : Term} (applied : Written function)
      (supplied : Written argument) : Written (.application function argument)
  | abstract (name : String) {type : SimpleType} {body : Term} (written : type.isWritten = true)
      (inside : Written body) : Written (Term.abstract name type.code body)

/-! ### Copies -/

/-- Every abstraction of a term has already bound all that a copy of it could bind. -/
def HasBound : Term → Prop
  | .variable .. => True
  | .abstraction name type body => body.capture name type 1 = body ∧ body.HasBound
  | .application function argument => function.HasBound ∧ argument.HasBound
  | .external function missing arguments =>
    ∀ depth : Int, (Term.external function missing arguments).shift 0 depth =
      .external function missing arguments

/-- Binding a name once more changes nothing. -/
theorem capture_capture (name : String) (type : TypeCode) : ∀ (term : Term) (depth : Int),
    (term.capture name type depth).capture name type depth = term.capture name type depth
  | .variable other otherType index, depth => by
    rw [capture]
    by_cases free : name = other ∧ index = freeIndex
    · rw [if_pos free, capture]
      split
      · rfl
      · rfl
    · rw [if_neg free, capture, if_neg free]
  | .abstraction other otherType body, depth => by
    rw [capture, capture, capture_capture name type body (depth + 1)]
  | .application function argument, depth => by
    rw [capture, capture, capture_capture name type function depth,
      capture_capture name type argument depth]
  | .external function missing arguments, _ => rfl

/-- What binds nothing below some binder binds nothing after another name has been bound further
out. -/
theorem capture_capture_of_eq (inner outer : String) (innerType outerType : TypeCode) :
    ∀ (near far : Int) (term : Term), near < far → term.capture inner innerType near = term →
      (term.capture outer outerType far).capture inner innerType near =
        term.capture outer outerType far
  | near, far, .variable name type index, further, bound => by
    by_cases free : outer = name ∧ index = freeIndex
    · rw [capture, if_pos free, capture]
      have away : ¬(inner = name ∧ far = freeIndex) := by
        rintro ⟨own, reached⟩
        rw [capture, if_pos ⟨own, free.2⟩] at bound
        injection bound with _ _ place
        have same : near = freeIndex := place.trans free.2
        omega
      rw [if_neg away]
    · rw [show capture outer outerType far (.variable name type index) = .variable name type index
        by rw [capture, if_neg free]]
      exact bound
  | near, far, .abstraction name type body, further, bound => by
    rw [capture] at bound
    injection bound with _ _ bodyBound
    rw [capture, capture, capture_capture_of_eq inner outer innerType outerType (near + 1) (far + 1)
      body (by omega) bodyBound]
  | near, far, .application function argument, further, bound => by
    rw [capture] at bound
    injection bound with functionBound argumentBound
    rw [capture, capture,
      capture_capture_of_eq inner outer innerType outerType near far function further functionBound,
      capture_capture_of_eq inner outer innerType outerType near far argument further argumentBound]
  | _, _, .external function missing arguments, _, _ => rfl

theorem HasBound.capture (name : String) (type : TypeCode) :
    ∀ {depth : Int} {term : Term}, 0 < depth → term.HasBound →
      (term.capture name type depth).HasBound
  | depth, .variable other otherType index, _, _ => by
    rw [Term.capture]
    split
    · exact trivial
    · exact trivial
  | depth, .abstraction other otherType body, low, bound => by
    refine ⟨?_, HasBound.capture name type (by omega) bound.2⟩
    exact capture_capture_of_eq other name otherType type 1 (depth + 1) body (by omega) bound.1
  | depth, .application function argument, low, bound =>
    ⟨HasBound.capture name type low bound.1, HasBound.capture name type low bound.2⟩
  | _, .external function missing arguments, _, bound => bound

theorem HasBound.shift_zero : ∀ {term : Term} (depth : Int), term.HasBound →
    term.shift 0 depth = term
  | .variable name type index, depth, _ => by
    rw [shift, Int.add_zero, ite_self]
  | .abstraction name type body, depth, bound => by
    rw [shift, HasBound.shift_zero (depth + 1) bound.2, abstract, bound.1]
  | .application function argument, depth, bound => by
    rw [shift, HasBound.shift_zero depth bound.1, HasBound.shift_zero depth bound.2]
  | .external function missing arguments, depth, bound => bound depth

theorem Written.hasBound {term : Term} (written : Written term) : term.HasBound := by
  induction written with
  | free name => exact trivial
  | number value => exact fun _ => rfl
  | operator operator =>
    intro depth
    show (Term.external operator.external 2 [.variable placeholderName TypeCode.numberName 2,
      .variable placeholderName TypeCode.numberName 1]).shift 0 depth = operator.external.term
    simp only [shift, shiftAll, Int.add_zero, ite_self]
    rfl
  | application _ _ functionHypothesis argumentHypothesis =>
    exact ⟨functionHypothesis, argumentHypothesis⟩
  | abstract name _ _ hypothesis =>
    exact ⟨capture_capture name _ _ 1, hypothesis.capture name _ Int.one_pos⟩

/-- A written term is its own copy. -/
theorem Written.copy {term : Term} (written : Written term) : term.copy = term :=
  written.hasBound.shift_zero 0

end Term

/-! ### What variables are bound by -/

/-- A term below abstractions over these names, the nearest first, has its variables resolved: each
is free, or bound by the nearest abstraction of its name, or lost beyond the reserved index. -/
inductive Resolved : List (String × SimpleType) → Term → Prop
  | free {context : List (String × SimpleType)} {name : String}
      (absent : name ∉ context.map Prod.fst) : Resolved context (Term.free name)
  | bound {nearer further : List (String × SimpleType)} {name : String} {type : SimpleType}
      (absent : name ∉ nearer.map Prod.fst) :
      Resolved (nearer ++ (name, type) :: further)
        (.variable name type.code (nearer.length + 1))
  | lost {context : List (String × SimpleType)} (name : String) {type : TypeCode} {index : Int}
      (typed : type ≠ TypeCode.untyped) (reached : freeIndex ≤ index)
      (inside : index ≤ context.length) : Resolved context (.variable name type index)
  | abstraction {context : List (String × SimpleType)} {name : String} {type : SimpleType}
      {body : Term} (written : type.isWritten = true)
      (inside : Resolved ((name, type) :: context) body) :
      Resolved context (.abstraction name type.code body)
  | application {context : List (String × SimpleType)} {function argument : Term}
      (applied : Resolved context function) (supplied : Resolved context argument) :
      Resolved context (.application function argument)
  | number {context : List (String × SimpleType)} (value : Float) :
      Resolved context (Term.number value)
  | operator {context : List (String × SimpleType)} (operator : Operator) :
      Resolved context operator.external.term

theorem natCast_length_append_one {Entry : Type} (entries : List Entry) (entry : Entry) :
    ((entries ++ [entry]).length : Int) = entries.length + 1 := by
  rw [List.length_append]
  rfl

/-- An abstraction around a term resolves its variables further. -/
theorem Resolved.capture {context : List (String × SimpleType)} {term : Term}
    (resolved : Resolved context term) (name : String) (type : SimpleType) :
    Resolved (context ++ [(name, type)]) (term.capture name type.code (context.length + 1)) := by
  induction resolved with
  | @free context other absent =>
    rw [Term.free, Term.capture]
    by_cases same : name = other
    · subst same
      rw [if_pos ⟨rfl, rfl⟩, SimpleType.addBrackets_code]
      exact Resolved.bound absent
    · rw [if_neg fun captured => same captured.1]
      refine Resolved.free ?_
      rw [List.map_append, List.mem_append, not_or]
      exact ⟨absent, fun last => same (List.mem_singleton.1 last).symm⟩
  | @bound nearer further other otherType absent =>
    rw [Term.capture]
    by_cases captured : name = other ∧ (nearer.length : Int) + 1 = freeIndex
    · rw [if_pos captured, SimpleType.addBrackets_code]
      refine Resolved.lost other type.code_ne_untyped ?_ ?_
      · rw [List.length_append, List.length_cons]
        omega
      · exact Int.le_of_eq (natCast_length_append_one _ _).symm
    · rw [if_neg captured, List.append_assoc, List.cons_append]
      exact Resolved.bound absent
  | @lost context other otherType index typed reached inside =>
    rw [Term.capture]
    by_cases captured : name = other ∧ index = freeIndex
    · rw [if_pos captured, SimpleType.addBrackets_code]
      refine Resolved.lost other type.code_ne_untyped ?_ ?_
      · omega
      · exact Int.le_of_eq (natCast_length_append_one _ _).symm
    · rw [if_neg captured]
      refine Resolved.lost other typed reached ?_
      rw [natCast_length_append_one]
      omega
  | @abstraction context other otherType body written inside hypothesis =>
    rw [List.length_cons, Int.natCast_succ] at hypothesis
    exact Resolved.abstraction written hypothesis
  | application _ _ functionHypothesis argumentHypothesis =>
    exact Resolved.application functionHypothesis argumentHypothesis
  | number value => exact Resolved.number value
  | operator operator => exact Resolved.operator operator

/-- The variables of a written term are resolved. -/
theorem Term.Written.resolved {term : Term} (written : Written term) : Resolved [] term := by
  induction written with
  | free name => exact Resolved.free (List.not_mem_nil)
  | number value => exact Resolved.number value
  | operator operator => exact Resolved.operator operator
  | application _ _ functionHypothesis argumentHypothesis =>
    exact Resolved.application functionHypothesis argumentHypothesis
  | @abstract name type body written _ hypothesis =>
    exact Resolved.abstraction written (hypothesis.capture name type)

end WordArithmetic
