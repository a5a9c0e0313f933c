/-
This file follows what a function holds through the reduction of a term.

A function holds what it has received, below the abstractions that are pending, and misses the rest,
for which it has placeholders. Each argument that it receives takes the place of the outermost
placeholder. When an abstraction around it is applied, its variable is replaced in what is held.

The function tells the two apart by numbers: it takes a substitution for one of its own binders if
more arguments are missing than binders lie in between. That is wrong for an abstraction that is
applied while more arguments are missing than abstractions are pending, and it matters if the
variable is among what is held. A term in which this never happens is timely (`IsTimely`), and in
its reduction the function always holds what it should.
-/

import WordArithmetic.Proofs.Lambda.Supply

namespace WordArithmetic

namespace Term

/-! ### Timely applications -/

/-- Around a function that takes so many arguments, an abstraction is never applied while its
variable is among the arguments that are held and more arguments are missing than abstractions are
pending. -/
def IsTimely (count : Nat) : Term → Prop
  | .application operator _ =>
    operator.IsTimely count ∧
      match operator.pending with
      | [] => True
      | (name, _) :: inner =>
        inner.length + 1 < count - operator.held.length →
          operator.held.countP (isVariable (some name) (inner.length + 1)) = 0
  | .abstraction _ _ body => body.IsTimely count
  | _ => True

/-- An abstraction with which a term stops being timely: its variable is held, and the function
misses more arguments than there are abstractions pending. -/
theorem exists_of_not_isTimely {count : Nat} {operator argument : Term}
    (timely : operator.IsTimely count) (late : ¬(application operator argument).IsTimely count) :
    ∃ name type inner, operator.pending = (name, type) :: inner ∧
      inner.length + 1 < count - operator.held.length ∧
        operator.held.countP (isVariable (some name) (inner.length + 1)) ≠ 0 := by
  rw [IsTimely, not_and] at late
  have step := late timely
  cases bound : operator.pending with
  | nil =>
    rw [bound] at step
    exact absurd trivial step
  | cons binder inner =>
    obtain ⟨name, type⟩ := binder
    rw [bound] at step
    exact ⟨name, type, inner, rfl, Classical.not_imp.1 step⟩

/-- A function with at most two arguments misses one at most when it holds one. -/
theorem isTimely_of_le_two {count : Nat} (few : count ≤ 2) : ∀ term : Term, term.IsTimely count
  | .variable .. => trivial
  | .external .. => trivial
  | .abstraction _ _ body => isTimely_of_le_two few body
  | .application operator _ => by
    refine ⟨isTimely_of_le_two few operator, ?_⟩
    split
    · exact trivial
    · intro more
      have none : operator.held = [] := List.length_eq_zero_iff.1 (by omega)
      rw [none, List.countP_nil]

/-! ### Substitution in an external function -/

theorem substituteAll_eq_map (name : Option String) (replacement : Term) (depth : Int)
    (terms : List Term) :
    substituteAll name replacement depth terms = terms.map (substitute name replacement depth) := by
  induction terms with
  | nil => rfl
  | cons first rest hypothesis => rw [substituteAll, hypothesis, List.map_cons]

section External

variable {depth missing : Int}

/-- A substitution that a function takes for one of its own binders. -/
theorem substitute_external_of_lt (own : depth < missing) (name : Option String)
    (replacement : Term) (function : External) (arguments : List Term) :
    let sought := name.or (some placeholderName)
    substitute name replacement depth (.external function missing arguments) =
      .external function (missing - arguments.countP (isVariable sought (depth + missing)))
        (arguments.map (substitute sought replacement (depth + missing))) := by
  simp only [substitute, own, decide_true, if_true, substituteAll_eq_map]

/-- A substitution that it takes for a binder around it. -/
theorem substitute_external_of_le (outer : missing ≤ depth) (name : Option String)
    (replacement : Term) (function : External) (arguments : List Term) :
    substitute name replacement depth (.external function missing arguments) =
      .external function missing
        (arguments.map (substitute name replacement (depth + missing))) := by
  simp only [substitute, Int.not_lt.2 outer, decide_false, Bool.false_eq_true, if_false,
    substituteAll_eq_map]

end External

end Term

/-! ### A function with the arguments that it holds -/

/-- An abstraction over all binders, the last one innermost. -/
def Term.nest (binders : List (String × TypeCode)) (inner : Term) : Term :=
  binders.foldr (fun (name, type) body => .abstraction name type body) inner

/-- A function that holds arguments and misses others of the given types. -/
def External.holding (function : External) (held : List Term) (types : List Symbol) : Term :=
  .external function types.length (held.map (Term.shift types.length 0) ++ placeholders types)

namespace Term

theorem substitute_nest (name : Option String) (replacement : Term)
    (binders : List (String × TypeCode)) (depth : Int) (inner : Term) :
    substitute name replacement depth (nest binders inner) =
      nest binders (substitute name replacement (depth + binders.length) inner) := by
  induction binders generalizing depth with
  | nil => rw [List.length_nil, Int.natCast_zero, Int.add_zero]; rfl
  | cons binder rest hypothesis =>
    show Term.abstraction _ _ (substitute _ _ (depth + 1) (nest rest inner)) = _
    rw [hypothesis, List.length_cons, Int.natCast_succ, Int.add_assoc, Int.add_comm 1]
    rfl

theorem isNormal_nest {inner : Term} (normal : inner.IsNormal)
    (binders : List (String × TypeCode)) : (nest binders inner).IsNormal := by
  induction binders with
  | nil => exact normal
  | cons binder rest hypothesis => exact .abstraction binder.1 binder.2 hypothesis

section Reduction

variable {operator argument result : Term}

/-- When nothing is pending, the function receives the argument. -/
theorem reducesTo_of_pending_eq_nil {function : External} {missing : Int} {arguments : List Term}
    (free : operator.pending = [])
    (reduces : operator.ReducesTo (nest operator.pending (.external function missing arguments)))
    (argumentNormal : argument.IsNormal)
    (taken : substitute none argument 0 (.external function missing arguments) = result)
    (normal : result.IsNormal) :
    (application operator argument).ReducesTo
      (nest (application operator argument).pending result) := by
  rw [pending, free, List.tail_nil]
  rw [free] at reduces
  exact reducesTo_contracted reduces argumentNormal.reducesTo_self (congrArg some taken)
    normal.reducesTo_self

/-- Otherwise the outermost abstraction does. -/
theorem reducesTo_of_pending_eq_cons {name : String} {type : TypeCode}
    {binders : List (String × TypeCode)} {inner : Term}
    (bound : operator.pending = (name, type) :: binders)
    (reduces : operator.ReducesTo (nest operator.pending inner))
    (argumentNormal : argument.IsNormal)
    (taken : substitute (some name) argument (binders.length + 1) inner = result)
    (normal : result.IsNormal) :
    (application operator argument).ReducesTo
      (nest (application operator argument).pending result) := by
  rw [pending, bound, List.tail_cons]
  rw [bound] at reduces
  refine reducesTo_contracted reduces argumentNormal.reducesTo_self ?_
    (isNormal_nest normal _).reducesTo_self
  rw [← taken, Int.add_comm]
  exact congrArg some (substitute_nest ..)

end Reduction

/-! ### Placeholders -/

/-- Placeholders are variables that count down from the number of missing arguments. -/
theorem exists_of_mem_placeholders {types : List Symbol} {placeholder : Term}
    (member : placeholder ∈ External.placeholders types) :
    ∃ type index, placeholder = .variable placeholderName type index ∧ 1 ≤ index ∧
      index ≤ types.length := by
  induction types with
  | nil => cases member
  | cons type rest hypothesis =>
    rcases List.mem_cons.1 member with rfl | later
    · exact ⟨type, _, rfl, by omega, by simp⟩
    · obtain ⟨other, index, same, positive, below⟩ := hypothesis later
      exact ⟨other, index, same, positive, by rw [List.length_cons]; omega⟩

/-- There is a placeholder for each number from one to that of the missing arguments. -/
theorem exists_mem_placeholders (types : List Symbol) {index : Int} (positive : 1 ≤ index)
    (below : index ≤ types.length) :
    ∃ type, .variable placeholderName type index ∈ External.placeholders types := by
  induction types with
  | nil =>
    rw [List.length_nil] at below
    omega
  | cons type rest hypothesis =>
    rcases Int.lt_or_le rest.length index with last | inner
    · have same : index = rest.length + 1 := by
        rw [List.length_cons] at below
        omega
      exact ⟨type, same ▸ List.mem_cons_self⟩
    · obtain ⟨other, member⟩ := hypothesis inner
      exact ⟨other, List.mem_cons_of_mem _ member⟩

/-- Nothing that lies further out than all placeholders is found among them. -/
theorem countP_placeholders (name : Option String) {types : List Symbol} {depth : Int}
    (beyond : types.length < depth) :
    (External.placeholders types).countP (isVariable name depth) = 0 := by
  refine List.countP_eq_zero.2 fun placeholder member => ?_
  obtain ⟨type, index, rfl, -, below⟩ := exists_of_mem_placeholders member
  rw [isVariable, Bool.and_eq_true, decide_eq_true_iff, decide_eq_true_iff]
  omega

theorem map_substitute_placeholders (name : Option String) (replacement : Term)
    {types : List Symbol} {depth : Int} (beyond : types.length < depth) :
    (External.placeholders types).map (substitute name replacement depth) =
      External.placeholders types := by
  refine (List.map_congr_left fun placeholder member => ?_).trans (List.map_id _)
  obtain ⟨type, index, rfl, -, below⟩ := exists_of_mem_placeholders member
  rw [substitute_variable_ne (by omega), if_neg (by omega)]
  rfl

/-! ### Arguments above placeholders -/

namespace Supplies

variable {around outside : List (String × External)} {term argument : Term}
  {constant value : External}

theorem shift_shift (supplies : term.Supplies around constant) (first second : ℕ) :
    (term.shift first 0).shift second 0 = term.shift (first + second) 0 := by
  cases supplies with
  | constant constant => rfl
  | occurrence bound =>
    simp only [Term.shift]
    rw [if_pos (by omega), if_pos (by omega), if_pos (by omega), Int.add_assoc]

/-- An argument is no variable of the function itself. -/
theorem isVariable_zero (supplies : term.Supplies around constant) (name : Option String) :
    ¬isVariable name 0 term = true := by
  cases supplies with
  | constant constant => nofun
  | @occurrence other type position constant bound =>
    rw [isVariable, Bool.and_eq_true, decide_eq_true_iff, decide_eq_true_iff]
    omega

/-- Placeholders change nothing about which variable an argument is. -/
theorem isVariable_shift (supplies : term.Supplies around constant) (name : Option String)
    (depth : Int) (amount : ℕ) :
    isVariable name (depth + amount) (term.shift amount 0) = isVariable name depth term := by
  cases supplies with
  | constant constant => rfl
  | @occurrence other type position constant bound =>
    rw [Term.shift, if_pos (by omega), isVariable, isVariable]
    congr 1
    rw [decide_eq_decide]
    omega

/-- Nor about what becomes of it when an abstraction around the function is applied. -/
theorem substitute_shift (supplies : term.Supplies around constant)
    (supplied : argument.Supplies outside value) (name : Option String) (depth amount : ℕ) :
    Term.substitute name argument (depth + 1 + amount) (term.shift amount 0) =
      (Term.substitute name argument (depth + 1) term).shift amount 0 := by
  cases supplies with
  | constant constant => rw [shift_alone, substitute_alone, substitute_alone, shift_alone]
  | @occurrence other type position constant bound =>
    rw [Term.shift, if_pos (by omega)]
    by_cases same : name = some other ∧ position = depth
    · obtain ⟨rfl, rfl⟩ := same
      rw [Term.substitute, if_pos ⟨rfl, rfl⟩, Term.substitute, if_pos ⟨rfl, rfl⟩,
        Int.add_sub_cancel, supplied.shift_shift]
      congr 1
      omega
    · rw [substitute_variable_ne fun ⟨sameName, sameIndex⟩ => same ⟨sameName, by omega⟩,
        substitute_variable_ne fun ⟨sameName, sameIndex⟩ => same ⟨sameName, by omega⟩, Term.shift]
      congr 1
      split <;> split <;> split <;> omega

/-- A placeholder less above an argument that is held. -/
theorem substitute_shift_succ (supplies : term.Supplies around constant) (name : Option String)
    (replacement : Term) (amount : ℕ) :
    Term.substitute name replacement (amount + 1) (term.shift (amount + 1) 0) =
      term.shift amount 0 := by
  cases supplies with
  | constant constant => rw [shift_alone, substitute_alone, shift_alone]
  | @occurrence other type position constant bound =>
    rw [Term.shift, if_pos (by omega), substitute_variable_ne (by omega), if_pos (by omega),
      Term.shift, if_pos (by omega)]
    congr 1
    omega

end Supplies

end Term

/-! ### What becomes of what is held -/

namespace External

variable {function : External} {held : List Term} {argument : Term}
  {around : List (String × External)} {constant : External}

/-- The variable of an abstraction around the function is found as often as it is held. -/
theorem countP_holding (supplies : Term.AreSupplies held) (name : String) (types : List Symbol)
    (distance : ℕ) :
    (held.map (Term.shift types.length 0) ++ placeholders types).countP
      (Term.isVariable (some name) (distance + 1 + types.length)) =
        held.countP (Term.isVariable (some name) (distance + 1)) := by
  rw [List.countP_append, Term.countP_placeholders _ (by omega), List.countP_map, Nat.add_zero]
  refine List.countP_congr fun argument member => ?_
  obtain ⟨around, constant, supplies⟩ := supplies argument member
  rw [Function.comp_apply, supplies.isVariable_shift]

/-- It is replaced where it is held. -/
theorem map_substitute_holding (supplies : Term.AreSupplies held)
    (supplied : argument.Supplies around constant) (name : String) (types : List Symbol)
    (distance : ℕ) :
    (held.map (Term.shift types.length 0) ++ placeholders types).map
      (Term.substitute (some name) argument (distance + 1 + types.length)) =
        (held.map (Term.substitute (some name) argument (distance + 1))).map
          (Term.shift types.length 0) ++ placeholders types := by
  rw [List.map_append, Term.map_substitute_placeholders _ _ (by omega), List.map_map, List.map_map]
  refine congrArg (· ++ _) (List.map_congr_left fun argument member => ?_)
  obtain ⟨around, constant, supplies⟩ := supplies argument member
  exact supplies.substitute_shift supplied _ _ _

/-- The outermost binder of the function itself is found once, at its placeholder. -/
theorem countP_holding_own (supplies : Term.AreSupplies held) (type : Symbol)
    (types : List Symbol) :
    (held.map (Term.shift (type :: types).length 0) ++ placeholders (type :: types)).countP
      (Term.isVariable (some placeholderName) (0 + (type :: types).length)) = 1 := by
  have none : (held.map (Term.shift (type :: types).length 0)).countP
      (Term.isVariable (some placeholderName) (0 + (type :: types).length)) = 0 := by
    rw [List.countP_map, List.countP_eq_zero]
    intro argument member
    obtain ⟨around, constant, supplies⟩ := supplies argument member
    rw [Function.comp_apply, supplies.isVariable_shift]
    exact supplies.isVariable_zero _
  have outermost : Term.isVariable (some placeholderName) (0 + (type :: types).length)
      (.variable placeholderName type (types.length + 1)) = true := by
    rw [Term.isVariable, Bool.and_eq_true, decide_eq_true_iff, decide_eq_true_iff]
    exact ⟨rfl, (Int.zero_add _).symm⟩
  rw [List.countP_append, none, placeholders, List.countP_cons_of_pos outermost,
    Term.countP_placeholders _ (by rw [List.length_cons]; omega)]

/-- There the argument comes in, and the other arguments have a placeholder less above them. -/
theorem map_substitute_holding_own (supplies : Term.AreSupplies held) (argument : Term)
    (type : Symbol) (types : List Symbol) :
    (held.map (Term.shift (type :: types).length 0) ++ placeholders (type :: types)).map
      (Term.substitute (some placeholderName) argument (0 + (type :: types).length)) =
        (held ++ [argument]).map (Term.shift types.length 0) ++ placeholders types := by
  have length : ((type :: types).length : Int) = types.length + 1 := rfl
  rw [List.map_append, List.map_append, placeholders, List.map_cons,
    Term.map_substitute_placeholders _ _ (by omega), List.map_map, List.append_assoc]
  refine congrArg₂ (· ++ ·) (List.map_congr_left fun argument member => ?_)
    (congrArg (· :: _) ?_)
  · obtain ⟨around, constant, supplies⟩ := supplies argument member
    rw [Function.comp_apply, length, Int.zero_add, supplies.substitute_shift_succ]
  · rw [Term.substitute, length, if_pos ⟨rfl, by omega⟩, Int.zero_add, Int.add_sub_cancel]

/-- An argument takes the place of the outermost placeholder. -/
theorem substitute_holding_none (supplies : Term.AreSupplies held) (argument : Term)
    (type : Symbol) (types : List Symbol) :
    Term.substitute none argument 0 (function.holding held (type :: types)) =
      function.holding (held ++ [argument]) types := by
  have own : (0 : Int) < (type :: types).length := Int.natCast_pos.2 (Nat.succ_pos _)
  rw [holding, Term.substitute_external_of_lt own]
  simp only [Option.none_or, countP_holding_own supplies, map_substitute_holding_own supplies]
  rw [holding, List.length_cons, Int.natCast_succ, Int.natCast_one, Int.add_sub_cancel]

/-- When an abstraction around the function is applied, and the function tells it from its own
binders, its variable is replaced in the arguments that are held. -/
theorem substitute_holding_some (supplies : Term.AreSupplies held)
    (supplied : argument.Supplies around constant) (name : String) (types : List Symbol)
    (distance : ℕ)
    (timely : distance + 1 < types.length →
      held.countP (Term.isVariable (some name) (distance + 1)) = 0) :
    Term.substitute (some name) argument (distance + 1) (function.holding held types) =
      function.holding (held.map (Term.substitute (some name) argument (distance + 1))) types := by
  rw [holding, holding, ← map_substitute_holding supplies supplied]
  rcases Int.lt_or_le (distance + 1) types.length with own | outer
  · rw [Term.substitute_external_of_lt own]
    simp only [Option.some_or, countP_holding supplies]
    rw [timely (by omega), Int.natCast_zero, Int.sub_zero]
  · rw [Term.substitute_external_of_le outer]

theorem isNormal_holding (function : External) (supplies : Term.AreSupplies held)
    (types : List Symbol) : (function.holding held types).IsNormal := by
  refine .external function _ fun argument member => ?_
  rcases List.mem_append.1 member with inside | inside
  · obtain ⟨before, known, rfl⟩ := List.mem_map.1 inside
    obtain ⟨around, constant, supplies⟩ := supplies before known
    exact (supplies.isAtom.shift _ _).isNormal
  · obtain ⟨type, index, rfl, -, -⟩ := Term.exists_of_mem_placeholders inside
    exact .occurrence ..

/-- In the reduction of a timely term the function holds, below the abstractions that are pending,
what it has received, and misses the rest. -/
theorem Receives.reducesTo_holding {term : Term} {waiting received : List External}
    (receives : function.Receives around term waiting received)
    (enough : received.length ≤ function.argumentTypes.length)
    (timely : term.IsTimely function.argumentTypes.length) :
    term.ReducesTo (Term.nest term.pending
      (function.holding term.held (function.argumentTypes.drop term.held.length))) := by
  induction receives with
  | self =>
    exact (function.isNormal_holding (List.forall_mem_nil _) function.argumentTypes).reducesTo_self
  | @application around operator argument constant waiting received supplies receives hypothesis =>
    have whole := Receives.application supplies receives
    obtain ⟨operatorTimely, step⟩ := timely
    have reduces := hypothesis enough operatorTimely
    have normal := function.isNormal_holding whole.areSupplies
      (function.argumentTypes.drop (operator.application argument).held.length)
    cases bound : operator.pending with
    | nil =>
      refine Term.reducesTo_of_pending_eq_nil bound reduces supplies.isAtom.isNormal ?_ normal
      have held : (operator.application argument).held = operator.held ++ [argument] := by
        rw [Term.held, bound]
      have more := whole.length_held_le
      rw [held, List.length_append, List.length_singleton] at more ⊢
      rw [List.drop_eq_getElem_cons (by omega)]
      exact substitute_holding_none receives.areSupplies argument _ _
    | cons binder inner =>
      obtain ⟨name, type⟩ := binder
      refine Term.reducesTo_of_pending_eq_cons bound reduces supplies.isAtom.isNormal ?_ normal
      rw [Term.held, bound, List.length_map]
      rw [bound] at step
      refine substitute_holding_some receives.areSupplies supplies name _ _ fun more => ?_
      rw [List.length_drop] at more
      exact step more
  | abstraction receives hypothesis =>
    exact (hypothesis enough timely).abstraction _ _

end External

end WordArithmetic
