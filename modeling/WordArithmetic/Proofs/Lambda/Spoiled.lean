/-
This file says when a function ends up with the constants that it is supplied with.

A function that takes an abstraction around it for one of its own binders counts what is replaced as
an argument. From then on it counts fewer arguments as missing than it has placeholders. Every
further argument replaces a placeholder only where it is counted, so that one is left in the end and
the function is not constant.

So a term leaves its constants with the function exactly if it is timely. For a function with at
most two arguments all terms are.
-/

import WordArithmetic.Proofs.Lambda.Holding

namespace WordArithmetic

/-! ### A function that has lost an argument -/

theorem Term.areConstant_iff {terms : List Term} :
    areConstant terms = true ↔ ∀ term ∈ terms, term.isConstant = true := by
  induction terms with
  | nil => exact iff_of_true rfl (List.forall_mem_nil _)
  | cons first rest hypothesis =>
    rw [areConstant, Bool.and_eq_true, hypothesis, List.forall_mem_cons]

/-- A function that counts fewer arguments as missing than it has placeholders: there is one for
each that it counts, and one more beyond these. -/
structure IsSpoiled (missing : Int) (arguments : List Term) : Prop where
  atoms : ∀ argument ∈ arguments, argument.IsAtom
  counted : ∀ index : Int, 1 ≤ index → index ≤ missing →
    ∃ type, Term.variable placeholderName type index ∈ arguments
  beyond : ∃ type index, Term.variable placeholderName type index ∈ arguments ∧
    (0 < missing → missing < index)

namespace IsSpoiled

variable {missing fewer depth : Int} {arguments : List Term} {argument : Term}

theorem isNormal (spoiled : IsSpoiled missing arguments) (function : External) :
    (Term.external function missing arguments).IsNormal :=
  .external function missing fun argument member => (spoiled.atoms argument member).isNormal

/-- An external function that has lost an argument is not constant. -/
theorem isConstant_eq_false (spoiled : IsSpoiled missing arguments) (function : External) :
    (Term.external function missing arguments).isConstant = false := by
  obtain ⟨type, index, member, -⟩ := spoiled.beyond
  refine Bool.eq_false_iff.2 fun constant => ?_
  rw [Term.isConstant, Term.areConstant_iff] at constant
  cases constant _ member

/-- Placeholders are not replaced by what replaces the variable of an abstraction around them. -/
theorem map (spoiled : IsSpoiled missing arguments) (atom : argument.IsAtom) {name : String}
    (other : name ≠ placeholderName) (outer : missing < depth) (less : fewer ≤ missing) :
    IsSpoiled fewer (arguments.map (Term.substitute (some name) argument depth)) where
  atoms := List.forall_mem_map.2 fun before member =>
    (spoiled.atoms before member).substitute atom _ _
  counted index positive below := by
    obtain ⟨type, member⟩ := spoiled.counted index positive (Int.le_trans below less)
    refine ⟨type, List.mem_map.2 ⟨_, member, ?_⟩⟩
    rw [Term.substitute_variable_ne fun same => other (Option.some.inj same.1),
      if_neg (by omega)]
  beyond := by
    obtain ⟨type, index, member, beyond⟩ := spoiled.beyond
    refine ⟨type, _, List.mem_map.2 ⟨_, member,
      Term.substitute_variable_ne fun same => other (Option.some.inj same.1)⟩, fun some => ?_⟩
    have beyond := beyond (Int.lt_of_lt_of_le some less)
    split <;> omega

/-- It stays so when it receives another argument. -/
theorem receive (spoiled : IsSpoiled missing arguments) (atom : argument.IsAtom)
    (function : External) :
    ∃ fewer changed, Term.substitute none argument 0 (.external function missing arguments) =
      .external function fewer changed ∧ IsSpoiled fewer changed := by
  obtain ⟨lostType, lost, member, beyond⟩ := spoiled.beyond
  have atoms : ∀ name depth,
      ∀ changed ∈ arguments.map (Term.substitute name argument depth), changed.IsAtom :=
    fun name depth => List.forall_mem_map.2 fun before member =>
      (spoiled.atoms before member).substitute atom name depth
  rcases Int.lt_or_le 0 missing with own | outer
  · -- the placeholder that is looked for is there, so that one argument less is missing
    obtain ⟨firstType, first⟩ := spoiled.counted missing own (Int.le_refl _)
    have found : 0 < arguments.countP (Term.isVariable (some placeholderName) (0 + missing)) := by
      refine List.countP_pos_iff.2 ⟨_, first, ?_⟩
      rw [Term.isVariable, Int.zero_add, decide_eq_true rfl, decide_eq_true rfl, Bool.and_true]
    have lostBeyond := beyond own
    refine ⟨_, _, Term.substitute_external_of_lt own .., atoms _ _, fun index positive below => ?_,
      lostType, lost - 1, List.mem_map.2 ⟨_, member, ?_⟩, fun _ => ?_⟩
    · simp only [Option.none_or] at below
      obtain ⟨type, inside⟩ := spoiled.counted index positive (by omega)
      refine ⟨type, List.mem_map.2 ⟨_, inside, ?_⟩⟩
      rw [Term.substitute_variable_ne (by omega), if_neg (by omega)]
    · rw [Term.substitute_variable_ne (by omega), if_pos (by omega)]
    · simp only [Option.none_or]
      omega
  · exact ⟨_, _, Term.substitute_external_of_le outer .., atoms _ _,
      fun index positive below => by omega, lostType, _,
      List.mem_map.2 ⟨_, member,
        Term.substitute_variable_ne fun same => Option.some_ne_none _ same.1.symm⟩,
      fun own => absurd outer (Int.not_le.2 own)⟩

/-- It stays so when an abstraction around it is applied. -/
theorem apply (spoiled : IsSpoiled missing arguments) (atom : argument.IsAtom) {name : String}
    (other : name ≠ placeholderName) (distance : ℕ) (function : External) :
    ∃ fewer changed,
      Term.substitute (some name) argument (distance + 1) (.external function missing arguments) =
        .external function fewer changed ∧ IsSpoiled fewer changed := by
  rcases Int.lt_or_le (distance + 1) missing with own | outer
  · exact ⟨_, _, Term.substitute_external_of_lt own .., spoiled.map atom other (by omega)
      (by omega)⟩
  · exact ⟨_, _, Term.substitute_external_of_le outer .., spoiled.map atom other (by omega)
      (Int.le_refl _)⟩

end IsSpoiled

/-- A function that counts fewer missing arguments than it has placeholders is spoiled. -/
theorem isSpoiled_of_lt {held : List Term} (supplies : Term.AreSupplies held)
    {types : List Symbol} {fewer : Int} (some : 0 < types.length) (less : fewer < types.length) :
    IsSpoiled fewer (held.map (Term.shift types.length 0) ++ External.placeholders types) where
  atoms := by
    refine List.forall_mem_append.2 ⟨List.forall_mem_map.2 fun argument member => ?_,
      fun placeholder member => ?_⟩
    · obtain ⟨around, constant, supplies⟩ := supplies argument member
      exact supplies.isAtom.shift _ _
    · obtain ⟨type, index, rfl, -, -⟩ := Term.exists_of_mem_placeholders member
      exact .occurrence ..
  counted index positive below := by
    obtain ⟨type, member⟩ :=
      Term.exists_mem_placeholders types positive (Int.le_trans below (Int.le_of_lt less))
    exact ⟨type, List.mem_append_right _ member⟩
  beyond := by
    obtain ⟨type, member⟩ :=
      Term.exists_mem_placeholders types (Int.natCast_pos.2 some) (Int.le_refl _)
    exact ⟨type, _, List.mem_append_right _ member, fun _ => less⟩

/-- A function that takes an abstraction around it for one of its own binders is spoiled when the
variable is among the arguments that it holds. -/
theorem External.exists_isSpoiled_of_own (function : External) {held : List Term}
    {argument : Term} (supplies : Term.AreSupplies held) (atom : argument.IsAtom) {name : String}
    (other : name ≠ placeholderName) {types : List Symbol} {distance : ℕ}
    (own : distance + 1 < types.length)
    (found : held.countP (Term.isVariable (some name) (distance + 1)) ≠ 0) :
    ∃ fewer changed, Term.substitute (some name) argument (distance + 1)
      (function.holding held types) = .external function fewer changed ∧
        IsSpoiled fewer changed := by
  have counted := countP_holding supplies name types distance
  have spoiled : IsSpoiled
      (types.length - held.countP (Term.isVariable (some name) (distance + 1)))
      (held.map (Term.shift types.length 0) ++ placeholders types) :=
    isSpoiled_of_lt supplies (by omega) (by omega)
  refine ⟨_, _, Term.substitute_external_of_lt (by omega) .., ?_⟩
  simp only [Option.some_or, counted]
  exact spoiled.map atom other (by omega) (Int.le_refl _)

namespace Term

/-- No abstraction around the function has the name of the placeholders. -/
def HasOtherNames : Term → Prop
  | .application operator _ => operator.HasOtherNames
  | .abstraction name _ body => name ≠ placeholderName ∧ body.HasOtherNames
  | _ => True

theorem HasOtherNames.pending : ∀ {term : Term}, term.HasOtherNames →
    ∀ binder ∈ term.pending, binder.1 ≠ placeholderName
  | .application operator _, others => fun binder member =>
    have operatorOthers : operator.HasOtherNames := others
    operatorOthers.pending binder (List.mem_of_mem_tail member)
  | .abstraction .., others =>
    List.forall_mem_cons.2 ⟨others.1, HasOtherNames.pending others.2⟩
  | .variable .., _ => List.forall_mem_nil _
  | .external .., _ => List.forall_mem_nil _

end Term

namespace External.Receives

variable {function : External} {around : List (String × External)} {term : Term}
  {waiting received : List External}

/-- In the reduction of a term that is not timely the function loses an argument. -/
theorem exists_isSpoiled (receives : function.Receives around term waiting received)
    (enough : received.length ≤ function.argumentTypes.length) (others : term.HasOtherNames)
    (late : ¬term.IsTimely function.argumentTypes.length) :
    ∃ missing arguments,
      term.ReducesTo (Term.nest term.pending (.external function missing arguments)) ∧
        IsSpoiled missing arguments := by
  induction receives with
  | self => exact absurd trivial late
  | @application around operator argument constant waiting received supplies receives hypothesis =>
    have atom := supplies.isAtom
    have operatorOthers : operator.HasOtherNames := others
    by_cases timely : operator.IsTimely function.argumentTypes.length
    · -- the function is spoiled here
      have reduces := receives.reducesTo_holding enough timely
      obtain ⟨name, type, inner, bound, own, found⟩ := Term.exists_of_not_isTimely timely late
      have other : name ≠ placeholderName :=
        operatorOthers.pending _ (bound ▸ List.mem_cons_self)
      rw [← List.length_drop] at own
      obtain ⟨fewer, changed, taken, spoiled⟩ :=
        function.exists_isSpoiled_of_own receives.areSupplies atom other own found
      exact ⟨fewer, changed, Term.reducesTo_of_pending_eq_cons bound reduces atom.isNormal taken
        (spoiled.isNormal function), spoiled⟩
    · obtain ⟨missing, arguments, reduces, spoiled⟩ := hypothesis enough others timely
      cases bound : operator.pending with
      | nil =>
        obtain ⟨fewer, changed, taken, still⟩ := spoiled.receive atom function
        exact ⟨fewer, changed, Term.reducesTo_of_pending_eq_nil bound reduces atom.isNormal taken
          (still.isNormal function), still⟩
      | cons binder inner =>
        obtain ⟨name, type⟩ := binder
        have other : name ≠ placeholderName :=
          operatorOthers.pending _ (bound ▸ List.mem_cons_self)
        obtain ⟨fewer, changed, taken, still⟩ := spoiled.apply atom other inner.length function
        exact ⟨fewer, changed, Term.reducesTo_of_pending_eq_cons bound reduces atom.isNormal taken
          (still.isNormal function), still⟩
  | abstraction receives hypothesis =>
    obtain ⟨missing, arguments, reduces, spoiled⟩ := hypothesis enough others.2 late
    exact ⟨missing, arguments, reduces.abstraction _ _, spoiled⟩

end External.Receives

/-- A term that supplies a function with as many constants as it takes is reduced, and what is left
is constant exactly if the term is timely: then the function holds the constants in the order in
which they were supplied and misses nothing. All terms are timely for a function that takes at most
two arguments, as the operators do. -/
theorem External.Receives.isConstant_iff_isTimely {function : External} {term : Term}
    {received : List External} (receives : function.Receives [] term [] received)
    (all : received.length = function.argumentTypes.length) (others : term.HasOtherNames) :
    (∃ value, term.ReducesTo value ∧
      (value.isConstant = true ↔ term.IsTimely function.argumentTypes.length) ∧
      (term.IsTimely function.argumentTypes.length →
        value = .external function 0 (received.map External.alone))) ∧
    (function.argumentTypes.length ≤ 2 → term.IsTimely function.argumentTypes.length) := by
  refine ⟨?_, fun few => Term.isTimely_of_le_two few term⟩
  obtain ⟨free, held⟩ := receives.held_eq
  by_cases timely : term.IsTimely function.argumentTypes.length
  · have reduces := receives.reducesTo_holding (Nat.le_of_eq all) timely
    have value : function.holding term.held (function.argumentTypes.drop term.held.length) =
        .external function 0 (received.map External.alone) := by
      rw [held, List.length_map, all, List.drop_length, holding, placeholders, List.append_nil,
        List.map_map]
      rfl
    rw [free, value] at reduces
    refine ⟨.external function 0 (received.map alone), reduces, iff_of_true ?_ timely, fun _ => rfl⟩
    rw [Term.isConstant, Term.areConstant_iff]
    exact List.forall_mem_map.2 fun constant _ => rfl
  · obtain ⟨missing, arguments, reduces, spoiled⟩ :=
      receives.exists_isSpoiled (Nat.le_of_eq all) others timely
    rw [free] at reduces
    have lost := Bool.eq_false_iff.1 (spoiled.isConstant_eq_false function)
    exact ⟨.external function missing arguments, reduces, iff_of_false lost timely,
      fun really => absurd really timely⟩

/-- A function with three arguments that receives two variables, the inner one first. -/
theorem External.Receives.isConstant_iff_isTimely_between :
    let number := fun value : Float => External.constant (.float value) TypeCode.numberName
    let name := TypeCode.numberName
    let function : External := ⟨"between", .fixed .absent, [name, name, name], name⟩
    let body : Term := .application (.application function.term (.variable "y" TypeCode.number 1))
      (.variable "x" TypeCode.number 2)
    let abstraction : Term :=
      .abstraction "x" TypeCode.number (.abstraction "y" TypeCode.number body)
    let term : Term := .application (.application (.application abstraction (number 3).alone)
      (number 4).alone) (number 5).alone
    ∃ value, term.ReducesTo value ∧ value.isConstant = true ∧
      value = .external function 0 ([number 4, number 3, number 5].map External.alone) := by
  intro number name function body abstraction term
  have receives : function.Receives [] term [] [number 4, number 3, number 5] :=
    .application (.constant _) (.application (.constant _) (.application (.constant _)
      (.abstraction (.abstraction (.application (.occurrence rfl) (.application (.occurrence rfl)
        .self))))))
  have timely : term.IsTimely 3 :=
    ⟨⟨⟨⟨⟨trivial, trivial⟩, trivial⟩, fun more => absurd more (by decide)⟩,
      fun more => absurd more (by decide)⟩, trivial⟩
  obtain ⟨⟨value, reduces, constant, same⟩, -⟩ :=
    receives.isConstant_iff_isTimely rfl ⟨by decide, by decide, trivial⟩
  exact ⟨value, reduces, constant.2 timely, same timely⟩

/-- A function with three arguments that holds a variable when its abstraction is applied. It takes
this for its second argument, and never receives the last one. -/
theorem External.Receives.loses_argument :
    let number := fun value : Float => External.constant (.float value) TypeCode.numberName
    let name := TypeCode.numberName
    let function : External := ⟨"between", .fixed .absent, [name, name, name], name⟩
    let abstraction : Term := .abstraction "x" TypeCode.number
      (.application function.term (.variable "x" TypeCode.number 1))
    let term : Term := .application (.application (.application abstraction (number 3).alone)
      (number 4).alone) (number 5).alone
    let value : Term := .external function 0
      [(number 3).alone, .variable placeholderName name 0, (number 4).alone]
    function.Receives [] term [] [number 3, number 4, number 5] ∧
      Term.reduce? 7 term = some value ∧ value.isConstant = false := by
  intro number name function abstraction term value
  exact ⟨.application (.constant _) (.application (.constant _) (.application (.constant _)
    (.abstraction (.application (.occurrence rfl) .self)))), rfl, rfl⟩

end WordArithmetic
