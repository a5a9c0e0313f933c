/-
This file shows that the reduction of a typed term ends.

A term is read as a plain term, and every contraction is followed by steps of that term, or by none
when an operator only takes note of an argument. So the reduction goes down in the plain term, by
steps and to parts, which cannot go on forever. A bound on the depth is found from the bounds of the
parts. What is reached is normal, and a normal number without free variables is a constant: nothing
else of that type can be left over.
-/

import Mathlib.Data.List.Forall2
import WordArithmetic.Proofs.Lambda.Encoding
import WordArithmetic.Proofs.Lambda.StrongNormalization

namespace WordArithmetic

namespace Term

/-! ### Reduction within some depth -/

/-- A term is reduced to a value within some depth, and within any larger one. -/
def ReducesTo (term value : Term) : Prop :=
  ∃ bound, ∀ depth, bound ≤ depth → reduce? depth term = some value

theorem ReducesTo.exists_depth {term value : Term} (reduces : ReducesTo term value) :
    ∃ depth, reduce? depth term = some value := by
  obtain ⟨bound, all⟩ := reduces
  exact ⟨bound, all bound (Nat.le_refl _)⟩

theorem reducesTo_variable (name : String) (type : TypeCode) (index : Int) :
    ReducesTo (.variable name type index) (.variable name type index) := by
  refine ⟨1, fun depth enough => ?_⟩
  obtain ⟨less, rfl⟩ := Nat.exists_eq_add_of_le' enough
  rfl

theorem ReducesTo.abstraction {body value : Term} (reduces : ReducesTo body value) (name : String)
    (type : TypeCode) :
    ReducesTo (.abstraction name type body) (.abstraction name type value) := by
  obtain ⟨bound, all⟩ := reduces
  refine ⟨bound + 1, fun depth enough => ?_⟩
  obtain ⟨less, rfl⟩ := Nat.exists_eq_add_of_le' enough
  rw [← Nat.add_assoc, reduce?, all _ (Nat.le_add_left _ _)]
  rfl

/-- An external function is reduced with its arguments. -/
theorem reducesTo_external {arguments values : List Term}
    (reduces : List.Forall₂ ReducesTo arguments values) (function : External) (missing : Int) :
    ReducesTo (.external function missing arguments) (.external function missing values) := by
  have together : ∃ bound, ∀ depth, bound ≤ depth →
      arguments.mapM (reduce? depth) = some values := by
    induction reduces with
    | nil => exact ⟨0, fun _ _ => rfl⟩
    | cons first _ hypothesis =>
      obtain ⟨firstBound, firstAll⟩ := first
      obtain ⟨restBound, restAll⟩ := hypothesis
      refine ⟨max firstBound restBound, fun depth enough => ?_⟩
      rw [List.mapM_cons, firstAll depth (Nat.le_trans (Nat.le_max_left _ _) enough),
        restAll depth (Nat.le_trans (Nat.le_max_right _ _) enough)]
      rfl
  obtain ⟨bound, all⟩ := together
  refine ⟨bound + 1, fun depth enough => ?_⟩
  obtain ⟨less, rfl⟩ := Nat.exists_eq_add_of_le' enough
  rw [← Nat.add_assoc, reduce?, all _ (Nat.le_add_left _ _)]
  rfl

/-- An application that is contracted is reduced to what the outcome is reduced to. -/
theorem reducesTo_contracted {function argument head supplied result value : Term}
    (functionReduces : ReducesTo function head) (argumentReduces : ReducesTo argument supplied)
    (contracted : head.contract? supplied = some result) (reduces : ReducesTo result value) :
    ReducesTo (.application function argument) value := by
  obtain ⟨functionBound, functionAll⟩ := functionReduces
  obtain ⟨argumentBound, argumentAll⟩ := argumentReduces
  obtain ⟨bound, all⟩ := reduces
  refine ⟨max functionBound (max argumentBound bound) + 1, fun depth enough => ?_⟩
  obtain ⟨less, rfl⟩ := Nat.exists_eq_add_of_le' enough
  rw [← Nat.add_assoc, reduce?_application, functionAll _ (by omega), Option.bind_some,
    argumentAll _ (by omega), Option.bind_some, contracted]
  exact all _ (by omega)

/-- An application that cannot be contracted stays. -/
theorem reducesTo_stuck {function argument head supplied : Term}
    (functionReduces : ReducesTo function head) (argumentReduces : ReducesTo argument supplied)
    (stuck : head.contract? supplied = none) :
    ReducesTo (.application function argument) (.application head supplied) := by
  obtain ⟨functionBound, functionAll⟩ := functionReduces
  obtain ⟨argumentBound, argumentAll⟩ := argumentReduces
  refine ⟨max functionBound argumentBound + 1, fun depth enough => ?_⟩
  obtain ⟨less, rfl⟩ := Nat.exists_eq_add_of_le' enough
  rw [← Nat.add_assoc, reduce?_application, functionAll _ (by omega), Option.bind_some,
    argumentAll _ (by omega), Option.bind_some, stuck]

/-! ### What stays below -/

theorem StaysBelow.body {name : String} {type : TypeCode} {body : Term}
    (below : StaysBelow (.abstraction name type body)) : body.StaysBelow :=
  fun state visited => below state (Visits.body visited)

theorem StaysBelow.among {function : External} {missing : Int} {arguments : List Term}
    (below : StaysBelow (.external function missing arguments)) {argument : Term}
    (member : argument ∈ arguments) : argument.StaysBelow :=
  fun state visited => below state (Visits.among member visited)

theorem StaysBelow.function {function argument : Term}
    (below : StaysBelow (.application function argument)) : function.StaysBelow :=
  fun state visited => below state (Visits.function visited)

theorem StaysBelow.argument {function argument : Term}
    (below : StaysBelow (.application function argument)) : argument.StaysBelow :=
  fun state visited => below state (Visits.argument visited)

/-- A contraction in the reduction of a term that stays below only moves indexes, and the reduction
of its outcome stays below. -/
theorem StaysBelow.contract {function argument head supplied result : Term}
    (below : StaysBelow (.application function argument)) (functionReduces : ReducesTo function head)
    (argumentReduces : ReducesTo argument supplied) (typed : supplied.isTyped = true)
    (contracted : head.contractPlainly? supplied = some result) :
    head.contract? supplied = some result ∧ result.StaysBelow := by
  obtain ⟨functionDepth, functionReduced⟩ := functionReduces
  obtain ⟨argumentDepth, argumentReduced⟩ := argumentReduces
  let depth := max functionDepth argumentDepth
  have functionThere := functionReduced depth (Nat.le_max_left _ _)
  have argumentThere := argumentReduced depth (Nat.le_max_right _ _)
  have moved := below result (Visits.moved functionThere argumentThere contracted)
  have same := contract?_eq typed contracted moved
  exact ⟨same, fun state visited =>
    below state (Visits.contracted functionThere argumentThere same visited)⟩

end Term

/-! ### Reduction follows the plain term -/

/-- A term that is read as a renamed plain term is reduced, and what it is reduced to is read as
what the plain term steps to, renamed likewise. -/
def Reaches (names : List String) (change : Nat → Nat) (term : Term) (plain : PlainTerm) : Prop :=
  ∃ value next, term.ReducesTo value ∧ PlainTerm.Steps plain next ∧
    Encodes names value (next.rename change)

theorem reducesTo_lastPlaceholder : lastPlaceholder.ReducesTo lastPlaceholder :=
  Term.reducesTo_variable _ _ _

/-- A term that is its own outcome is reached without steps. -/
theorem Reaches.self {names : List String} {change : Nat → Nat} {term : Term} {plain : PlainTerm}
    (reduces : term.ReducesTo term) (encodes : Encodes names term (plain.rename change)) :
    Reaches names change term plain :=
  ⟨term, plain, reduces, .refl, encodes⟩

/-- An operator with one argument is reduced as far as its argument is. -/
theorem Reaches.half {names : List String} {change : Nat → Nat} {first : Term} {plain : PlainTerm}
    (reaches : Reaches (placeholderName :: names) (Nat.succ ∘ change) first plain)
    (operator : Operator) :
    Reaches names change (.external operator.external 1 [first, lastPlaceholder])
      (.application (.operator operator) plain) := by
  obtain ⟨value, next, reduces, steps, encodes⟩ := reaches
  refine ⟨_, .application (.operator operator) next, Term.reducesTo_external
    (.cons reduces (.cons reducesTo_lastPlaceholder .nil)) _ _,
    PlainTerm.Steps.application .refl steps, ?_⟩
  rw [← PlainTerm.rename_rename] at encodes
  exact Encodes.half encodes

/-- An operator with both arguments is reduced as far as they are. -/
theorem Reaches.full {names : List String} {change : Nat → Nat} {first second : Term}
    {left right : PlainTerm} (leftReaches : Reaches names change first left)
    (rightReaches : Reaches names change second right) (operator : Operator) :
    Reaches names change (.external operator.external 0 [first, second])
      (.application (.application (.operator operator) left) right) := by
  obtain ⟨firstValue, leftNext, firstReduces, leftSteps, leftEncodes⟩ := leftReaches
  obtain ⟨secondValue, rightNext, secondReduces, rightSteps, rightEncodes⟩ := rightReaches
  exact ⟨_, .application (.application (.operator operator) leftNext) rightNext,
    Term.reducesTo_external (.cons firstReduces (.cons secondReduces .nil)) _ _,
    PlainTerm.Steps.application (PlainTerm.Steps.application .refl leftSteps) rightSteps,
    Encodes.full leftEncodes rightEncodes⟩

/-- What comes out of some steps comes further down. -/
theorem descends_of_steps {plain next : PlainTerm} (steps : PlainTerm.Steps plain next) :
    Relation.ReflTransGen PlainTerm.Descends next plain := by
  induction steps with
  | refl => exact .refl
  | tail _ step hypothesis => exact .head (PlainTerm.Descends.step step) hypothesis

/-- A plain term guides reductions if every term that is typed as a renaming of it, and stays below,
is reduced. -/
def Guides (plain : PlainTerm) : Prop :=
  ∀ {change : Nat → Nat} {names : List String} {term : Term} {context : List SimpleType}
    {type : SimpleType} {meaning : Environment context → type.Meaning},
    Encodes names term (plain.rename change) → Means context (plain.rename change) type meaning →
      term.StaysBelow → Reaches names change term plain

section Application

variable {names : List String} {change : Nat → Nat} {context : List SimpleType}
  {type : SimpleType} {meaning : Environment context → type.Meaning}
  {function argument head supplied : Term} {left right nextLeft nextRight : PlainTerm}

/-- An operator is reduced with the argument that it has received, which stands below the
placeholder for the other one. -/
theorem Guides.half {plain : PlainTerm} (guides : Guides plain) {operator : Operator} {first : Term}
    (encodes : Encodes (placeholderName :: names) first ((plain.rename change).rename Nat.succ))
    (means : Means context (plain.rename change) type meaning)
    (below : (Term.external operator.external 1 [first, lastPlaceholder]).StaysBelow) :
    Reaches names change (.external operator.external 1 [first, lastPlaceholder])
      (.application (.operator operator) plain) := by
  have inside := means.weaken .number
  rw [PlainTerm.rename_rename] at encodes inside
  exact (guides encodes inside (below.among (List.mem_cons_self ..))).half operator

/-- An operator is reduced with both of its arguments. -/
theorem Guides.full (leftGuides : Guides left) (rightGuides : Guides right) {operator : Operator}
    {first second : Term} (leftEncodes : Encodes names first (left.rename change))
    (rightEncodes : Encodes names second (right.rename change))
    (means : Means context
      (PlainTerm.rename change (.application (.application (.operator operator) left) right)) type
        meaning)
    (below : (Term.external operator.external 0 [first, second]).StaysBelow) :
    Reaches names change (.external operator.external 0 [first, second])
      (.application (.application (.operator operator) left) right) := by
  cases means with
  | application applied rightMeans =>
    cases applied with
    | application _ leftMeans =>
      have leftReaches := leftGuides leftEncodes leftMeans (below.among (List.mem_cons_self ..))
      have rightReaches := rightGuides rightEncodes rightMeans
        (below.among (List.mem_cons_of_mem _ (List.mem_cons_self ..)))
      exact leftReaches.full rightReaches operator

/-- An application is reduced as far as what it is contracted to. -/
theorem Reaches.contracted {result : Term} {next : PlainTerm}
    (functionReduces : function.ReducesTo head) (argumentReduces : argument.ReducesTo supplied)
    (contracted : head.contract? supplied = some result)
    (steps : PlainTerm.Steps (.application left right) next)
    (reaches : Reaches names change result next) :
    Reaches names change (.application function argument) (.application left right) := by
  obtain ⟨value, last, reduces, later, encodes⟩ := reaches
  exact ⟨value, last, Term.reducesTo_contracted functionReduces argumentReduces contracted reduces,
    steps.trans later, encodes⟩

/-- An application that is stuck is reduced as far as its parts are. -/
theorem Reaches.stuck (functionReduces : function.ReducesTo head)
    (argumentReduces : argument.ReducesTo supplied) (stuck : head.contract? supplied = none)
    (steps : PlainTerm.Steps (.application left right) (.application nextLeft nextRight))
    (headEncodes : Encodes names head (nextLeft.rename change))
    (suppliedEncodes : Encodes names supplied (nextRight.rename change)) :
    Reaches names change (.application function argument) (.application left right) :=
  ⟨_, _, Term.reducesTo_stuck functionReduces argumentReduces stuck, steps,
    Encodes.application headEncodes suppliedEncodes⟩

/-- An application whose parts have been reduced is reduced, if all that its plain term can come to
guides reductions. -/
theorem Reaches.application (functionReduces : function.ReducesTo head)
    (argumentReduces : argument.ReducesTo supplied)
    (below : (Term.application function argument).StaysBelow)
    (steps : PlainTerm.Steps (.application left right) (.application nextLeft nextRight))
    (headEncodes : Encodes names head (nextLeft.rename change))
    (suppliedEncodes : Encodes names supplied (nextRight.rename change))
    (means : Means context ((nextLeft.application nextRight).rename change) type meaning)
    (guides : ∀ next, Relation.TransGen PlainTerm.Descends next (.application nextLeft nextRight) →
      Guides next) :
    Reaches names change (.application function argument) (.application left right) := by
  have contraction := fun {result : Term}
      (contracted : head.contractPlainly? supplied = some result) =>
    below.contract functionReduces argumentReduces suppliedEncodes.isTyped contracted
  have argumentGuides : Guides nextRight := guides _ (.single (.argument nextLeft nextRight))
  have whole := headEncodes
  generalize renamed : nextLeft.rename change = seen at headEncodes
  cases headEncodes with
  | occurrence _ _ =>
    exact Reaches.stuck functionReduces argumentReduces rfl steps whole suppliedEncodes
  | abstraction inside =>
    obtain ⟨body, rfl, rfl⟩ := PlainTerm.rename_eq_abstraction renamed
    obtain ⟨result, contracted, encodes⟩ := inside.contract_abstraction suppliedEncodes
    obtain ⟨same, resultBelow⟩ := contraction contracted
    rw [← PlainTerm.rename_instantiate] at encodes
    have step := PlainTerm.Step.contract body nextRight
    refine Reaches.contracted functionReduces argumentReduces same (steps.tail step) ?_
    exact guides _ (.single (.step step)) encodes (means.step (step.rename change)) resultBelow
  | application _ _ =>
    exact Reaches.stuck functionReduces argumentReduces rfl steps whole suppliedEncodes
  | number value =>
    rw [PlainTerm.rename, renamed] at means
    cases means with
    | application applied _ => cases applied
  | operator operator =>
    obtain rfl := PlainTerm.rename_eq_operator renamed
    obtain ⟨same, resultBelow⟩ := contraction (Encodes.contract_operator operator supplied)
    refine Reaches.contracted functionReduces argumentReduces same steps ?_
    cases means with
    | application _ operandMeans =>
      exact argumentGuides.half (suppliedEncodes.raise_outside [placeholderName]) operandMeans
        resultBelow
  | @half _ operator first inner inside =>
    obtain ⟨sign, plainFirst, rfl, signRenamed, rfl⟩ := PlainTerm.rename_eq_application renamed
    obtain rfl := PlainTerm.rename_eq_operator signRenamed
    obtain ⟨moved, contracted, encodes⟩ := inside.contract_half suppliedEncodes
    obtain ⟨same, resultBelow⟩ := contraction contracted
    have firstGuides : Guides plainFirst :=
      guides _ (.head (.argument _ _) (.single (.function _ _)))
    exact Reaches.contracted functionReduces argumentReduces same steps
      (firstGuides.full argumentGuides encodes suppliedEncodes means resultBelow)
  | full leftSupplied rightSupplied =>
    rw [PlainTerm.rename, renamed] at means
    -- an operator with both arguments is no function
    cases means with
    | application applied _ =>
      cases applied with
      | application applied _ =>
        cases applied with
        | application applied _ => cases applied

end Application

/-- Every plain term in which steps and parts come to an end guides reductions. -/
theorem guides {plain : PlainTerm} (ends : Acc (Relation.TransGen PlainTerm.Descends) plain) :
    Guides plain := by
  induction ends with
  | intro plain _ hypothesis =>
    intro change names term context type meaning encodes means below
    have whole := encodes
    generalize renamed : plain.rename change = seen at encodes
    cases encodes with
    | occurrence _ _ => exact Reaches.self (Term.reducesTo_variable _ _ _) whole
    | @abstraction _ name code body inner inside =>
      obtain ⟨plainBody, rfl, rfl⟩ := PlainTerm.rename_eq_abstraction renamed
      cases means with
      | abstraction bodyMeans =>
        obtain ⟨value, next, reduces, steps, encodes⟩ :=
          hypothesis _ (.single (.body plainBody)) inside bodyMeans below.body
        exact ⟨_, _, reduces.abstraction name code, PlainTerm.Steps.abstraction steps,
          Encodes.abstraction encodes⟩
    | application applied supplied =>
      obtain ⟨left, right, rfl, rfl, rfl⟩ := PlainTerm.rename_eq_application renamed
      cases means with
      | application leftMeans rightMeans =>
        obtain ⟨head, nextLeft, functionReduces, leftSteps, headEncodes⟩ :=
          hypothesis _ (.single (.function left right)) applied leftMeans below.function
        obtain ⟨operand, nextRight, argumentReduces, rightSteps, operandEncodes⟩ :=
          hypothesis _ (.single (.argument left right)) supplied rightMeans below.argument
        have steps := PlainTerm.Steps.application leftSteps rightSteps
        refine Reaches.application functionReduces argumentReduces below steps headEncodes
          operandEncodes ((Means.application leftMeans rightMeans).steps (steps.rename change)) ?_
        intro next descends
        exact hypothesis next (descends.trans_left (descends_of_steps steps))
    | number value => exact Reaches.self (Term.reducesTo_external .nil _ _) whole
    | operator operator =>
      have placeholders := List.Forall₂.cons (Term.reducesTo_variable placeholderName
        TypeCode.numberName 2) (.cons reducesTo_lastPlaceholder .nil)
      exact Reaches.self (Term.reducesTo_external placeholders _ _) whole
    | @half _ operator first inner supplied =>
      obtain ⟨sign, plainFirst, rfl, signRenamed, rfl⟩ := PlainTerm.rename_eq_application renamed
      obtain rfl := PlainTerm.rename_eq_operator signRenamed
      have firstGuides : Guides plainFirst := hypothesis _ (.single (.argument _ _))
      cases means with
      | application _ firstMeans => exact firstGuides.half supplied firstMeans below
    | @full _ operator first second _ _ leftSupplied rightSupplied =>
      obtain ⟨applied, right, rfl, leftRenamed, rfl⟩ := PlainTerm.rename_eq_application renamed
      obtain ⟨sign, left, rfl, signRenamed, rfl⟩ := PlainTerm.rename_eq_application leftRenamed
      obtain rfl := PlainTerm.rename_eq_operator signRenamed
      have leftGuides : Guides left :=
        hypothesis _ (.head (.argument _ _) (.single (.function _ _)))
      have rightGuides : Guides right := hypothesis _ (.single (.argument _ _))
      exact leftGuides.full rightGuides leftSupplied rightSupplied means below

/-- A term that is typed and stays below is reduced to a term that what it is read as steps to. -/
theorem Encodes.reducesTo {names : List String} {term : Term} {plain : PlainTerm}
    {context : List SimpleType} {type : SimpleType} {meaning : Environment context → type.Meaning}
    (encodes : Encodes names term plain) (means : Means context plain type meaning)
    (below : term.StaysBelow) :
    ∃ value next, term.ReducesTo value ∧ PlainTerm.Steps plain next ∧
      Encodes names value next := by
  have ends := means.terminates.acc_descends.transGen
  rw [← PlainTerm.rename_id plain] at encodes means
  obtain ⟨value, next, reduces, steps, valueEncodes⟩ := guides ends encodes means below
  rw [PlainTerm.rename_id] at valueEncodes
  exact ⟨value, next, reduces, steps, valueEncodes⟩

end WordArithmetic
