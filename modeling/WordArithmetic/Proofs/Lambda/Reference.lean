/-
This file evaluates terms by names and shows that reduction computes the same.

The reference evaluator knows neither substitution nor indexes. A name stands for a term together
with the names around that term, an abstraction receives its argument unevaluated, and an operator
evaluates both of its arguments before it computes. It may be given too little depth, and then has
no outcome. What it answers is compared with what the term means, by induction on the type of the
term: a number is answered with what it means, and a function with an answer that takes arguments
that are right to results that are right. Reduction ends with a constant whose value is the same
meaning, so both agree, also on whether a division by zero is used.
-/

import WordArithmetic.Proofs.Lambda.Evaluation

namespace WordArithmetic

/-! ### Evaluation by names -/

/-- A term with what the names around it stand for, to be evaluated where it is used. -/
inductive Closure where
  | suspend (names : List (String × Closure)) (term : Term)

/-- What a term is evaluated to: a number, an abstraction with the names around it, or an operator
that may have received its first argument. -/
inductive Answer where
  | number (value : Float)
  | function (names : List (String × Closure)) (name : String) (body : Term)
  | operator (operator : Operator) (received : Option Closure)

namespace Answer

/-- The number that an answer is. -/
def toFloat : Answer → Except Failure Float
  | number value => .ok value
  | _ => .error .notNumeric

/-- The answer to an external function without arguments. -/
def ofRule : Rule → Except Failure Answer
  | .fixed value => value.toFloat.map number
  | .arithmetic sign => .ok (operator sign none)

/-- What an operator computes from its arguments once they are evaluated. -/
def compute (sign : Operator) (left right : Except Failure Answer) : Except Failure Answer := do
  let first ← (← left).toFloat
  let second ← (← right).toFloat
  return number (← sign.apply first second)

/-- Applies an answer to an argument that is not yet evaluated. -/
def receive (evaluate : Closure → Option (Except Failure Answer)) (argument : Closure) :
    Answer → Option (Except Failure Answer)
  | function names name body => evaluate (.suspend ((name, argument) :: names) body)
  | operator sign none => some (.ok (operator sign (some argument)))
  | operator sign (some first) => do
    let left ← evaluate first
    let right ← evaluate argument
    return compute sign left right
  | number _ => some (.error .notSupported)

end Answer

/-- Evaluates a term by names, to the given depth. -/
def Closure.evaluate : (depth : Nat) → Closure → Option (Except Failure Answer)
  | 0, _ => none
  | depth + 1, .suspend names term =>
    match term with
    | .variable name _ _ =>
      match names.lookup name with
      | some closure => Closure.evaluate depth closure
      | none => some (.error (.unknownKey name))
    | .abstraction name _ body => some (.ok (.function names name body))
    | .external function _ _ => some (Answer.ofRule function.rule)
    | .application function argument =>
      match Closure.evaluate depth (.suspend names function) with
      | none => none
      | some (.error failure) => some (.error failure)
      | some (.ok answer) => answer.receive (Closure.evaluate depth) (.suspend names argument)

/-! ### Outcomes that no depth changes any more -/

/-- A run to some depth has this outcome, and so has every deeper one. -/
def Settles {Outcome : Type} (run : Nat → Outcome) (outcome : Outcome) : Prop :=
  ∃ bound, ∀ depth, bound ≤ depth → run depth = outcome

theorem Settles.of_succ {Outcome : Type} {run later : Nat → Outcome} {outcome : Outcome}
    (settles : Settles run outcome) (start : Nat)
    (follows : ∀ depth, start ≤ depth → later (depth + 1) = run depth) : Settles later outcome := by
  obtain ⟨bound, all⟩ := settles
  refine ⟨max start bound + 1, fun depth enough => ?_⟩
  obtain ⟨less, rfl⟩ := Nat.exists_eq_add_of_le' enough
  rw [← Nat.add_assoc, follows _ (by omega), all _ (by omega)]

theorem Settles.unique {Outcome : Type} {run : Nat → Outcome} {outcome other : Outcome}
    (settles : Settles run outcome) (otherSettles : Settles run other) : outcome = other := by
  obtain ⟨bound, all⟩ := settles
  obtain ⟨otherBound, otherAll⟩ := otherSettles
  rw [← all (max bound otherBound) (Nat.le_max_left _ _),
    otherAll (max bound otherBound) (Nat.le_max_right _ _)]

/-! ### Answers that are right -/

/-- An evaluation realizes a meaning: a number is answered with what it means, and a function with
an answer that takes what realizes an argument to what realizes the result. -/
def Realizes : (type : SimpleType) → type.Meaning → (Nat → Option (Except Failure Answer)) → Prop
  | .atom _, meaning, run => Settles run (some (Except.map Answer.number meaning))
  | .arrow argument result, meaning, run =>
    ∃ answer, Settles run (some (.ok answer)) ∧
      ∀ (operand : Closure) (value : argument.Meaning),
        Realizes argument value (fun depth => operand.evaluate depth) →
          Realizes result (meaning value) fun depth =>
            answer.receive (Closure.evaluate depth) operand

/-- What a run realizes is realized by any run that follows it one depth later. -/
theorem Realizes.of_succ {type : SimpleType} {meaning : type.Meaning}
    {run later : Nat → Option (Except Failure Answer)} (realizes : Realizes type meaning run)
    (start : Nat) (follows : ∀ depth, start ≤ depth → later (depth + 1) = run depth) :
    Realizes type meaning later := by
  cases type with
  | atom name => exact Settles.of_succ realizes start follows
  | arrow argument result =>
    obtain ⟨answer, settles, each⟩ := realizes
    exact ⟨answer, settles.of_succ start follows, each⟩

/-- Names stand for closures that realize what the variables of abstractions mean. -/
inductive Fits : (context : List (String × SimpleType)) → Environment (context.map Prod.snd) →
    List (String × Closure) → Prop
  | nil : Fits [] () []
  | cons {context : List (String × SimpleType)} {values : Environment (context.map Prod.snd)}
      {names : List (String × Closure)} {name : String} {type : SimpleType} {value : type.Meaning}
      {closure : Closure} (realizes : Realizes type value fun depth => closure.evaluate depth)
      (fits : Fits context values names) :
      Fits ((name, type) :: context) (value, values) ((name, closure) :: names)

section Adequacy

variable {context : List (String × SimpleType)} {values : Environment (context.map Prod.snd)}
  {names : List (String × Closure)} {type : SimpleType}
  {meaning : Environment (context.map Prod.snd) → type.Meaning}

/-- A name is looked up to what its nearest binder has received. -/
theorem NearestBinder.lookup {name : String} {index : Nat}
    (binder : NearestBinder context name type index meaning) (fits : Fits context values names) :
    ∃ closure, names.lookup name = some closure ∧
      Realizes type (meaning values) fun depth => closure.evaluate depth := by
  induction binder generalizing names with
  | here =>
    cases fits with
    | cons realizes _ => exact ⟨_, List.lookup_cons_self, realizes⟩
  | outside different _ hypothesis =>
    cases fits with
    | cons _ fits =>
      obtain ⟨closure, found, realizes⟩ := hypothesis fits
      refine ⟨closure, ?_, realizes⟩
      rw [List.lookup_cons, beq_false_of_ne different]
      exact found

/-- An operator computes what it means from what its arguments mean. -/
theorem Answer.compute_map (sign : Operator) (left right : Except Failure Float) :
    compute sign (Except.map number left) (Except.map number right) =
      Except.map number (sign.meaning left right) := by
  cases left with
  | error failure => rfl
  | ok left =>
    cases right with
    | error failure => rfl
    | ok right => rfl

/-- An operator is realized: it waits for both arguments and computes. -/
theorem realizes_operator (names : List (String × Closure)) (sign : Operator) :
    Realizes .operation sign.meaning fun depth =>
      (Closure.suspend names sign.external.term).evaluate depth := by
  refine ⟨.operator sign none, ⟨1, fun depth enough => ?_⟩, fun first left firstRealizes =>
    ⟨.operator sign (some first), ⟨0, fun _ _ => rfl⟩, fun second right secondRealizes => ?_⟩⟩
  · obtain ⟨less, rfl⟩ := Nat.exists_eq_add_of_le' enough
    rfl
  · obtain ⟨firstBound, firstAll⟩ := firstRealizes
    obtain ⟨secondBound, secondAll⟩ := secondRealizes
    refine ⟨max firstBound secondBound, fun depth enough => ?_⟩
    have leftAnswer := firstAll depth (Nat.le_trans (Nat.le_max_left _ _) enough)
    have rightAnswer := secondAll depth (Nat.le_trans (Nat.le_max_right _ _) enough)
    simp only [Answer.receive, leftAnswer, rightAnswer]
    exact congrArg some (Answer.compute_map sign left right)

/-- The reference evaluator realizes what a typed term means. -/
theorem HasMeaning.realizes {term : Term} (has : HasMeaning context term type meaning)
    (fits : Fits context values names) :
    Realizes type (meaning values) fun depth => (Closure.suspend names term).evaluate depth := by
  induction has generalizing names with
  | occurrence binder =>
    obtain ⟨closure, found, realizes⟩ := binder.lookup fits
    refine realizes.of_succ 0 fun depth _ => ?_
    rw [Closure.evaluate, found]
  | @abstraction context name body argument result meaning inside hypothesis =>
    refine ⟨.function names name body, ⟨1, fun depth enough => ?_⟩, fun operand value right => ?_⟩
    · obtain ⟨less, rfl⟩ := Nat.exists_eq_add_of_le' enough
      rfl
    · exact hypothesis (Fits.cons right fits)
  | @application context function operand argument result left right _ _ applied supplied =>
    obtain ⟨answer, ⟨bound, settled⟩, each⟩ := applied fits
    refine (each _ _ (supplied fits)).of_succ bound fun depth enough => ?_
    have answered : Closure.evaluate depth (.suspend names function) = some (.ok answer) :=
      settled depth enough
    rw [Closure.evaluate, answered]
  | number value =>
    refine ⟨1, fun depth enough => ?_⟩
    obtain ⟨less, rfl⟩ := Nat.exists_eq_add_of_le' enough
    rfl
  | operator sign => exact realizes_operator names sign

end Adequacy

namespace Term

/-! ### Denotations -/

/-- A term has this outcome as its denotation: with enough depth it is reached, and with less the
term is reported as too deep or the same is reached. -/
def HasDenotation (term : Term) (outcome : Except Failure Value) : Prop :=
  Settles (fun depth => term.denote depth) outcome ∧
    ∀ depth, term.denote depth = outcome ∨ term.denote depth = .error .reductionTooDeep

/-- A term whose reduction ends has the denotation that every depth finds in the normal form. -/
theorem ReducesTo.hasDenotation {term value : Term} (reduces : term.copy.ReducesTo value)
    {outcome : Except Failure Value}
    (found : ∀ depth, term.copy.reduce? depth = some value → term.denote depth = outcome) :
    term.HasDenotation outcome := by
  obtain ⟨bound, all⟩ := reduces
  refine ⟨⟨bound, fun depth enough => found depth (all depth enough)⟩, fun depth => ?_⟩
  cases reduced : term.copy.reduce? depth with
  | none =>
    right
    rw [denote, evaluate, reduced]
  | some other =>
    obtain rfl := reduce?_unique (all bound (Nat.le_refl _)) reduced
    exact .inl (found depth reduced)

/-- A composed number denotes what the reference evaluator answers, and is undefined exactly if the
reference evaluator divides by zero. -/
theorem Composed.denotation_eq_reference {term : Term} (composed : term.Composed)
    (typed : term.typecheck = .ok TypeCode.number) (below : term.copy.StaysBelow) :
    (∃ number : Float,
      Settles (fun depth => (Closure.suspend [] term).evaluate depth)
          (some (.ok (.number number))) ∧
        term.HasDenotation (.ok (.float number))) ∨
      Settles (fun depth => (Closure.suspend [] term).evaluate depth)
          (some (.error .divisionByZero)) ∧
        term.HasDenotation
          (.error (term.undefinedFailure Failure.divisionByZero.message)) := by
  obtain ⟨meaning, value, has, reduces, constant, valueIs, fails⟩ := composed.reducesTo typed below
  have realizes : Settles (fun depth => (Closure.suspend [] term).evaluate depth)
      (some (Except.map Answer.number (meaning ()))) := has.realizes Fits.nil
  cases means : meaning () with
  | ok number =>
    rw [means] at realizes valueIs
    refine .inl ⟨number, realizes, reduces.hasDenotation fun depth reduced => ?_⟩
    rw [denote, evaluate, reduced]
    simp only [constant, if_true, valueIs]
    rfl
  | error failure =>
    obtain rfl := fails failure means
    rw [means] at realizes valueIs
    refine .inr ⟨realizes, reduces.hasDenotation fun depth reduced => ?_⟩
    rw [denote, evaluate, reduced]
    simp only [constant, if_true, valueIs]
    rfl

/-- A function that is handed a division with one argument missing. -/
theorem Composed.denotation_eq_reference_handed :
    ∃ term, (Session.arithmetic.read
        "((lambda (x:num f:num=>num) (f (- 1 x))) 4 ((lambda (y:num) (/ y)) 2))").2 =
          .ok (some term) ∧
      term.typecheck = .ok TypeCode.number ∧ term.copy.StaysBelow ∧
        ((∃ number : Float,
          Settles (fun depth => (Closure.suspend [] term).evaluate depth)
              (some (.ok (.number number))) ∧
            term.HasDenotation (.ok (.float number))) ∨
          Settles (fun depth => (Closure.suspend [] term).evaluate depth)
              (some (.error .divisionByZero)) ∧
            term.HasDenotation
              (.error (term.undefinedFailure Failure.divisionByZero.message))) := by
  have reads : Session.arithmetic.readsNumber 30
      "((lambda (x:num f:num=>num) (f (- 1 x))) 4 ((lambda (y:num) (/ y)) 2))" = true := by
    decide +kernel
  obtain ⟨term, result, typed, below⟩ := Session.exists_of_readsNumber reads
  have composed := Composed.read .arithmetic result
  exact ⟨term, result, typed, below, Composed.denotation_eq_reference composed typed below⟩

end Term

end WordArithmetic
