/-
This file evaluates terms by names, whether or not they have types.

The evaluator keeps the arguments that a term has yet to receive. An abstraction receives the
nearest one unevaluated, an operator evaluates its arguments if it has two, and a number takes none.
Too many arguments are noticed before any of them is evaluated. On plain terms the same evaluation
is a relation, which steps at the head do not change, so neither do any other steps. A term without
free variables stands for a plain term, and what the plain term yields is what the evaluator comes
to.
-/

import WordArithmetic.Proofs.Lambda.Reference
import WordArithmetic.Proofs.Lambda.Standardization
import WordArithmetic.Proofs.Lambda.TypeRules

namespace WordArithmetic

/-! ### Evaluation by names -/

/-- What the evaluation of a term comes to. -/
inductive Conclusion where
  | number (value : Float)
  /-- An abstraction, or an operator that waits for an argument. -/
  | function
  | dividedByZero
  /-- An operator has received something that is not a number. -/
  | notNumeric
  /-- A number, or an operator that has received two arguments, is applied to another one. -/
  | oversupplied
  /-- A name stands for nothing. -/
  | unbound (name : String)
deriving DecidableEq

namespace Conclusion

/-- The conclusion of a constant. -/
def ofValue (value : Value) : Conclusion :=
  match value.toFloat with
  | .ok value => number value
  | .error _ => notNumeric

/-- The conclusion of an operator from those of its arguments, of which the first one that is not a
number decides. -/
def combine (sign : Operator) : Conclusion → Conclusion → Conclusion
  | number left, number right =>
    match sign.apply left right with
    | .ok value => number value
    | .error _ => dividedByZero
  | number _, function => notNumeric
  | number _, stuck => stuck
  | function, _ => notNumeric
  | stuck, _ => stuck

/-- The conclusion of an external function that is applied to some arguments. -/
def ofExternal (evaluate : Closure → Option Conclusion) :
    Rule → List Closure → Option Conclusion
  | .fixed value, [] => some (ofValue value)
  | .fixed _, _ :: _ => some oversupplied
  | .arithmetic _, [] => some function
  | .arithmetic _, [_] => some function
  | .arithmetic sign, [left, right] => do return combine sign (← evaluate left) (← evaluate right)
  | .arithmetic _, _ :: _ :: _ :: _ => some oversupplied

end Conclusion

/-- Evaluates a term that is applied to some arguments by names, to the given depth. -/
def Closure.run : (depth : Nat) → Closure → (arguments : List Closure) → Option Conclusion
  | 0, _, _ => none
  | depth + 1, .suspend names term, arguments =>
    match term with
    | .variable name _ _ =>
      match names.lookup name with
      | some closure => Closure.run depth closure arguments
      | none => some (.unbound name)
    | .abstraction name _ body =>
      match arguments with
      | [] => some .function
      | first :: rest => Closure.run depth (.suspend ((name, first) :: names) body) rest
    | .application function argument =>
      Closure.run depth (.suspend names function) (.suspend names argument :: arguments)
    | .external function _ _ =>
      Conclusion.ofExternal (fun closure => Closure.run depth closure []) function.rule arguments

/-! ### Depth -/

/-- An evaluation that knows more conclusions gives an external function the same one, if there is
one. -/
theorem Conclusion.ofExternal_of_imp {evaluate later : Closure → Option Conclusion}
    (knows : ∀ {closure conclusion}, evaluate closure = some conclusion →
      later closure = some conclusion) {rule : Rule} {arguments : List Closure}
    {conclusion : Conclusion} (known : ofExternal evaluate rule arguments = some conclusion) :
    ofExternal later rule arguments = some conclusion := by
  match rule, arguments with
  | .fixed _, [] | .fixed _, _ :: _ | .arithmetic _, [] | .arithmetic _, [_]
  | .arithmetic _, _ :: _ :: _ :: _ => exact known
  | .arithmetic sign, [left, right] =>
    obtain ⟨first, leftKnown, known⟩ := Option.bind_eq_some_iff.1 known
    obtain ⟨second, rightKnown, same⟩ := Option.bind_eq_some_iff.1 known
    exact Option.bind_eq_some_iff.2 ⟨first, knows leftKnown,
      Option.bind_eq_some_iff.2 ⟨second, knows rightKnown, same⟩⟩

/-- What is come to within some depth is come to within one more. -/
theorem Closure.run_succ {depth : Nat} {closure : Closure} {arguments : List Closure}
    {conclusion : Conclusion} (runs : closure.run depth arguments = some conclusion) :
    closure.run (depth + 1) arguments = some conclusion := by
  induction depth generalizing closure arguments conclusion with
  | zero => cases runs
  | succ depth hypothesis =>
    obtain ⟨names, term⟩ := closure
    match term with
    | .variable name _ _ =>
      rw [run] at runs ⊢
      cases looked : names.lookup name with
      | none =>
        rw [looked] at runs
        exact runs
      | some closure =>
        rw [looked] at runs
        exact hypothesis runs
    | .abstraction name _ body =>
      cases arguments with
      | nil => exact runs
      | cons first rest => exact hypothesis runs
    | .application function argument => exact hypothesis runs
    | .external function _ _ => exact Conclusion.ofExternal_of_imp hypothesis runs

/-- What is come to within some depth is what evaluation comes to. -/
theorem Closure.settles_of_run {depth : Nat} {closure : Closure} {arguments : List Closure}
    {conclusion : Conclusion} (runs : closure.run depth arguments = some conclusion) :
    Settles (fun depth => closure.run depth arguments) (some conclusion) := by
  refine ⟨depth, fun larger more => ?_⟩
  induction more with
  | refl => exact runs
  | step _ hypothesis => exact Closure.run_succ hypothesis

/-! ### Evaluation of plain terms -/

namespace PlainTerm

/-- A term that is applied to some arguments is evaluated by names to this conclusion. -/
inductive Yields : PlainTerm → List PlainTerm → Conclusion → Prop
  | function (body : PlainTerm) : Yields (abstraction body) [] .function
  | contract {body argument : PlainTerm} {arguments : List PlainTerm} {conclusion : Conclusion}
      (later : Yields (body.instantiate argument) arguments conclusion) :
      Yields (abstraction body) (argument :: arguments) conclusion
  | application {function argument : PlainTerm} {arguments : List PlainTerm}
      {conclusion : Conclusion} (applied : Yields function (argument :: arguments) conclusion) :
      Yields (application function argument) arguments conclusion
  | number (value : Float) : Yields (number value) [] (.number value)
  | numberApplied (value : Float) (first : PlainTerm) (rest : List PlainTerm) :
      Yields (number value) (first :: rest) .oversupplied
  | operator (sign : Operator) : Yields (operator sign) [] .function
  | half (sign : Operator) (argument : PlainTerm) : Yields (operator sign) [argument] .function
  | full {sign : Operator} {left right : PlainTerm} {first second : Conclusion}
      (leftYields : Yields left [] first) (rightYields : Yields right [] second) :
      Yields (operator sign) [left, right] (.combine sign first second)
  | fullApplied (sign : Operator) (left right third : PlainTerm) (rest : List PlainTerm) :
      Yields (operator sign) (left :: right :: third :: rest) .oversupplied

namespace Yields

variable {term next : PlainTerm} {arguments : List PlainTerm} {conclusion : Conclusion}

theorem of_headStep (step : HeadStep term next) (yields : Yields next arguments conclusion) :
    Yields term arguments conclusion := by
  induction step generalizing arguments with
  | contract body argument => exact .application (.contract yields)
  | function _ hypothesis =>
    cases yields with
    | application applied => exact .application (hypothesis applied)

/-- Steps at the head do not change what a term yields. -/
theorem of_headSteps (steps : HeadSteps term next) (yields : Yields next arguments conclusion) :
    Yields term arguments conclusion := by
  induction steps using Relation.ReflTransGen.head_induction_on with
  | refl => exact yields
  | head step _ hypothesis => exact of_headStep step hypothesis

/-- A term yields what it yields after steps in it and in its arguments. -/
theorem of_standard (yields : Yields next arguments conclusion) (standard : Standard term next)
    {earlier : List PlainTerm} (each : List.Forall₂ Standard earlier arguments) :
    Yields term earlier conclusion := by
  -- every rule reads the head of the term only, and steps at the head give the term the same one
  induction yields generalizing term earlier with
  | function body =>
    obtain rfl := List.forall₂_nil_right_iff.1 each
    cases standard with
    | abstraction head _ => exact of_headSteps head (.function _)
  | contract _ hypothesis =>
    obtain ⟨argument, rest, supplied, others, rfl⟩ := List.forall₂_cons_right_iff.1 each
    cases standard with
    | abstraction head inside =>
      exact of_headSteps head (.contract (hypothesis (inside.instantiate supplied) others))
  | application _ hypothesis =>
    cases standard with
    | application head applied supplied =>
      exact of_headSteps head (.application (hypothesis applied (.cons supplied each)))
  | number value =>
    obtain rfl := List.forall₂_nil_right_iff.1 each
    cases standard with
    | number head => exact of_headSteps head (.number value)
  | numberApplied value _ _ =>
    obtain ⟨first, rest, -, -, rfl⟩ := List.forall₂_cons_right_iff.1 each
    cases standard with
    | number head => exact of_headSteps head (.numberApplied value first rest)
  | operator sign =>
    obtain rfl := List.forall₂_nil_right_iff.1 each
    cases standard with
    | operator head => exact of_headSteps head (.operator sign)
  | half sign _ =>
    obtain _ | ⟨-, _ | _⟩ := each
    cases standard with
    | operator head => exact of_headSteps head (.half sign _)
  | full _ _ leftHypothesis rightHypothesis =>
    obtain _ | ⟨left, _ | ⟨right, _ | _⟩⟩ := each
    cases standard with
    | operator head =>
      exact of_headSteps head (.full (leftHypothesis left .nil) (rightHypothesis right .nil))
  | fullApplied sign _ _ _ _ =>
    obtain _ | ⟨-, _ | ⟨-, _ | ⟨-, -⟩⟩⟩ := each
    cases standard with
    | operator head => exact of_headSteps head (.fullApplied sign _ _ _ _)

/-- Steps, wherever they are taken, do not change what a term yields. -/
theorem of_steps (steps : Steps term next) (yields : Yields next [] conclusion) :
    Yields term [] conclusion :=
  yields.of_standard steps.standard .nil

end Yields

end PlainTerm

/-! ### Terms without free variables -/

/-- The nearest of some binders that has a name, and how many others lie nearer. -/
inductive IsNearest : List String → String → Nat → Prop
  | here {names : List String} {name : String} : IsNearest (name :: names) name 0
  | outside {names : List String} {name other : String} {index : Nat} (different : name ≠ other)
      (further : IsNearest names name index) : IsNearest (other :: names) name (index + 1)

namespace IsNearest

variable {names : List String} {name : String} {index : Nat}

theorem getElem? (nearest : IsNearest names name index) : names[index]? = some name := by
  induction nearest with
  | here => rfl
  | outside _ _ hypothesis => exact hypothesis

theorem of_append {nearer further : List String} (absent : name ∉ nearer) :
    IsNearest (nearer ++ name :: further) name nearer.length := by
  induction nearer with
  | nil => exact .here
  | cons other nearer hypothesis =>
    rw [List.mem_cons, not_or] at absent
    exact .outside absent.1 (hypothesis absent.2)

/-- A name is looked up to what its nearest binder has received. -/
theorem lookup {names : List (String × Closure)}
    (nearest : IsNearest (names.map Prod.fst) name index) :
    ∃ entry, names[index]? = some entry ∧ names.lookup name = some entry.2 := by
  induction names generalizing index with
  | nil => cases nearest
  | cons entry names hypothesis =>
    cases nearest with
    | here => exact ⟨entry, rfl, List.lookup_cons_self⟩
    | outside different further =>
      obtain ⟨entry, found, looked⟩ := hypothesis further
      refine ⟨entry, found, ?_⟩
      rw [List.lookup_cons, beq_false_of_ne different]
      exact looked

end IsNearest

/-- A term below binders of these names, the nearest first, is read as a plain term, and all of its
variables are bound by the nearest binder of their name. -/
inductive EncodesNearest : List String → Term → PlainTerm → Prop
  | occurrence {names : List String} {name : String} {type : TypeCode} {index : Nat}
      (nearest : IsNearest names name index) (typed : type ≠ TypeCode.untyped) :
      EncodesNearest names (.variable name type (index + 1)) (.occurrence index)
  | abstraction {names : List String} {name : String} {type : TypeCode} {body : Term}
      {plain : PlainTerm} (inside : EncodesNearest (name :: names) body plain) :
      EncodesNearest names (.abstraction name type body) (.abstraction plain)
  | application {names : List String} {function argument : Term}
      {plainFunction plainArgument : PlainTerm}
      (applied : EncodesNearest names function plainFunction)
      (supplied : EncodesNearest names argument plainArgument) :
      EncodesNearest names (.application function argument)
        (.application plainFunction plainArgument)
  | number {names : List String} (value : Float) :
      EncodesNearest names (Term.number value) (.number value)
  | operator {names : List String} (operator : Operator) :
      EncodesNearest names operator.external.term (.operator operator)

theorem EncodesNearest.encodes {names : List String} {term : Term} {plain : PlainTerm}
    (encodes : EncodesNearest names term plain) : Encodes names term plain := by
  induction encodes with
  | occurrence nearest typed => exact .occurrence nearest.getElem? typed
  | abstraction _ hypothesis => exact .abstraction hypothesis
  | application _ _ functionHypothesis argumentHypothesis =>
    exact .application functionHypothesis argumentHypothesis
  | number value => exact .number value
  | operator operator => exact .operator operator

/-- A term whose variables are resolved, and none of them free, is read as a plain term. -/
theorem Resolved.exists_encodesNearest {context : List (String × SimpleType)} {term : Term}
    (resolved : Resolved context term) (closed : term.isClosedIn (context.map Prod.fst) = true)
    (below : term.isBelow = true) :
    ∃ plain, EncodesNearest (context.map Prod.fst) term plain := by
  induction resolved with
  | free absent =>
    rw [Term.free, Term.isClosedIn, Bool.and_eq_true, beq_iff_eq] at closed
    exact absurd (List.mem_of_getElem? closed.2) absent
  | @bound nearer further name type absent =>
    have nearest : IsNearest (nearer.map Prod.fst ++ name :: further.map Prod.fst) name
        (nearer.map Prod.fst).length := IsNearest.of_append absent
    rw [List.length_map] at nearest
    rw [List.map_append, List.map_cons]
    exact ⟨_, .occurrence nearest type.code_ne_untyped⟩
  | lost name typed reached _ =>
    rw [Term.isBelow, beq_false_of_ne typed, Bool.false_or, decide_eq_true_eq] at below
    exact absurd below (Int.not_lt.2 reached)
  | abstraction _ _ hypothesis =>
    obtain ⟨plain, inside⟩ := hypothesis closed below
    exact ⟨_, .abstraction inside⟩
  | application _ _ functionHypothesis argumentHypothesis =>
    rw [Term.isClosedIn, Bool.and_eq_true] at closed
    rw [Term.isBelow, Bool.and_eq_true] at below
    obtain ⟨_, applied⟩ := functionHypothesis closed.1 below.1
    obtain ⟨_, supplied⟩ := argumentHypothesis closed.2 below.2
    exact ⟨_, .application applied supplied⟩
  | number value => exact ⟨_, .number value⟩
  | operator operator => exact ⟨_, .operator operator⟩

/-! ### Closures -/

namespace PlainTerm

/-- The substitution that gives the nearest variable a term and the others what they had. -/
def extend (argument : PlainTerm) (substitution : Nat → PlainTerm) : Nat → PlainTerm
  | 0 => argument
  | index + 1 => substitution index

/-- A body with a substitution receives an argument by extending the substitution. -/
theorem instantiate_substitute (body argument : PlainTerm) (substitution : Nat → PlainTerm) :
    (body.substitute (liftSubstitution substitution)).instantiate argument =
      body.substitute (extend argument substitution) := by
  rw [instantiate, substitute_substitute]
  congr 1
  funext index
  cases index with
  | zero => rfl
  | succ index => exact instantiate_rename_succ _ _

end PlainTerm

/-- A run that has the same outcome with any depth but none settles on it. -/
theorem settles_of_succ_eq {Outcome : Type} {run : Nat → Outcome} {outcome : Outcome}
    (each : ∀ depth, run (depth + 1) = outcome) : Settles run outcome := by
  refine ⟨1, fun depth enough => ?_⟩
  obtain ⟨less, rfl⟩ := Nat.exists_eq_add_of_le' enough
  exact each less

namespace Closure

/-- A closure stands for a plain term: the one that its term is read as, with what its names stand
for in the place of the variables. -/
inductive StandsFor : Closure → PlainTerm → Prop
  | suspend {names : List (String × Closure)} {term : Term} {plain : PlainTerm}
      {substitution : Nat → PlainTerm} (encodes : EncodesNearest (names.map Prod.fst) term plain)
      (each : ∀ index entry, names[index]? = some entry →
        StandsFor entry.2 (substitution index)) :
      StandsFor (.suspend names term) (plain.substitute substitution)

/-- Names that stand for terms, of which the nearest one is added. -/
theorem standsFor_extend {names : List (String × Closure)} {substitution : Nat → PlainTerm}
    (each : ∀ index entry, names[index]? = some entry → StandsFor entry.2 (substitution index))
    {argument : Closure} {plain : PlainTerm} (stands : StandsFor argument plain) (name : String) :
    ∀ index entry, ((name, argument) :: names)[index]? = some entry →
      StandsFor entry.2 (PlainTerm.extend plain substitution index)
  | 0, entry, found => by
    obtain rfl := Option.some.inj found
    exact stands
  | index + 1, entry, found => each index entry found

/-- A closure whose term is no variable shows the form of the plain term that it stands for. -/
inductive Shows : Closure → PlainTerm → Prop
  | abstraction {names : List (String × Closure)} {name : String} {type : TypeCode} {body : Term}
      {plain : PlainTerm} (receives : ∀ argument plainArgument, StandsFor argument plainArgument →
        StandsFor (.suspend ((name, argument) :: names) body) (plain.instantiate plainArgument)) :
      Shows (.suspend names (.abstraction name type body)) (.abstraction plain)
  | application {names : List (String × Closure)} {function argument : Term}
      {plainFunction plainArgument : PlainTerm}
      (applied : StandsFor (.suspend names function) plainFunction)
      (supplied : StandsFor (.suspend names argument) plainArgument) :
      Shows (.suspend names (.application function argument))
        (.application plainFunction plainArgument)
  | number (names : List (String × Closure)) (value : Float) :
      Shows (.suspend names (Term.number value)) (.number value)
  | operator (names : List (String × Closure)) (operator : Operator) :
      Shows (.suspend names operator.external.term) (.operator operator)

/-- The evaluation of a closure follows that of one which shows its form. -/
theorem StandsFor.exists_shows {closure : Closure} {plain : PlainTerm}
    (stands : StandsFor closure plain) :
    ∃ focus, Shows focus plain ∧ ∀ {arguments : List Closure} {conclusion : Option Conclusion},
      Settles (fun depth => focus.run depth arguments) conclusion →
        Settles (fun depth => closure.run depth arguments) conclusion := by
  induction stands with
  | @suspend names term source substitution encodes each hypothesis =>
    cases encodes with
    | occurrence nearest _ =>
      -- what the name stands for may be a variable again, but of a smaller closure
      obtain ⟨entry, found, looked⟩ := nearest.lookup
      obtain ⟨focus, shows, follows⟩ := hypothesis _ entry found
      refine ⟨focus, shows, fun settles => (follows settles).of_succ 0 fun depth _ => ?_⟩
      rw [Closure.run, looked]
    | @abstraction _ name type body inner inside =>
      refine ⟨_, .abstraction fun argument plainArgument stands => ?_, fun settles => settles⟩
      rw [PlainTerm.instantiate_substitute]
      exact .suspend inside (standsFor_extend each stands name)
    | application applied supplied =>
      exact ⟨_, .application (.suspend applied each) (.suspend supplied each),
        fun settles => settles⟩
    | number value => exact ⟨_, .number names value, fun settles => settles⟩
    | operator operator => exact ⟨_, .operator names operator, fun settles => settles⟩

section Immediate

variable {closure : Closure} {arguments : List Closure} {conclusion : Option Conclusion}

theorem StandsFor.settles_number {value : Float} (stands : StandsFor closure (.number value))
    (runs : ∀ names depth,
      (Closure.suspend names (Term.number value)).run (depth + 1) arguments = conclusion) :
    Settles (fun depth => closure.run depth arguments) conclusion := by
  obtain ⟨focus, shows, follows⟩ := stands.exists_shows
  cases shows with
  | number names => exact follows (settles_of_succ_eq (runs names))

theorem StandsFor.settles_operator {sign : Operator} (stands : StandsFor closure (.operator sign))
    (runs : ∀ names depth,
      (Closure.suspend names sign.external.term).run (depth + 1) arguments = conclusion) :
    Settles (fun depth => closure.run depth arguments) conclusion := by
  obtain ⟨focus, shows, follows⟩ := stands.exists_shows
  cases shows with
  | operator names => exact follows (settles_of_succ_eq (runs names))

end Immediate

/-- An operator with two arguments is evaluated once they are. -/
theorem StandsFor.settles_full {closure left right : Closure} {sign : Operator}
    {first second : Conclusion} (stands : StandsFor closure (.operator sign))
    (leftSettles : Settles (fun depth => left.run depth []) (some first))
    (rightSettles : Settles (fun depth => right.run depth []) (some second)) :
    Settles (fun depth => closure.run depth [left, right]) (some (.combine sign first second)) := by
  obtain ⟨focus, shows, follows⟩ := stands.exists_shows
  cases shows with
  | operator names =>
    obtain ⟨leftBound, leftAll⟩ := leftSettles
    obtain ⟨rightBound, rightAll⟩ := rightSettles
    refine follows ⟨max leftBound rightBound + 1, fun depth enough => ?_⟩
    obtain ⟨less, rfl⟩ := Nat.exists_eq_add_of_le' enough
    have leftRun : left.run (less + max leftBound rightBound) [] = some first :=
      leftAll _ (by omega)
    have rightRun : right.run (less + max leftBound rightBound) [] = some second :=
      rightAll _ (by omega)
    calc Closure.run (less + max leftBound rightBound + 1)
          (.suspend names sign.external.term) [left, right]
      _ = (left.run (less + max leftBound rightBound) []).bind fun first =>
          (right.run (less + max leftBound rightBound) []).bind fun second =>
            some (.combine sign first second) := rfl
      _ = some (.combine sign first second) := by rw [leftRun, rightRun]; rfl

end Closure

/-- The evaluator comes to what the plain term yields that a closure stands for. -/
theorem PlainTerm.Yields.settles {plain : PlainTerm} {plainArguments : List PlainTerm}
    {conclusion : Conclusion} (yields : Yields plain plainArguments conclusion) {closure : Closure}
    {arguments : List Closure} (stands : closure.StandsFor plain)
    (each : List.Forall₂ Closure.StandsFor arguments plainArguments) :
    Settles (fun depth => closure.run depth arguments) (some conclusion) := by
  induction yields generalizing closure arguments with
  | function body =>
    obtain rfl := List.forall₂_nil_right_iff.1 each
    obtain ⟨focus, shows, follows⟩ := stands.exists_shows
    cases shows with
    | abstraction _ => exact follows (settles_of_succ_eq fun _ => rfl)
  | contract _ hypothesis =>
    obtain ⟨argument, rest, supplied, others, rfl⟩ := List.forall₂_cons_right_iff.1 each
    obtain ⟨focus, shows, follows⟩ := stands.exists_shows
    cases shows with
    | abstraction receives =>
      have later := hypothesis (receives argument _ supplied) others
      exact follows (later.of_succ 0 fun _ _ => rfl)
  | application _ hypothesis =>
    obtain ⟨focus, shows, follows⟩ := stands.exists_shows
    cases shows with
    | application applied supplied =>
      have later := hypothesis applied (.cons supplied each)
      exact follows (later.of_succ 0 fun _ _ => rfl)
  | number value =>
    obtain rfl := List.forall₂_nil_right_iff.1 each
    exact stands.settles_number fun _ _ => rfl
  | numberApplied value _ _ =>
    obtain ⟨first, rest, -, -, rfl⟩ := List.forall₂_cons_right_iff.1 each
    exact stands.settles_number fun _ _ => rfl
  | operator sign =>
    obtain rfl := List.forall₂_nil_right_iff.1 each
    exact stands.settles_operator fun _ _ => rfl
  | half sign _ =>
    obtain _ | ⟨-, _ | _⟩ := each
    exact stands.settles_operator fun _ _ => rfl
  | full _ _ leftHypothesis rightHypothesis =>
    obtain _ | ⟨left, _ | ⟨right, _ | _⟩⟩ := each
    exact stands.settles_full (leftHypothesis left .nil) (rightHypothesis right .nil)
  | fullApplied sign _ _ _ _ =>
    obtain _ | ⟨-, _ | ⟨-, _ | ⟨-, -⟩⟩⟩ := each
    exact stands.settles_operator fun _ _ => rfl

end WordArithmetic
