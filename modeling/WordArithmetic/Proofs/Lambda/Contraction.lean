/-
This file shows that an abstraction takes an argument in as textbooks say, by indexes alone.

In a textbook this is one walk over the body. What is put in the place of a variable depends on its
index and on the number of binders that are crossed on the way to it, and on nothing else.
Substitution as it is carried out asks for the name of the binder too, leaves it to every function
whether a binder is one of its own, and puts in a copy, which may bind. None of this makes a
difference in a scoped term: there every variable carries the name of the binder that its index
counts to, and a function that is waiting for more than one argument holds placeholders only, so
that nothing in it is replaced. The placeholders of a function count as binders like any others.
-/

import WordArithmetic.Proofs.Lambda.Encoding
import WordArithmetic.Proofs.Lambda.Holding

namespace WordArithmetic

namespace Term

/-! ### One walk over all variables -/

/-- What is put in the place of a variable, given how many binders are crossed on the way to it and
its name, type and index. -/
abbrev Change := Int → String → TypeCode → Int → Term

mutual

/-- Puts what a change says in the place of every variable of a term that lies below `crossed`
binders. -/
def mapVariables (change : Change) (crossed : Int) : Term → Term
  | .variable name type index => change crossed name type index
  | .abstraction name type body =>
    .abstraction name type (body.mapVariables change (crossed + 1))
  | .application function argument =>
    .application (function.mapVariables change crossed) (argument.mapVariables change crossed)
  | .external function missing arguments =>
    .external function missing (mapVariablesAll change (crossed + missing) arguments)

/-- The same in the arguments of an external function. -/
def mapVariablesAll (change : Change) (crossed : Int) : List Term → List Term
  | [] => []
  | first :: rest => first.mapVariables change crossed :: mapVariablesAll change crossed rest

end

/-- Adds `amount` to an index that points further out than the binders that are crossed. -/
def raising (amount : Int) : Change := fun crossed name type index =>
  .variable name type (if crossed < index then index + amount else index)

/-- Removes the binder next to those that are crossed: the replacement, raised by the binders
crossed, takes the place of its variable, and an index that points further out goes down by one. -/
def removing (replacement : Term) : Change := fun crossed name type index =>
  if index = crossed + 1 then replacement.raise crossed 0
  else if crossed + 1 < index then .variable name type (index - 1)
  else .variable name type index

/-- What a textbook makes of the body of an abstraction that is applied to a term. -/
def contracted (body replacement : Term) : Term :=
  body.mapVariables (removing replacement) 0

/-- A change leaves the variables alone whose binders are crossed. -/
def Change.ActsOutside (change : Change) : Prop :=
  ∀ {crossed : Int} (name : String) (type : TypeCode) {index : Int}, index ≤ crossed →
    change crossed name type index = .variable name type index

theorem actsOutside_raising (amount : Int) : (raising amount).ActsOutside := by
  intro crossed name type index near
  rw [raising, if_neg (by omega)]

theorem actsOutside_removing (replacement : Term) : (removing replacement).ActsOutside := by
  intro crossed name type index near
  rw [removing, if_neg (by omega), if_neg (by omega)]

theorem mapVariablesAll_eq_map (change : Change) (crossed : Int) (terms : List Term) :
    mapVariablesAll change crossed terms = terms.map (mapVariables change crossed) := by
  induction terms with
  | nil => rfl
  | cons first rest hypothesis => rw [mapVariablesAll, hypothesis, List.map_cons]

mutual

/-- Raising is such a walk. -/
theorem raise_eq_mapVariables (amount : Int) :
    ∀ (depth : Int) (term : Term),
      term.raise amount depth = term.mapVariables (raising amount) depth
  | depth, .variable name type index => by
    simp only [raise, mapVariables, raising, gt_iff_lt, Int.sub_pos]
  | depth, .abstraction name type body => by
    rw [raise, mapVariables, raise_eq_mapVariables amount (depth + 1) body]
  | depth, .application function argument => by
    rw [raise, mapVariables, raise_eq_mapVariables amount depth function,
      raise_eq_mapVariables amount depth argument]
  | depth, .external function missing arguments => by
    rw [raise, mapVariables, raiseAll_eq_mapVariablesAll amount (depth + missing) arguments]

theorem raiseAll_eq_mapVariablesAll (amount : Int) :
    ∀ (depth : Int) (terms : List Term),
      raiseAll amount depth terms = mapVariablesAll (raising amount) depth terms
  | _, [] => rfl
  | depth, first :: rest => by
    rw [raiseAll, mapVariablesAll, raise_eq_mapVariables amount depth first,
      raiseAll_eq_mapVariablesAll amount depth rest]

end

/-- Placeholders stay as they are. -/
theorem mapVariablesAll_placeholders {change : Change} (outside : change.ActsOutside)
    {types : List Symbol} {crossed : Int} (beyond : types.length ≤ crossed) :
    mapVariablesAll change crossed (External.placeholders types) =
      External.placeholders types := by
  rw [mapVariablesAll_eq_map]
  refine (List.map_congr_left fun placeholder member => ?_).trans (List.map_id _)
  obtain ⟨type, index, rfl, -, below⟩ := exists_of_mem_placeholders member
  exact outside _ type (Int.le_trans below beyond)

/-- In a function that has received nothing there is nothing to replace, so that it makes no
difference whether it takes a binder around it for one of its own. -/
theorem substitute_waiting (name : String) (replacement : Term) {depth : Int} (low : 0 < depth)
    (function : External) (types : List Symbol) :
    substitute (some name) replacement depth
        (.external function types.length (External.placeholders types)) =
      .external function types.length (External.placeholders types) := by
  rcases Int.lt_or_le depth types.length with own | outer
  · rw [substitute_external_of_lt own, Option.some_or, countP_placeholders _ (by omega),
      map_substitute_placeholders _ _ (by omega), Int.natCast_zero, Int.sub_zero]
  · rw [substitute_external_of_le outer, map_substitute_placeholders _ _ (by omega)]

theorem mem_indexesAll {index : Int} {term : Term} {terms : List Term} (member : term ∈ terms)
    (found : index ∈ term.indexes) : index ∈ indexesAll terms := by
  induction member with
  | head => exact List.mem_append_left _ found
  | tail _ _ hypothesis => exact List.mem_append_right _ hypothesis

end Term

/-! ### Scoped terms -/

/-- A variable below binders with these names, the nearest first, carries the name of the one that
its index counts to. Nothing is asked of a variable that points further out. -/
def Carries (names : List String) (name : String) (index : Int) : Prop :=
  ∀ (place : Nat) (binder : String), names[place]? = some binder → index = place + 1 →
    name = binder

/-- All variables of a term that stands below binders with these names carry the name of the binder
that their index counts to, the placeholders of a function being binders around its arguments. A
function has received nothing, or is waiting for one more argument at most. -/
inductive IsScoped : List String → Term → Prop
  | occurrence {names : List String} {name : String} {index : Int} (type : TypeCode)
      (carries : Carries names name index) : IsScoped names (.variable name type index)
  | abstraction {names : List String} {name : String} {body : Term} (type : TypeCode)
      (inside : IsScoped (name :: names) body) : IsScoped names (.abstraction name type body)
  | application {names : List String} {function argument : Term}
      (applied : IsScoped names function) (supplied : IsScoped names argument) :
      IsScoped names (.application function argument)
  | waiting (names : List String) (function : External) (types : List Symbol) :
      IsScoped names (.external function types.length (External.placeholders types))
  | holding {names : List String} {missing : Nat} {arguments : List Term} (function : External)
      (few : missing ≤ 1) (each : ∀ argument ∈ arguments,
        IsScoped (List.replicate missing placeholderName ++ names) argument) :
      IsScoped names (.external function missing arguments)

namespace Carries

variable {inner outer : List String} {name : String} {index : Int}

theorem nearest (name : String) (names : List String) : Carries (name :: names) name 1 := by
  intro place binder found counted
  obtain rfl : place = 0 := by omega
  exact Option.some.inj found

theorem eq_middle {middle : String} (carries : Carries (inner ++ middle :: outer) name index)
    (here : index = inner.length + 1) : name = middle := by
  refine carries inner.length middle ?_ here
  rw [List.getElem?_append_right (Nat.le_refl _), Nat.sub_self, List.getElem?_cons_zero]

/-- What lies further out than the binder that is counted to does not matter. -/
theorem of_le (carries : Carries (inner ++ outer) name index) (near : index ≤ inner.length)
    (other : List String) : Carries (inner ++ other) name index := by
  intro place binder found counted
  refine carries place binder ?_ counted
  rw [List.getElem?_append_left (by omega)] at found ⊢
  exact found

theorem between (carries : Carries (inner ++ outer) name index) (far : inner.length < index)
    (between : List String) :
    Carries (inner ++ (between ++ outer)) name (index + between.length) := by
  intro place binder found counted
  obtain ⟨earlier, rfl⟩ : ∃ earlier, place = earlier + between.length :=
    ⟨place - between.length, by omega⟩
  rw [getElem?_append_between between (by omega)] at found
  exact carries earlier binder found (by omega)

theorem without {middle : String} (carries : Carries (inner ++ middle :: outer) name index)
    (far : inner.length + 1 < index) : Carries (inner ++ outer) name (index - 1) := by
  intro place binder found counted
  refine carries (place + 1) binder ?_ (by omega)
  rw [← getElem?_append_without middle (by omega)]
  exact found

end Carries

theorem length_replicate_append (missing : Nat) (inner : List String) :
    ((List.replicate missing placeholderName ++ inner).length : Int) = inner.length + missing := by
  rw [List.length_append, List.length_replicate, Int.natCast_add, Int.add_comm]

namespace IsScoped

variable {names outer : List String} {name : String} {body replacement : Term}

/-! ### Constants and operators -/

/-- A constant is scoped, and so is an operator that has received nothing. -/
theorem term (names : List String) (function : External) : IsScoped names function.term :=
  .waiting names function function.argumentTypes

/-- An operator that has received one argument holds it below the placeholder for the other. -/
theorem half (operator : Operator) {first : Term}
    (supplied : IsScoped (placeholderName :: names) first) :
    IsScoped names (.external operator.external 1 [first, lastPlaceholder]) := by
  refine .holding operator.external (Nat.le_refl 1) fun argument member => ?_
  rcases List.mem_pair.1 member with rfl | rfl
  · exact supplied
  · exact .occurrence _ (.nearest placeholderName names)

/-- An operator that has received both arguments holds them below no placeholder. -/
theorem full (operator : Operator) {first second : Term} (left : IsScoped names first)
    (right : IsScoped names second) :
    IsScoped names (.external operator.external 0 [first, second]) := by
  refine .holding operator.external (Nat.zero_le 1) fun argument member => ?_
  rcases List.mem_pair.1 member with rfl | rfl
  · exact left
  · exact right

/-! ### Names stay with their binders -/

section Walks

variable {change : Term.Change} {source target : List String} (outside : change.ActsOutside)
  (kept : ∀ (inner : List String) (name : String) (type : TypeCode) (index : Int),
    Carries (inner ++ source) name index →
      IsScoped (inner ++ target) (change inner.length name type index))

include outside kept

/-- A walk keeps a term scoped if what it puts in the place of a variable is scoped there. -/
theorem mapVariables {term : Term} (fits : IsScoped names term) (inner : List String)
    (split : names = inner ++ source) :
    IsScoped (inner ++ target) (term.mapVariables change inner.length) := by
  induction fits generalizing inner with
  | occurrence type carries =>
    subst split
    exact kept inner _ type _ carries
  | @abstraction names name body type inside hypothesis =>
    have below := hypothesis (name :: inner) (by rw [split]; rfl)
    exact .abstraction type below
  | application _ _ functionHypothesis argumentHypothesis =>
    exact .application (functionHypothesis inner split) (argumentHypothesis inner split)
  | waiting names function types =>
    rw [Term.mapVariables, Term.mapVariablesAll_placeholders outside (by omega)]
    exact .waiting _ function types
  | @holding names missing arguments function few each hypothesis =>
    rw [Term.mapVariables, Term.mapVariablesAll_eq_map]
    refine .holding function few (List.forall_mem_map.2 fun argument member => ?_)
    have below := hypothesis argument member (List.replicate missing placeholderName ++ inner)
      (by rw [split, List.append_assoc])
    rw [length_replicate_append, List.append_assoc] at below
    exact below

end Walks

/-- A term that is put below more binders, and raised by their number, stays scoped. -/
theorem raise {term : Term} (fits : IsScoped outer term) (between : List String) :
    IsScoped (between ++ outer) (term.raise between.length 0) := by
  rw [Term.raise_eq_mapVariables]
  refine fits.mapVariables (Term.actsOutside_raising _)
    (fun inner name type index carries => ?_) [] rfl
  rcases Int.lt_or_le inner.length index with far | near
  · rw [Term.raising, if_pos far]
    exact .occurrence type (carries.between far between)
  · rw [Term.actsOutside_raising _ name type near]
    exact .occurrence type (carries.of_le near _)

/-- A body stays scoped when its binder is removed. -/
theorem contracted (fits : IsScoped (name :: outer) body) (supplied : IsScoped outer replacement) :
    IsScoped outer (body.contracted replacement) := by
  refine fits.mapVariables (Term.actsOutside_removing _)
    (fun inner other type index carries => ?_) [] rfl
  rcases Int.lt_trichotomy index (inner.length + 1) with near | here | far
  · rw [Term.actsOutside_removing _ other type (by omega)]
    exact .occurrence type (carries.of_le (by omega) outer)
  · rw [Term.removing, if_pos here]
    exact supplied.raise inner
  · rw [Term.removing, if_neg (by omega), if_pos far]
    exact .occurrence type (carries.without far)

/-! ### Substitution removes a binder -/

/-- Substitution walks through a scoped term as a textbook does. -/
theorem substitute_eq {term : Term} (fits : IsScoped names term) (inner : List String)
    (split : names = inner ++ name :: outer)
    (absent : freeIndex ∉ (term.mapVariables (Term.removing replacement) inner.length).indexes) :
    Term.substitute (some name) replacement (inner.length + 1) term =
      term.mapVariables (Term.removing replacement) inner.length := by
  induction fits generalizing inner with
  | @occurrence names other index type carries =>
    subst split
    rw [Term.mapVariables, Term.removing] at absent ⊢
    rw [Term.substitute]
    by_cases here : index = inner.length + 1
    · rw [if_pos here] at absent
      rw [if_pos ⟨congrArg some (carries.eq_middle here).symm, here⟩, if_pos here,
        Int.add_sub_cancel, Term.shift_eq_raise _ 0 _ absent]
    · rw [if_neg fun both => here both.2, if_neg here]
      simp only [gt_iff_lt, Int.sub_pos]
  | @abstraction names other body type inside hypothesis =>
    have below := hypothesis (other :: inner) (by rw [split]; rfl) absent
    rw [List.length_cons, Int.natCast_succ] at below
    rw [Term.substitute, Term.mapVariables, below]
  | application _ _ functionHypothesis argumentHypothesis =>
    rw [Term.mapVariables, Term.indexes, List.mem_append, not_or] at absent
    rw [Term.substitute, Term.mapVariables, functionHypothesis inner split absent.1,
      argumentHypothesis inner split absent.2]
  | waiting names function types =>
    rw [Term.substitute_waiting _ _ (by omega), Term.mapVariables,
      Term.mapVariablesAll_placeholders (Term.actsOutside_removing _) (by omega)]
  | @holding names missing arguments function few each hypothesis =>
    rw [Term.mapVariables, Term.indexes, Term.mapVariablesAll_eq_map] at absent
    rw [Term.substitute_external_of_le (by omega), Term.mapVariables, Term.mapVariablesAll_eq_map]
    refine congrArg _ (List.map_congr_left fun argument member => ?_)
    have below := hypothesis argument member (List.replicate missing placeholderName ++ inner)
      (by rw [split, List.append_assoc])
    rw [length_replicate_append] at below
    rw [Int.add_right_comm]
    exact below fun found => absent (Term.mem_indexesAll (List.mem_map_of_mem member) found)

/-- An abstraction takes an argument in as textbooks say: its variable is replaced wherever it
stands, the indexes that point further out go down by one, and the names stay with their binders. A
copy raises exactly the indexes that point out of the term. -/
theorem substitute_own {type : TypeCode} (fits : IsScoped outer (.abstraction name type body))
    (supplied : IsScoped outer replacement)
    (absent : freeIndex ∉ (body.contracted replacement).indexes) :
    Term.substitute (some name) replacement 0 (.abstraction name type body) =
        .abstraction name type (body.contracted replacement) ∧
      IsScoped outer (body.contracted replacement) ∧
      ∀ (amount : Int) (term : Term), freeIndex ∉ (term.raise amount 0).indexes →
        term.shift amount 0 = term.raise amount 0 := by
  cases fits with
  | abstraction _ inside =>
    refine ⟨?_, inside.contracted supplied, fun amount term => ?_⟩
    · have walked := inside.substitute_eq [] rfl absent
      rw [Term.substitute]
      exact congrArg _ walked
    · exact Term.shift_eq_raise amount 0 term

/-- Both uses of `x` are replaced: `y` and the placeholder of the sum are crossed on the way to the
first, and nothing on the way to the second, which is multiplied by a variable bound outside. -/
def doublyUsed : Term :=
  .application
    (.abstraction "y" TypeCode.numberName
      (.external Operator.addition.external 1
        [.variable "x" TypeCode.numberName 3, lastPlaceholder]))
    (.external Operator.multiplication.external 0
      [.variable "x" TypeCode.numberName 1, .variable "z" TypeCode.numberName 2])

theorem substitute_own_doublyUsed :
    IsScoped ["z"] (.abstraction "x" TypeCode.numberName doublyUsed) ∧
      IsScoped ["z"] (.variable "z" TypeCode.numberName 1) ∧
      freeIndex ∉ (doublyUsed.contracted (.variable "z" TypeCode.numberName 1)).indexes ∧
      Term.substitute (some "x") (.variable "z" TypeCode.numberName 1) 0
          (.abstraction "x" TypeCode.numberName doublyUsed) =
        .abstraction "x" TypeCode.numberName
          (.application
            (.abstraction "y" TypeCode.numberName
              (.external Operator.addition.external 1
                [.variable "z" TypeCode.numberName 3, lastPlaceholder]))
            (.external Operator.multiplication.external 0
              [.variable "z" TypeCode.numberName 1, .variable "z" TypeCode.numberName 1])) := by
  have carriesFar : Carries [placeholderName, "y", "x", "z"] "x" 3 := by
    intro place binder found counted
    obtain rfl : place = 2 := by omega
    exact Option.some.inj found
  have carriesOutside : Carries ["x", "z"] "z" 2 := by
    intro place binder found counted
    obtain rfl : place = 1 := by omega
    exact Option.some.inj found
  have summed : IsScoped ["x", "z"] (.abstraction "y" TypeCode.numberName
      (.external Operator.addition.external 1
        [.variable "x" TypeCode.numberName 3, lastPlaceholder])) :=
    .abstraction _ (half .addition (.occurrence _ carriesFar))
  have multiplied : IsScoped ["x", "z"] (.external Operator.multiplication.external 0
      [.variable "x" TypeCode.numberName 1, .variable "z" TypeCode.numberName 2]) :=
    full .multiplication (.occurrence _ (.nearest "x" ["z"])) (.occurrence _ carriesOutside)
  have fits : IsScoped ["z"] (.abstraction "x" TypeCode.numberName doublyUsed) :=
    .abstraction _ (.application summed multiplied)
  have supplied : IsScoped ["z"] (.variable "z" TypeCode.numberName 1) :=
    .occurrence _ (.nearest "z" [])
  have absent :
      freeIndex ∉ (doublyUsed.contracted (.variable "z" TypeCode.numberName 1)).indexes := by
    decide
  exact ⟨fits, supplied, absent, (substitute_own fits supplied absent).1⟩

end IsScoped

end WordArithmetic
