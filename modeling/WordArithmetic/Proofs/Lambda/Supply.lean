/-
This file says which constants a term supplies a function with.

A function receives its arguments one at a time: constants, or variables of abstractions around the
application, which are applied to constants themselves, before or after the function has received
further arguments. Read from the outside, the term tells which constants these are. Every
application lets a constant wait, every abstraction takes the one that has waited shortest, and
those that are left when the function is reached are for the function.

Read from the inside, as the term is reduced, the function holds the arguments that it has received
below the abstractions that are still to be applied. The two readings agree: what is held supplies
what is received, and when nothing waits and nothing is around the term any more, what is held are
the constants.
-/

import WordArithmetic.Proofs.Failure
import WordArithmetic.Proofs.Lambda.Stability

namespace WordArithmetic

/-! ### The constants that a term supplies -/

/-- A constant as a term: an external function that misses nothing. -/
def External.alone (constant : External) : Term :=
  .external constant 0 []

/-- Below binders whose abstractions are applied to constants, nearest first, an argument supplies a
constant: a constant itself, a variable the one to which its abstraction is applied. -/
inductive Term.Supplies (around : List (String × External)) : Term → External → Prop
  | constant (constant : External) : Supplies around constant.alone constant
  | occurrence {name : String} {type : TypeCode} {position : Nat} {constant : External}
      (bound : around[position]? = some (name, constant)) :
      Supplies around (.variable name type (position + 1)) constant

/-- What a function receives from a term around it. Constants wait, to which the term itself is
applied: an application lets one more wait, an abstraction takes the first one, and the function
receives those that are left. -/
inductive External.Receives (function : External) :
    List (String × External) → Term → List External → List External → Prop
  | self {around : List (String × External)} {waiting : List External} :
      Receives function around function.term waiting waiting
  | application {around : List (String × External)} {operator argument : Term}
      {constant : External} {waiting received : List External}
      (supplies : argument.Supplies around constant)
      (receives : Receives function around operator (constant :: waiting) received) :
      Receives function around (.application operator argument) waiting received
  | abstraction {around : List (String × External)} {name : String} {type : TypeCode} {body : Term}
      {constant : External} {waiting received : List External}
      (receives : Receives function ((name, constant) :: around) body waiting received) :
      Receives function around (.abstraction name type body) (constant :: waiting) received

namespace Term

/-- Arguments that supply constants, each below some binders. -/
def AreSupplies (held : List Term) : Prop :=
  ∀ argument ∈ held, ∃ around constant, argument.Supplies around constant

/-- The binders below which the function stands when the term has been reduced, outermost first. -/
def pending : Term → List (String × TypeCode)
  | .application operator _ => operator.pending.tail
  | .abstraction name type body => (name, type) :: body.pending
  | _ => []

/-- The arguments that the function has received when the term has been reduced. -/
def held : Term → List Term
  | .application operator argument =>
    match operator.pending with
    | [] => operator.held ++ [argument]
    | (name, _) :: inner => operator.held.map (substitute (some name) argument (inner.length + 1))
  | .abstraction _ _ body => body.held
  | _ => []

/-! ### Constants and variables -/

/-- Constants and variables are what a function receives. -/
inductive IsAtom : Term → Prop
  | constant (constant : External) : IsAtom constant.alone
  | occurrence (name : String) (type : TypeCode) (index : Int) :
      IsAtom (.variable name type index)

theorem shift_alone (amount depth : Int) (constant : External) :
    constant.alone.shift amount depth = constant.alone := rfl

theorem substitute_alone (name : Option String) (replacement : Term) (depth : Int)
    (constant : External) :
    substitute name replacement depth constant.alone = constant.alone := by
  simp [External.alone, substitute, substituteAll]

theorem substitute_variable_ne {name : Option String} {replacement : Term} {depth : Int}
    {other : String} {type : TypeCode} {index : Int}
    (differs : ¬(name = some other ∧ index = depth)) :
    substitute name replacement depth (.variable other type index) =
      .variable other type (if index > depth then index - 1 else index) := by
  rw [substitute, if_neg differs]
  by_cases beyond : index > depth
  · rw [if_pos (by omega), if_pos beyond]
  · rw [if_neg (by omega), if_neg beyond]

namespace IsAtom

variable {term replacement : Term}

theorem isNormal (atom : term.IsAtom) : term.IsNormal := by
  cases atom with
  | constant constant => exact .external constant 0 nofun
  | occurrence name type index => exact .occurrence name type index

theorem shift (atom : term.IsAtom) (amount depth : Int) : (term.shift amount depth).IsAtom := by
  cases atom with
  | constant constant => exact .constant constant
  | occurrence name type index => exact .occurrence ..

theorem substitute (atom : term.IsAtom) (replaces : replacement.IsAtom) (name : Option String)
    (depth : Int) : (substitute name replacement depth term).IsAtom := by
  cases atom with
  | constant constant =>
    rw [substitute_alone]
    exact .constant constant
  | occurrence other type index =>
    rw [Term.substitute]
    split
    · exact replaces.shift _ _
    · split <;> exact .occurrence ..

end IsAtom

namespace Supplies

variable {around before after : List (String × External)} {term argument : Term}
  {constant value : External}

theorem isAtom (supplies : term.Supplies around constant) : term.IsAtom := by
  cases supplies with
  | constant constant => exact .constant constant
  | occurrence bound => exact .occurrence ..

/-- Below nothing only constants supply constants. -/
theorem eq_alone (supplies : term.Supplies [] constant) : term = constant.alone := by
  cases supplies with
  | constant constant => rfl
  | occurrence bound => cases bound

/-- An argument that is moved below more binders supplies what it has supplied. -/
theorem shift (supplies : term.Supplies after constant)
    (before : List (String × External)) :
    (term.shift before.length 0).Supplies (before ++ after) constant := by
  cases supplies with
  | constant constant => exact .constant constant
  | @occurrence name type position constant bound =>
    have moved : (position : Int) + 1 + before.length =
        ((before.length + position : ℕ) : Int) + 1 := by omega
    rw [Term.shift, if_pos (by omega), moved]
    exact .occurrence (by rw [List.getElem?_append_right (Nat.le_add_right _ _),
      Nat.add_sub_cancel_left, bound])

/-- An argument supplies what it has supplied when one of the abstractions around it is applied. -/
theorem substitute {name : String}
    (supplies : term.Supplies (before ++ (name, constant) :: after) value)
    (supplied : argument.Supplies after constant) :
    (substitute (some name) argument (before.length + 1) term).Supplies (before ++ after)
      value := by
  cases supplies with
  | constant value =>
    rw [substitute_alone]
    exact .constant value
  | @occurrence other type position value bound =>
    rcases Nat.lt_trichotomy position before.length with inner | rfl | outer
    · rw [substitute_variable_ne (by omega), if_neg (by omega)]
      rw [List.getElem?_append_left inner] at bound
      exact .occurrence (by rw [List.getElem?_append_left inner, bound])
    · rw [List.getElem?_append_right (Nat.le_refl _), Nat.sub_self] at bound
      obtain ⟨rfl, rfl⟩ := Prod.mk.inj (Option.some.inj bound)
      rw [Term.substitute, if_pos ⟨rfl, rfl⟩, Int.add_sub_cancel]
      exact supplied.shift before
    · obtain ⟨position, rfl⟩ := Nat.exists_eq_add_of_lt outer
      rw [List.getElem?_append_right (by omega)] at bound
      rw [substitute_variable_ne (by omega), if_pos (by omega)]
      have closer : ((before.length + position + 1 : ℕ) : Int) + 1 - 1 =
          ((before.length + position : ℕ) : Int) + 1 := by omega
      rw [closer]
      refine .occurrence ?_
      have later : before.length + position + 1 - before.length =
          before.length + position - before.length + 1 := by omega
      rw [List.getElem?_append_right (by omega), ← bound, later, List.getElem?_cons_succ]

end Supplies

end Term

/-! ### What is held supplies what is received -/

namespace External.Receives

variable {function : External} {around : List (String × External)} {term : Term}
  {waiting received : List External}

/-- Some of the constants that wait are taken by the abstractions that are pending. Then the
arguments that are held supply the first constants that the function receives, and the others that
wait are the rest. -/
theorem exists_values (receives : function.Receives around term waiting received) :
    ∃ taken rest values, waiting = taken ++ rest ∧ taken.length = term.pending.length ∧
      received = values ++ rest ∧
        List.Forall₂ (Term.Supplies (((term.pending.map Prod.fst).zip taken).reverse ++ around))
          term.held values := by
  induction receives with
  | @self around waiting => exact ⟨[], waiting, [], rfl, rfl, rfl, .nil⟩
  | @application around operator argument constant waiting received supplies receives hypothesis =>
    obtain ⟨taken, rest, values, wait, count, same, each⟩ := hypothesis
    cases bound : operator.pending with
    | nil =>
      rw [bound] at count each
      obtain rfl := List.length_eq_zero_iff.1 count
      obtain rfl : constant :: waiting = rest := wait
      refine ⟨[], waiting, values ++ [constant], rfl, ?_, ?_, ?_⟩
      · rw [Term.pending, bound]
        rfl
      · rw [same, List.append_assoc]
        rfl
      · rw [Term.held, Term.pending, bound]
        exact List.rel_append each (.cons supplies .nil)
    | cons binder inner =>
      obtain ⟨name, type⟩ := binder
      rw [bound] at count each
      obtain ⟨first, taken, rfl⟩ := List.exists_cons_of_length_eq_add_one count
      obtain ⟨rfl, rfl⟩ := List.cons.inj wait
      refine ⟨taken, rest, values, rfl, ?_, same, ?_⟩
      · rw [Term.pending, bound]
        exact Nat.succ.inj count
      · rw [Term.held, Term.pending, bound]
        have depth : (((inner.map Prod.fst).zip taken).reverse).length = inner.length := by
          rw [List.length_reverse, List.length_zip, List.length_map, Nat.succ.inj count,
            Nat.min_self]
        rw [List.forall₂_map_left_iff, ← depth]
        refine each.imp fun argument value held => ?_
        rw [List.map_cons, List.zip_cons_cons, List.reverse_cons, List.append_assoc] at held
        exact held.substitute supplies
  | abstraction receives hypothesis =>
    obtain ⟨taken, rest, values, rfl, count, same, each⟩ := hypothesis
    refine ⟨_ :: taken, rest, values, rfl, congrArg Nat.succ count, same, ?_⟩
    rw [Term.held, Term.pending, List.map_cons, List.zip_cons_cons, List.reverse_cons,
      List.append_assoc]
    exact each

/-- Not more arguments are held than the function receives. -/
theorem length_held_le (receives : function.Receives around term waiting received) :
    term.held.length ≤ received.length := by
  obtain ⟨_, _, values, -, -, rfl, each⟩ := receives.exists_values
  rw [each.length_eq, List.length_append]
  exact Nat.le_add_right _ _

/-- An argument that is held supplies some constant. -/
theorem areSupplies (receives : function.Receives around term waiting received) :
    Term.AreSupplies term.held := by
  obtain ⟨_, _, values, -, -, -, each⟩ := receives.exists_values
  intro argument member
  obtain ⟨constant, -, supplies⟩ := exists_of_forall₂ each.flip argument member
  exact ⟨_, constant, supplies⟩

/-- When no constants wait and nothing is around the term, all that is received is held. -/
theorem held_eq (receives : function.Receives [] term [] received) :
    term.pending = [] ∧ term.held = received.map External.alone := by
  obtain ⟨taken, rest, values, none, count, rfl, each⟩ := receives.exists_values
  obtain ⟨rfl, rfl⟩ := List.append_eq_nil_iff.1 none.symm
  have free := List.length_eq_zero_iff.1 count.symm
  rw [free] at each
  refine ⟨free, ?_⟩
  rw [List.append_nil, ← List.forall₂_eq_eq_eq, List.forall₂_map_right_iff]
  exact each.imp fun argument value supplies => supplies.eq_alone

end External.Receives

end WordArithmetic
