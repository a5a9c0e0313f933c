/-
This file says what a sequence of steps of the parser is, and takes its single steps apart.

A derivation starts before the first word and carries out actions of a list, each of which is
allowed where it is taken. Steps are listed latest first, as cells keep them. Every step does one
of three things, and `IsDerivation.step_cases` says everything about each: the later arguments
about derivations never open the transition system again.

Scores play no part in any of this. Two derivations that take the same actions have the same stack
and the same words to come, whatever they scored on the way.
-/

import Mathlib.Data.List.Nodup
import WordArithmetic.Search.Beam

namespace WordArithmetic

/-- The two ways of joining the topmost elements of the stack: the lower one is applied to the
upper one, or the upper one to the lower one. -/
inductive Direction where
  | forward
  | backward
deriving DecidableEq, Repr

namespace Direction

/-- The reduction that joins in a direction. -/
def action : Direction → Action
  | forward => ⟨.applyLeft, none⟩
  | backward => ⟨.applyRight, none⟩

/-- The type of the joint element. -/
def join (direction : Direction) (lower upper : TypeCode) : TypeCode :=
  direction.action.combineTypes lower upper

theorem isReduction_action (direction : Direction) : direction.action.isReduction = true := by
  cases direction <;> rfl

end Direction

namespace Action

/-- The action that drops a word. -/
def dropWord : Action := ⟨.drop, none⟩

/-- The action that shifts a word with one of its meanings. -/
def shiftWord (name : String) : Action := ⟨.shift, some name⟩

/-- The actions of a parser are the dropping, the two reductions and a shift for every name. -/
theorem mem_all (macros : List String) (action : Action) :
    action ∈ all macros ↔ action = dropWord ∨ (∃ direction : Direction, action = direction.action) ∨
      ∃ name ∈ macros, action = shiftWord name := by
  constructor
  · intro member
    simp only [all, List.cons_append, List.nil_append, List.mem_cons, List.mem_map] at member
    rcases member with rfl | rfl | rfl | ⟨name, known, rfl⟩
    · exact Or.inl rfl
    · exact Or.inr (Or.inl ⟨.forward, rfl⟩)
    · exact Or.inr (Or.inl ⟨.backward, rfl⟩)
    · exact Or.inr (Or.inr ⟨name, known, rfl⟩)
  · rintro (rfl | ⟨direction, rfl⟩ | ⟨name, known, rfl⟩)
    · exact List.mem_cons_self
    · cases direction
      · exact List.mem_cons_of_mem _ List.mem_cons_self
      · exact List.mem_cons_of_mem _ (List.mem_cons_of_mem _ List.mem_cons_self)
    · exact List.mem_append_right _ (List.mem_map_of_mem known)

/-- Distinct names make distinct actions. -/
theorem nodup_all {macros : List String} (distinct : macros.Nodup) : (all macros).Nodup := by
  refine List.nodup_append.2 ⟨by decide, ?_, ?_⟩
  · exact distinct.map fun left right equal => by simpa using equal
  · intro fixed fixedMember shifted shiftedMember equal
    obtain ⟨name, _, rfl⟩ := List.mem_map.1 shiftedMember
    subst equal
    simp at fixedMember

end Action

/-- A sequence of steps, latest first, that leads from the first configuration to this one. Every
action belongs to the list and is allowed after the step before it. -/
inductive IsDerivation {Number : Type} [Zero Number] (actions : List Action)
    (words : Array Word) : List (Configuration Number × Action) → Configuration Number → Prop
  | start : IsDerivation actions words [] (.start words.size)
  | step {history : List (Configuration Number × Action)}
      {configuration next : Configuration Number} {action : Action} {score : Number}
      (earlier : IsDerivation actions words history configuration)
      (member : action ∈ actions)
      (allowed : configuration.allows words (history.head?.map Prod.snd) action = true)
      (executed : configuration.execute words action score = .ok next) :
      IsDerivation actions words ((configuration, action) :: history) next

namespace Configuration

variable {Number : Type} {words : Array Word} {configuration : Configuration Number}
  {previous : Option Action} {score : Number}

/-! ### What is allowed -/

/-- A shift is allowed if a word is to come and has the meaning. -/
theorem allows_shift (name : String) :
    configuration.allows words previous (.shiftWord name) = true ↔
      ∃ position rest word, configuration.buffer = position :: rest ∧
        words[position]? = some word ∧ word.meanings.contains name = true := by
  unfold allows
  simp only [Action.shiftWord]
  cases configuration.buffer with
  | nil => simp
  | cons position rest =>
    cases found : words[position]? with
    | none => simp [hasMeaning, found]
    | some word => simp [hasMeaning, found]

/-- Dropping is allowed if a word is to come and the step before was no reduction. -/
theorem allows_drop :
    configuration.allows words previous .dropWord = true ↔
      configuration.buffer ≠ [] ∧ (previous.any fun action => action.isReduction) = false := by
  unfold allows
  simp only [Action.dropWord]
  cases configuration.buffer <;> simp

/-- A reduction is allowed if there are two elements and their joint has a type. -/
theorem allows_reduction (direction : Direction) :
    configuration.allows words previous direction.action = true ↔
      ∃ upper lower rest, configuration.stack = upper :: lower :: rest ∧
        direction.join lower.type upper.type ≠ TypeCode.untyped := by
  rcases whole : configuration.stack with _ | ⟨upper, _ | ⟨lower, rest⟩⟩
  · cases direction <;> simp [allows, Direction.action, Action.isReduction, whole]
  · cases direction <;> simp [allows, Direction.action, Action.isReduction, whole]
  · have opened : configuration.allows words previous direction.action =
        (direction.join lower.type upper.type != TypeCode.untyped) := by
      unfold allows
      rw [whole]
      cases direction <;> rfl
    rw [opened, bne_iff_ne]
    constructor
    · exact fun typed => ⟨upper, lower, rest, rfl, typed⟩
    · rintro ⟨_, _, _, equal, typed⟩
      cases equal
      exact typed

/-! ### What is carried out -/

theorem execute_shift (score : Number) (name : String) {position : Nat} {rest : List Nat}
    {word : Word} (front : configuration.buffer = position :: rest)
    (found : words[position]? = some word) :
    configuration.execute words (.shiftWord name) score =
      (word.logicalType name).map fun type =>
        ⟨⟨name, position, type⟩ :: configuration.stack, rest, score⟩ := by
  simp only [execute, Action.shiftWord, front, found, Option.getD_some]
  cases word.logicalType name <;> rfl

theorem execute_drop (score : Number) {position : Nat} {rest : List Nat}
    (front : configuration.buffer = position :: rest) :
    configuration.execute words .dropWord score = .ok ⟨configuration.stack, rest, score⟩ := by
  simp only [execute, Action.dropWord, front, List.drop_succ_cons, List.drop_zero]

theorem execute_reduction (score : Number) (direction : Direction) {upper lower : StackElement}
    {rest : List StackElement} (top : configuration.stack = upper :: lower :: rest) :
    configuration.execute words direction.action score =
      .ok ⟨⟨direction.action.label, direction.action.head lower.head upper.head,
        direction.join lower.type upper.type⟩ :: rest, configuration.buffer, score⟩ := by
  cases direction <;> simp only [execute, Direction.action, Direction.join, top]

/-- Every step of a parser shifts a word with one of its meanings, drops a word after a step that
was no reduction, or joins two elements whose joint has a type. -/
theorem step_cases {macros : List String} {action : Action} {next : Configuration Number}
    (member : action ∈ Action.all macros)
    (allowed : configuration.allows words previous action = true)
    (executed : configuration.execute words action score = .ok next) :
    (∃ name position rest word type, action = .shiftWord name ∧
        configuration.buffer = position :: rest ∧ words[position]? = some word ∧
        word.meanings.contains name = true ∧ word.logicalType name = .ok type ∧
        next = ⟨⟨name, position, type⟩ :: configuration.stack, rest, score⟩) ∨
      (∃ position rest, action = .dropWord ∧ configuration.buffer = position :: rest ∧
        (previous.any fun action => action.isReduction) = false ∧
        next = ⟨configuration.stack, rest, score⟩) ∨
      ∃ direction : Direction, ∃ upper lower rest, action = direction.action ∧
        configuration.stack = upper :: lower :: rest ∧
        direction.join lower.type upper.type ≠ TypeCode.untyped ∧
        next = ⟨⟨direction.action.label, direction.action.head lower.head upper.head,
          direction.join lower.type upper.type⟩ :: rest, configuration.buffer, score⟩ := by
  rcases (Action.mem_all macros action).1 member with rfl | ⟨direction, rfl⟩ | ⟨name, _, rfl⟩
  · obtain ⟨filled, free⟩ := allows_drop.1 allowed
    obtain ⟨position, rest, front⟩ := List.exists_cons_of_ne_nil filled
    rw [execute_drop _ front] at executed
    exact Or.inr (Or.inl ⟨position, rest, rfl, front, free, (Except.ok.inj executed).symm⟩)
  · obtain ⟨upper, lower, rest, top, typed⟩ := (allows_reduction direction).1 allowed
    rw [execute_reduction _ direction top] at executed
    exact Or.inr (Or.inr
      ⟨direction, upper, lower, rest, rfl, top, typed, (Except.ok.inj executed).symm⟩)
  · obtain ⟨position, rest, word, front, found, known⟩ := (allows_shift name).1 allowed
    rw [execute_shift _ _ front found] at executed
    cases typed : word.logicalType name with
    | error failure => rw [typed] at executed; cases executed
    | ok type =>
      rw [typed] at executed
      exact Or.inl
        ⟨name, position, rest, word, type, rfl, front, found, known, typed,
          (Except.ok.inj executed).symm⟩

end Configuration

end WordArithmetic
