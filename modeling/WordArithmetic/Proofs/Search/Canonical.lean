/-
This file shows that derivations and trees are the same thing.

`IsDerivation.builds` follows a derivation step by step: the trees that it has built so far have
the types of the elements of its stack, and the actions it has taken are exactly those that these
trees ask for. So a derivation is determined by its tree. In the other direction
`ParseTree.exists_derivation` carries out the actions that a well typed tree asks for and finds
each of them allowed.
-/

import WordArithmetic.Proofs.Search.Tree

namespace WordArithmetic

/-! ### What a derivation has built -/

/-- A derivation has built a stack of trees and has come to the word at `position`: the trees are
those read off its steps, they have the types of the elements of the stack, their leaves lie in
increasing order before `position`, and the actions taken are those that the trees ask for. A node
is on top only if the last action was a reduction. -/
structure Builds {Number : Type} (words : Array Word)
    (history : List (Configuration Number × Action)) (configuration : Configuration Number)
    (trees : List ParseTree) (position : Nat) : Prop where
  readOff : history.reverse.foldlM ParseTree.build [] = some trees
  buffer : configuration.buffer = List.range' position (words.size - position)
  inside : position ≤ words.size
  types : List.Forall₂ (fun tree element => tree.type? words = some element.type) trees
    configuration.stack
  increasing : (trees.reverse.flatMap ParseTree.positions).Pairwise (· < ·)
  before : ∀ tree ∈ trees, ∀ place ∈ tree.positions, place < position
  actions : (history.map Prod.snd).reverse = ParseTree.stackActions position trees
  top : ((history.head?.map Prod.snd).any fun action => action.isReduction) = false →
    ParseTree.endsInLeaf trees = true

namespace Builds

variable {Number : Type} {words : Array Word} {history : List (Configuration Number × Action)}
  {configuration next : Configuration Number} {trees : List ParseTree} {position : Nat}
  {score : Number}

theorem start [Zero Number] :
    Builds words ([] : List (Configuration Number × Action)) (.start words.size) [] 0 where
  readOff := rfl
  buffer := by rw [Configuration.start, List.range_eq_range', Nat.sub_zero]
  inside := Nat.zero_le _
  types := List.Forall₂.nil
  increasing := List.Pairwise.nil
  before := nofun
  actions := rfl
  top := fun _ => rfl

/-- The word that is next is the one at the position that the derivation has come to. -/
theorem front {place : Nat} {rest : List Nat} (built : Builds words history configuration trees
    position) (front : configuration.buffer = place :: rest) :
    place = position ∧ position < words.size ∧
      rest = List.range' (position + 1) (words.size - (position + 1)) := by
  have equal := built.buffer
  rw [front] at equal
  cases count : words.size - position with
  | zero => rw [count] at equal; cases equal
  | succ less =>
    rw [count, List.range'_succ] at equal
    obtain ⟨rfl, rfl⟩ := List.cons.inj equal
    have remaining : less = words.size - (place + 1) := by omega
    exact ⟨rfl, by omega, by rw [remaining]⟩

/-- Shifting the next word puts a leaf on the stack of trees. -/
theorem shift (built : Builds words history configuration trees position) {name : String}
    {rest : List Nat} {word : Word} {type : TypeCode}
    (front : configuration.buffer = position :: rest) (found : words[position]? = some word)
    (known : word.meanings.contains name = true) (typed : word.logicalType name = .ok type) :
    Builds words ((configuration, .shiftWord name) :: history)
      ⟨⟨name, position, type⟩ :: configuration.stack, rest, score⟩
      (.leaf position name :: trees) (position + 1) where
  readOff := by
    rw [List.reverse_cons, List.foldlM_append, built.readOff]
    exact congrArg (· >>= pure) (ParseTree.build_shift trees name front)
  buffer := (built.front front).2.2
  inside := (built.front front).2.1
  types := List.Forall₂.cons (ParseTree.type?_leaf found known typed) built.types
  increasing := by
    rw [List.reverse_cons, List.flatMap_append]
    refine List.pairwise_append.2 ⟨built.increasing, List.pairwise_singleton _ _, ?_⟩
    intro earlier earlierMember later laterMember
    obtain ⟨tree, treeMember, inTree⟩ := List.mem_flatMap.1 earlierMember
    obtain rfl : later = position := by simpa [ParseTree.positions] using laterMember
    exact built.before tree (List.mem_reverse.1 treeMember) earlier inTree
  before := by
    intro tree member place inTree
    rcases List.mem_cons.1 member with rfl | older
    · obtain rfl : place = position := by simpa [ParseTree.positions] using inTree
      exact Nat.lt_succ_self _
    · exact Nat.lt_succ_of_lt (built.before tree older place inTree)
  actions := by
    rw [List.map_cons, List.reverse_cons, built.actions, ParseTree.stackActions_leaf]
  top := fun _ => rfl

/-- Dropping the next word after a step that was no reduction leaves the trees as they are. -/
theorem drop (built : Builds words history configuration trees position) {rest : List Nat}
    (front : configuration.buffer = position :: rest)
    (free : ((history.head?.map Prod.snd).any fun action => action.isReduction) = false) :
    Builds words ((configuration, .dropWord) :: history) ⟨configuration.stack, rest, score⟩ trees
      (position + 1) where
  readOff := by
    rw [List.reverse_cons, List.foldlM_append, built.readOff]
    exact congrArg (· >>= pure) (ParseTree.build_drop trees configuration)
  buffer := (built.front front).2.2
  inside := (built.front front).2.1
  types := built.types
  increasing := built.increasing
  before := fun tree member place inTree =>
    Nat.lt_succ_of_lt (built.before tree member place inTree)
  actions := by
    rw [List.map_cons, List.reverse_cons, built.actions,
      ParseTree.stackActions_succ (built.top free) built.before]
  top := fun _ => built.top free

/-- A reduction joins the two topmost trees. -/
theorem reduce (built : Builds words history configuration trees position) (direction : Direction)
    {upper lower : StackElement} {rest : List StackElement}
    (top : configuration.stack = upper :: lower :: rest)
    (fits : direction.join lower.type upper.type ≠ TypeCode.untyped) {label : String}
    {head : Nat} :
    ∃ joined, Builds words ((configuration, direction.action) :: history)
      ⟨⟨label, head, direction.join lower.type upper.type⟩ :: rest, configuration.buffer, score⟩
      joined position := by
  have types := built.types
  rw [top] at types
  obtain ⟨right, others, rightTyped, typesBelow, rfl⟩ := List.forall₂_cons_right_iff.1 types
  obtain ⟨left, below, leftTyped, typesRest, rfl⟩ := List.forall₂_cons_right_iff.1 typesBelow
  refine ⟨.node direction left right :: below, ?_, built.buffer, built.inside,
    List.Forall₂.cons (ParseTree.type?_node direction leftTyped rightTyped fits) typesRest,
    ?_, ?_, ?_, ?_⟩
  · rw [List.reverse_cons, List.foldlM_append, built.readOff]
    exact congrArg (· >>= pure)
      (ParseTree.build_reduction right left below configuration direction)
  · have increasing := built.increasing
    simp only [List.reverse_cons, List.flatMap_append, List.flatMap_cons, List.flatMap_nil,
      List.append_nil, List.append_assoc, ParseTree.positions] at increasing ⊢
    exact increasing
  · intro tree member place inTree
    rcases List.mem_cons.1 member with rfl | older
    · rcases List.mem_append.1 inTree with inLeft | inRight
      · exact built.before left (List.mem_cons_of_mem _ List.mem_cons_self) place inLeft
      · exact built.before right List.mem_cons_self place inRight
    · exact built.before tree (List.mem_cons_of_mem _ (List.mem_cons_of_mem _ older)) place inTree
  · rw [List.map_cons, List.reverse_cons, built.actions, ParseTree.stackActions_node]
  · intro free
    rw [List.head?_cons, Option.map_some, Option.any_some, Direction.isReduction_action] at free
    cases free

end Builds

section Derivations

variable {Number : Type} [Zero Number] {macros : List String} {words : Array Word}
  {history : List (Configuration Number × Action)} {configuration : Configuration Number}

/-- Every derivation has built some stack of trees. -/
theorem IsDerivation.builds
    (derivation : IsDerivation (Action.all macros) words history configuration) :
    ∃ trees position, Builds words history configuration trees position := by
  induction derivation with
  | start => exact ⟨[], 0, Builds.start⟩
  | @step history configuration next action score earlier member allowed executed hypothesis =>
    obtain ⟨trees, position, built⟩ := hypothesis
    rcases Configuration.step_cases member allowed executed with
      ⟨name, place, rest, word, type, rfl, front, found, known, typed, rfl⟩ |
      ⟨place, rest, rfl, front, free, rfl⟩ |
      ⟨direction, upper, lower, rest, rfl, top, fits, rfl⟩
    · obtain ⟨rfl, _⟩ := built.front front
      exact ⟨_, _, built.shift front found known typed⟩
    · obtain ⟨rfl, _⟩ := built.front front
      exact ⟨_, _, built.drop front free⟩
    · obtain ⟨joined, builtJoined⟩ := built.reduce direction top fits
      exact ⟨joined, position, builtJoined⟩

/-- A derivation that ends with one number has built a tree that parses the question, and has
taken the actions that this tree asks for. -/
theorem IsDerivation.exists_tree
    (derivation : IsDerivation (Action.all macros) words history configuration)
    (final : configuration.isFinal = true) :
    ∃ tree : ParseTree, ParseTree.ofSteps? history.reverse = some tree ∧ tree.IsParse words ∧
      (history.map Prod.snd).reverse = ParseTree.stackActions words.size [tree] := by
  obtain ⟨trees, position, built⟩ := derivation.builds
  obtain ⟨element, only, empty, number⟩ : ∃ element, configuration.stack = [element] ∧
      configuration.buffer = [] ∧ element.type = TypeCode.number := by
    unfold Configuration.isFinal at final
    split at final
    · rename_i element only
      simp only [Bool.and_eq_true, List.isEmpty_iff, beq_iff_eq] at final
      exact ⟨element, only, final.1, final.2⟩
    · simp at final
  have passed : position = words.size := by
    have length := congrArg List.length built.buffer
    rw [empty, List.length_nil, List.length_range'] at length
    have inside := built.inside
    omega
  have types := built.types
  rw [only] at types
  obtain ⟨tree, rest, typed, typesRest, rfl⟩ := List.forall₂_cons_right_iff.1 types
  obtain rfl := List.forall₂_nil_right_iff.1 typesRest
  refine ⟨tree, ?_, ⟨?_, number ▸ typed⟩, passed ▸ built.actions⟩
  · simp only [ParseTree.ofSteps?, built.readOff]
  · simpa using built.increasing

/-! ### Carrying out the actions of a tree -/

/-- Words can be dropped one after the other as long as the last step was no reduction. -/
theorem IsDerivation.exists_drops
    (derivation : IsDerivation (Action.all macros) words history configuration) {position : Nat}
    (buffer : configuration.buffer = List.range' position (words.size - position))
    (free : ((history.head?.map Prod.snd).any fun action => action.isReduction) = false)
    (count : Nat) (enough : position + count ≤ words.size) :
    ∃ (longer : List (Configuration Number × Action)) (reached : Configuration Number),
      IsDerivation (Action.all macros) words longer reached ∧
        (longer.map Prod.snd).reverse =
          (history.map Prod.snd).reverse ++ List.replicate count .dropWord ∧
        reached.stack = configuration.stack ∧
        reached.buffer = List.range' (position + count) (words.size - (position + count)) := by
  induction count generalizing history configuration position with
  | zero => exact ⟨history, configuration, derivation, by simp, rfl, buffer⟩
  | succ count hypothesis =>
    have remaining : words.size - position = (words.size - (position + 1)) + 1 := by omega
    rw [remaining, List.range'_succ] at buffer
    have allowed : configuration.allows words (history.head?.map Prod.snd) .dropWord = true :=
      Configuration.allows_drop.2 ⟨by rw [buffer]; exact List.cons_ne_nil _ _, free⟩
    have dropped := derivation.step ((Action.mem_all macros _).2 (Or.inl rfl)) allowed
      (Configuration.execute_drop 0 buffer)
    obtain ⟨longer, reached, derived, actions, stack, rest⟩ :=
      hypothesis dropped rfl rfl (by omega)
    refine ⟨longer, reached, derived, ?_, stack, ?_⟩
    · rw [actions, List.map_cons, List.reverse_cons, List.append_assoc, List.replicate_succ,
        List.singleton_append]
    · rw [rest]
      congr 1 <;> omega

/-- The leaves of a typed tree are words. -/
theorem ParseTree.lt_size_of_mem_positions {type : TypeCode} {tree : ParseTree}
    (typed : tree.type? words = some type) {place : Nat} (member : place ∈ tree.positions) :
    place < words.size := by
  induction tree generalizing type with
  | leaf position name =>
    obtain ⟨word, found, _⟩ := type?_leaf_eq_some typed
    obtain rfl : place = position := by simpa [positions] using member
    exact (Array.getElem?_eq_some_iff.1 found).1
  | node direction left right leftHypothesis rightHypothesis =>
    obtain ⟨lower, upper, leftTyped, rightTyped, _⟩ := type?_node_eq_some typed
    rcases List.mem_append.1 member with inLeft | inRight
    · exact leftHypothesis leftTyped inLeft
    · exact rightHypothesis rightTyped inRight

/-- From a configuration whose next word is the leftmost one of a typed tree, the actions of the
tree can be carried out, and they leave an element of its type on the stack. -/
theorem ParseTree.exists_derivation
    (known : ∀ word ∈ words, ∀ name, word.meanings.contains name = true → name ∈ macros)
    {tree : ParseTree} {stop : Nat} {type : TypeCode}
    (derivation : IsDerivation (Action.all macros) words history configuration)
    (buffer : configuration.buffer = List.range' tree.first (words.size - tree.first))
    (increasing : tree.positions.Pairwise (· < ·))
    (before : ∀ place ∈ tree.positions, place < stop) (inside : stop ≤ words.size)
    (typed : tree.type? words = some type) :
    ∃ (longer : List (Configuration Number × Action)) (reached : Configuration Number)
      (label : String) (head : Nat), IsDerivation (Action.all macros) words longer reached ∧
        (longer.map Prod.snd).reverse =
          (history.map Prod.snd).reverse ++ tree.actionsUntil stop ∧
        reached.stack = ⟨label, head, type⟩ :: configuration.stack ∧
        reached.buffer = List.range' stop (words.size - stop) := by
  induction tree generalizing stop type history configuration with
  | leaf position name =>
    obtain ⟨word, found, has, logical⟩ := type?_leaf_eq_some typed
    have passed : position < stop := before position List.mem_cons_self
    have remaining : words.size - position = (words.size - (position + 1)) + 1 := by omega
    rw [first, remaining, List.range'_succ] at buffer
    have member : Action.shiftWord name ∈ Action.all macros :=
      (Action.mem_all macros _).2
        (Or.inr (Or.inr ⟨name, known word (Array.mem_of_getElem? found) name has, rfl⟩))
    have executed := Configuration.execute_shift (0 : Number) name buffer found
    rw [logical] at executed
    have shifted := derivation.step member
      ((Configuration.allows_shift name).2 ⟨position, _, word, buffer, found, has⟩) executed
    obtain ⟨longer, reached, derived, actions, stack, rest⟩ :=
      shifted.exists_drops rfl rfl (stop - position - 1) (by omega)
    refine ⟨longer, reached, name, position, derived, ?_, stack, ?_⟩
    · rw [actions, List.map_cons, List.reverse_cons, List.append_assoc, List.singleton_append,
        actionsUntil]
    · rw [rest]
      congr 1 <;> omega
  | node direction left right leftHypothesis rightHypothesis =>
    obtain ⟨lower, upper, leftTyped, rightTyped, fits, rfl⟩ := type?_node_eq_some typed
    obtain ⟨leftIncreasing, rightIncreasing, apart⟩ := List.pairwise_append.1 increasing
    have rightFirst : right.first < stop := before _ (List.mem_append_right _ right.first_mem)
    obtain ⟨middle, between, _, _, derived, leftActions, leftStack, leftBuffer⟩ :=
      leftHypothesis derivation buffer leftIncreasing
        (fun place inLeft => apart place inLeft _ right.first_mem) (by omega) leftTyped
    obtain ⟨longer, reached, label, head, derivedBoth, rightActions, rightStack, rightBuffer⟩ :=
      rightHypothesis derived leftBuffer rightIncreasing
        (fun place inRight => before place (List.mem_append_right _ inRight)) inside rightTyped
    rw [leftStack] at rightStack
    have joined := derivedBoth.step
      ((Action.mem_all macros _).2 (Or.inr (Or.inl ⟨direction, rfl⟩)))
      ((Configuration.allows_reduction direction).2 ⟨_, _, _, rightStack, fits⟩)
      (Configuration.execute_reduction 0 direction rightStack)
    refine ⟨_, _, _, _, joined, ?_, rfl, rightBuffer⟩
    rw [List.map_cons, List.reverse_cons, rightActions, leftActions, actionsUntil]
    simp only [List.append_assoc]

/-- Every tree that parses the question is built by a derivation that ends with one number. -/
theorem ParseTree.IsParse.exists_derivation
    (known : ∀ word ∈ words, ∀ name, word.meanings.contains name = true → name ∈ macros)
    {tree : ParseTree} (parse : tree.IsParse words) :
    ∃ (history : List (Configuration Number × Action)) (configuration : Configuration Number),
      IsDerivation (Action.all macros) words history configuration ∧
        configuration.isFinal = true ∧
        (history.map Prod.snd).reverse = stackActions words.size [tree] := by
  have beginning : IsDerivation (Action.all macros) words []
      (.start words.size : Configuration Number) := IsDerivation.start
  have whole : (.start words.size : Configuration Number).buffer =
      List.range' 0 (words.size - 0) := by
    rw [Configuration.start, List.range_eq_range', Nat.sub_zero]
  have reach := lt_size_of_mem_positions parse.isNumber tree.first_mem
  obtain ⟨skipped, before, derived, skips, emptyStack, buffer⟩ :=
    beginning.exists_drops whole rfl tree.first (by omega)
  rw [Nat.zero_add] at buffer
  obtain ⟨history, reached, label, head, derivation, actions, stack, rest⟩ :=
    ParseTree.exists_derivation known derived buffer parse.increasing
      (fun _ member => lt_size_of_mem_positions parse.isNumber member) (Nat.le_refl _) parse.isNumber
  refine ⟨history, reached, derivation, ?_, ?_⟩
  · rw [Nat.sub_self, List.range'_zero] at rest
    have alone : reached.stack = [⟨label, head, TypeCode.number⟩] := by
      rw [stack, emptyStack]
      rfl
    simp [Configuration.isFinal, rest, alone]
  · rw [actions, skips]
    rfl

end Derivations

end WordArithmetic
