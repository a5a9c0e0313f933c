/-
This file defines the trees that derivations build, and the one sequence of actions that builds
each of them.

A tree is read off the shifts and the reductions of a derivation; the words that are dropped leave
no trace in it. All the same a derivation can be found again from its tree. The order of the
shifts and reductions is that in which the tree lists its nodes behind their parts, and a word
cannot be dropped right after a reduction, so every word that is passed over has to be dropped
before the reductions that follow the last shift. `ParseTree.actionsUntil` writes this sequence
down.
-/

import WordArithmetic.Proofs.Search.Derivation

namespace WordArithmetic

/-- A tree over the words of a question: a leaf is a word with one of its meanings, a node joins
two trees in a direction. -/
inductive ParseTree where
  | leaf (position : Nat) (name : String)
  | node (direction : Direction) (left right : ParseTree)
deriving DecidableEq

namespace ParseTree

/-- The positions of the leaves, from left to right. -/
def positions : ParseTree → List Nat
  | leaf position _ => [position]
  | node _ left right => left.positions ++ right.positions

/-- The position of the leftmost leaf. -/
def first : ParseTree → Nat
  | leaf position _ => position
  | node _ left _ => left.first

/-- The type of a tree. A leaf has that of its meaning, if the word has this meaning, and a node
the one that its parts leave when they are joined, if they fit. -/
def type? (words : Array Word) : ParseTree → Option TypeCode
  | leaf position name =>
    (words[position]?).bind fun word =>
      if word.meanings.contains name then (word.logicalType name).toOption else none
  | node direction left right =>
    match left.type? words, right.type? words with
    | some lower, some upper =>
      if direction.join lower upper = TypeCode.untyped then none
      else some (direction.join lower upper)
    | _, _ => none

/-- A tree that parses a question: its leaves are words in increasing order with meanings of
theirs, its nodes fit, and it is a number. -/
structure IsParse (words : Array Word) (tree : ParseTree) : Prop where
  increasing : tree.positions.Pairwise (· < ·)
  isNumber : tree.type? words = some TypeCode.number

/-! ### Reading trees off -/

variable {Number : Type}

/-- What a step makes of a stack of trees, topmost first. A shift puts a leaf on it and a reduction
joins the two topmost trees. -/
def build (trees : List ParseTree) (step : Configuration Number × Action) :
    Option (List ParseTree) :=
  match step.2.move, trees with
  | .shift, trees =>
    step.1.buffer.head?.map fun position => leaf position (step.2.macroName.getD "") :: trees
  | .applyLeft, upper :: lower :: rest => some (node .forward lower upper :: rest)
  | .applyRight, upper :: lower :: rest => some (node .backward lower upper :: rest)
  | .drop, trees => some trees
  | _, _ => none

/-- The tree that is read off a sequence of steps, in the order in which they were taken. -/
def ofSteps? (steps : List (Configuration Number × Action)) : Option ParseTree :=
  match steps.foldlM build [] with
  | some [tree] => some tree
  | _ => none

/-! ### The sequence of actions of a tree -/

/-- The actions that build a tree, from its leftmost word on and up to the word at `stop`. The words
that are passed over are dropped as soon as they are next. -/
def actionsUntil (stop : Nat) : ParseTree → List Action
  | leaf position name => .shiftWord name :: List.replicate (stop - position - 1) .dropWord
  | node direction left right =>
    left.actionsUntil right.first ++ right.actionsUntil stop ++ [direction.action]

/-- The actions that build a stack of trees, topmost first, from the first word on and up to the
word at `stop`. -/
def stackActions (stop : Nat) : List ParseTree → List Action
  | [] => List.replicate stop .dropWord
  | tree :: below => stackActions tree.first below ++ tree.actionsUntil stop

/-- Whether the topmost tree of a stack, if any, is a leaf. -/
def endsInLeaf : List ParseTree → Bool
  | node .. :: _ => false
  | _ => true

theorem first_mem (tree : ParseTree) : tree.first ∈ tree.positions := by
  induction tree with
  | leaf position name => exact List.mem_cons_self
  | node direction left right inductionLeft _ => exact List.mem_append_left _ inductionLeft

/-- Joining the two topmost trees adds the reduction at the end. -/
theorem stackActions_node (stop : Nat) (direction : Direction) (upper lower : ParseTree)
    (below : List ParseTree) :
    stackActions stop (node direction lower upper :: below) =
      stackActions stop (upper :: lower :: below) ++ [direction.action] := by
  simp only [stackActions, actionsUntil, first, List.append_assoc]

/-- Shifting the next word adds the shift at the end. -/
theorem stackActions_leaf (position : Nat) (name : String) (below : List ParseTree) :
    stackActions (position + 1) (leaf position name :: below) =
      stackActions position below ++ [.shiftWord name] := by
  have none : position + 1 - position - 1 = 0 := by omega
  simp only [stackActions, actionsUntil, first, none, List.replicate_zero]

/-- Dropping the next word adds the dropping at the end, unless the topmost tree is a node. -/
theorem stackActions_succ {stop : Nat} {trees : List ParseTree} (top : endsInLeaf trees = true)
    (before : ∀ tree ∈ trees, ∀ position ∈ tree.positions, position < stop) :
    stackActions (stop + 1) trees = stackActions stop trees ++ [.dropWord] := by
  match trees with
  | [] => exact List.replicate_succ'
  | leaf position name :: below =>
    have passed : position < stop := before _ List.mem_cons_self _ List.mem_cons_self
    have count : stop + 1 - position - 1 = (stop - position - 1) + 1 := by omega
    simp only [stackActions, actionsUntil, count, List.replicate_succ', List.append_assoc,
      List.cons_append]
  | node .. :: below => exact absurd top (by simp [endsInLeaf])

theorem build_shift (trees : List ParseTree) {configuration : Configuration Number}
    {position : Nat} {rest : List Nat} (name : String)
    (front : configuration.buffer = position :: rest) :
    build trees (configuration, .shiftWord name) = some (leaf position name :: trees) := by
  simp only [build, Action.shiftWord, front, List.head?_cons, Option.map_some, Option.getD_some]

theorem build_drop (trees : List ParseTree) (configuration : Configuration Number) :
    build trees (configuration, .dropWord) = some trees := by
  cases trees <;> rfl

theorem build_reduction (upper lower : ParseTree) (rest : List ParseTree)
    (configuration : Configuration Number) (direction : Direction) :
    build (upper :: lower :: rest) (configuration, direction.action) =
      some (node direction lower upper :: rest) := by
  cases direction <;> rfl

theorem type?_leaf {words : Array Word} {position : Nat} {name : String} {word : Word}
    {type : TypeCode} (found : words[position]? = some word)
    (known : word.meanings.contains name = true) (typed : word.logicalType name = .ok type) :
    (leaf position name).type? words = some type := by
  simp only [type?, found, Option.bind_some, known, if_true, typed, Except.toOption]

theorem type?_leaf_eq_some {words : Array Word} {position : Nat} {name : String} {type : TypeCode}
    (typed : (leaf position name).type? words = some type) :
    ∃ word, words[position]? = some word ∧ word.meanings.contains name = true ∧
      word.logicalType name = .ok type := by
  simp only [type?, Option.bind_eq_some_iff] at typed
  obtain ⟨word, found, typed⟩ := typed
  split at typed
  · rename_i known
    refine ⟨word, found, known, ?_⟩
    cases result : word.logicalType name with
    | error failure => rw [result] at typed; cases typed
    | ok other => rw [result] at typed; exact congrArg _ (Option.some.inj typed)
  · cases typed

theorem type?_node {words : Array Word} {left right : ParseTree} {lower upper : TypeCode}
    (direction : Direction) (leftTyped : left.type? words = some lower)
    (rightTyped : right.type? words = some upper)
    (fits : direction.join lower upper ≠ TypeCode.untyped) :
    (node direction left right).type? words = some (direction.join lower upper) := by
  simp only [type?, leftTyped, rightTyped, if_neg fits]

theorem type?_node_eq_some {words : Array Word} {direction : Direction} {left right : ParseTree}
    {type : TypeCode} (typed : (node direction left right).type? words = some type) :
    ∃ lower upper, left.type? words = some lower ∧ right.type? words = some upper ∧
      direction.join lower upper ≠ TypeCode.untyped ∧ type = direction.join lower upper := by
  rw [type?] at typed
  split at typed
  · rename_i lower upper leftTyped rightTyped
    split at typed
    · cases typed
    · rename_i fits
      exact ⟨lower, upper, leftTyped, rightTyped, fits, (Option.some.inj typed).symm⟩
  · cases typed

/-! ### Finding the tree again -/

/-- What an action makes of the next position and a stack of trees. -/
def replay : Nat × List ParseTree → Action → Option (Nat × List ParseTree)
  | (position, trees), action =>
    match action.move, trees with
    | .shift, trees => some (position + 1, leaf position (action.macroName.getD "") :: trees)
    | .drop, trees => some (position + 1, trees)
    | .applyLeft, upper :: lower :: rest => some (position, node .forward lower upper :: rest)
    | .applyRight, upper :: lower :: rest => some (position, node .backward lower upper :: rest)
    | _, _ => none

theorem replay_drops (position : Nat) (trees : List ParseTree) (count : Nat) :
    (List.replicate count Action.dropWord).foldlM replay (position, trees) =
      some (position + count, trees) := by
  induction count generalizing position with
  | zero => rfl
  | succ count hypothesis =>
    have step : replay (position, trees) .dropWord = some (position + 1, trees) := by
      cases trees <;> rfl
    rw [List.replicate_succ, List.foldlM_cons, step, Option.bind_eq_bind, Option.bind_some,
      hypothesis, Nat.add_assoc, Nat.add_comm 1]

theorem replay_reduction (position : Nat) (upper lower : ParseTree) (rest : List ParseTree)
    (direction : Direction) :
    replay (position, upper :: lower :: rest) direction.action =
      some (position, node direction lower upper :: rest) := by
  cases direction <;> rfl

/-- The actions of a tree put this tree on the stack. -/
theorem replay_actionsUntil {tree : ParseTree} {stop : Nat} (trees : List ParseTree)
    (increasing : tree.positions.Pairwise (· < ·)) (before : ∀ place ∈ tree.positions, place < stop) :
    (tree.actionsUntil stop).foldlM replay (tree.first, trees) = some (stop, tree :: trees) := by
  induction tree generalizing stop trees with
  | leaf position name =>
    have passed : position < stop := before position List.mem_cons_self
    have step : replay (position, trees) (.shiftWord name) =
        some (position + 1, leaf position name :: trees) := by
      cases trees <;> rfl
    have rest : position + 1 + (stop - position - 1) = stop := by omega
    rw [actionsUntil, first, List.foldlM_cons, step, Option.bind_eq_bind, Option.bind_some,
      replay_drops, rest]
  | node direction left right leftHypothesis rightHypothesis =>
    obtain ⟨leftIncreasing, rightIncreasing, apart⟩ := List.pairwise_append.1 increasing
    have leftReplay := leftHypothesis trees leftIncreasing
      fun place inLeft => apart place inLeft _ right.first_mem
    have rightReplay := rightHypothesis (left :: trees) rightIncreasing
      fun place inRight => before place (List.mem_append_right _ inRight)
    rw [actionsUntil, first, List.foldlM_append, List.foldlM_append, leftReplay,
      Option.bind_eq_bind, Option.bind_some, rightReplay, Option.bind_some, List.foldlM_cons,
      replay_reduction]
    rfl

/-- Trees with increasing positions are told apart by their actions. -/
theorem eq_of_stackActions_eq {left right : ParseTree} {stop : Nat}
    (leftIncreasing : left.positions.Pairwise (· < ·))
    (rightIncreasing : right.positions.Pairwise (· < ·))
    (leftBefore : ∀ place ∈ left.positions, place < stop)
    (rightBefore : ∀ place ∈ right.positions, place < stop)
    (same : stackActions stop [left] = stackActions stop [right]) : left = right := by
  have readOff : ∀ tree : ParseTree, tree.positions.Pairwise (· < ·) →
      (∀ place ∈ tree.positions, place < stop) →
      (stackActions stop [tree]).foldlM replay (0, []) = some (stop, [tree]) := by
    intro tree increasing before
    rw [stackActions, stackActions, List.foldlM_append, replay_drops, Option.bind_eq_bind,
      Option.bind_some, Nat.zero_add, replay_actionsUntil [] increasing before]
  have equal := readOff left leftIncreasing leftBefore
  rw [same, readOff right rightIncreasing rightBefore] at equal
  simpa using equal.symm

end ParseTree

end WordArithmetic
