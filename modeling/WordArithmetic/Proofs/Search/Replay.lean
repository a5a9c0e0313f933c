/-
This file shows that terms can be built after the search, from the steps of a derivation alone.

The search keeps types and heads on its stack, and terms are built later by going through the steps
once more. `Replays` says how far the two agree: the terms have the types of the elements of the
stack, and the head of an element is a word of its tree. Every step keeps this. Only a meaning
without term would break it, and such a meaning has no type: no reduction takes it in, so it would
still be on the stack when the derivation ends, where there is nothing but a number. A derivation
that ends with one number is therefore replayed without a failure, and the terms agree with the
stack at each of its steps.
-/

import Mathlib.Data.List.Induction
import WordArithmetic.Proofs.Lambda.Written
import WordArithmetic.Proofs.Search.Canonical
import WordArithmetic.Proofs.Table

namespace WordArithmetic

/-! ### Types of joint elements -/

namespace Direction

/-- The term of a joint element. -/
def apply : Direction → Term → Term → Term
  | forward, lower, upper => .application lower upper
  | backward, lower, upper => .application upper lower

/-- A joint element with a type has parts with types. -/
theorem join_untyped {direction : Direction} {lower upper : TypeCode}
    (typed : direction.join lower upper ≠ TypeCode.untyped) :
    lower ≠ TypeCode.untyped ∧ upper ≠ TypeCode.untyped := by
  refine ⟨fun absent => typed ?_, fun absent => typed ?_⟩
  · rw [absent]
    cases direction with
    | forward => exact SimpleType.application_untyped_left upper
    | backward => exact SimpleType.application_untyped_right upper
  · rw [absent]
    cases direction with
    | forward => exact SimpleType.application_untyped_right lower
    | backward => exact SimpleType.application_untyped_left lower

/-- The term of a joint element has the type of the joint element. -/
theorem typecheck_apply (direction : Direction) {lower upper : Term} {left right : TypeCode}
    (lowerTyped : lower.typecheck = .ok left) (upperTyped : upper.typecheck = .ok right) :
    (direction.apply lower upper).typecheck = .ok (direction.join left right) := by
  cases direction with
  | forward =>
    rw [apply, Term.typecheck, lowerTyped, upperTyped]
    rfl
  | backward =>
    rw [apply, Term.typecheck, lowerTyped, upperTyped]
    rfl

theorem written_apply (direction : Direction) {lower upper : Term} (lowerWritten : lower.Written)
    (upperWritten : upper.Written) : (direction.apply lower upper).Written := by
  cases direction with
  | forward => exact Term.Written.application lowerWritten upperWritten
  | backward => exact Term.Written.application upperWritten lowerWritten

/-- The head of a joint element is one of the heads of its parts. -/
theorem head_mem (direction : Direction) {lower upper : Nat} {left right : List Nat}
    (lowerMember : lower ∈ left) (upperMember : upper ∈ right) :
    direction.action.head lower upper ∈ left ++ right := by
  cases direction with
  | forward => exact List.mem_append_left _ lowerMember
  | backward => exact List.mem_append_right _ upperMember

end Direction

/-- The term of a tree: a leaf has that of its meaning, if there is one, and a node applies the
term of one part to that of the other. -/
def ParseTree.term? (words : Array Word) : ParseTree → Option Term
  | leaf position name => (words[position]?).bind fun word => (word.meanings.get? name).join
  | node direction left right =>
    (left.term? words).bind fun lower => (right.term? words).map fun upper =>
      direction.apply lower upper

theorem ParseTree.term?_leaf {words : Array Word} {position : Nat} {name : String} {word : Word}
    {term : Term} (found : words[position]? = some word)
    (meaning : word.meanings.get? name = some (some term)) :
    (leaf position name).term? words = some term := by
  rw [term?, found, Option.bind_some, meaning, Option.join_some]

theorem ParseTree.term?_node {words : Array Word} {left right : ParseTree} {lower upper : Term}
    (direction : Direction) (leftTerm : left.term? words = some lower)
    (rightTerm : right.term? words = some upper) :
    (node direction left right).term? words = some (direction.apply lower upper) := by
  rw [term?, leftTerm, rightTerm, Option.bind_some, Option.map_some]

/-! ### One step of the replay -/

namespace Configuration

variable {Number : Type} {words : Array Word} {configuration : Configuration Number}

theorem buildStep_shift (terms : List Term) (name : String) {position : Nat} {rest : List Nat}
    {word : Word} {term : Term} (front : configuration.buffer = position :: rest)
    (found : words[position]? = some word) (meaning : word.meanings.get? name = some (some term)) :
    buildStep words terms configuration (.shiftWord name) = .ok (term.copy :: terms) := by
  simp only [buildStep, Action.shiftWord, front, List.head?_cons, Option.bind_some, found,
    Option.getD_some, Word.logicalForm, meaning]
  rfl

theorem buildStep_drop (terms : List Term) :
    buildStep words terms configuration .dropWord = .ok terms := rfl

theorem buildStep_reduction (upper lower : Term) (rest : List Term) (direction : Direction) :
    buildStep words (upper :: lower :: rest) configuration direction.action =
      .ok (direction.apply lower upper :: rest) := by
  cases direction with
  | forward => rfl
  | backward => rfl

end Configuration

/-- The terms that a sequence of steps builds, topmost first. -/
def replayTerms {Number : Type} (words : Array Word)
    (steps : List (Configuration Number × Action)) : Except Failure (List Term) :=
  steps.foldlM (fun terms (configuration, action) =>
    Configuration.buildStep words terms configuration action) []

/-- The replay of a sequence of steps agrees with the configuration that they lead to: it succeeds,
each of the terms is written, is that of the tree that the same steps have built, and has the type
of its element of the stack, and the head of each element is the position of a word that was shifted
for it. -/
structure Replays {Number : Type} (words : Array Word)
    (steps : List (Configuration Number × Action)) (configuration : Configuration Number)
    (terms : List Term) (trees : List ParseTree) : Prop where
  built : replayTerms words steps = .ok terms
  readOff : steps.foldlM ParseTree.build [] = some trees
  written : ∀ term ∈ terms, term.Written
  meanings : List.Forall₂ (fun tree term => tree.term? words = some term) trees terms
  types : List.Forall₂ (fun term element => term.typecheck = .ok element.type) terms
    configuration.stack
  heads : List.Forall₂ (fun tree element => element.head ∈ tree.positions) trees
    configuration.stack

namespace Replays

variable {Number : Type} {words : Array Word} {steps : List (Configuration Number × Action)}
  {configuration : Configuration Number} {terms : List Term} {trees : List ParseTree}

theorem start [Zero Number] :
    Replays words ([] : List (Configuration Number × Action)) (.start words.size) [] [] where
  built := rfl
  readOff := rfl
  written := List.forall_mem_nil _
  meanings := List.Forall₂.nil
  types := List.Forall₂.nil
  heads := List.Forall₂.nil

/-- One more step of the replay. -/
theorem replayTerms_append {step : Configuration Number × Action} {next : List Term}
    (built : replayTerms words steps = .ok terms)
    (stepped : Configuration.buildStep words terms step.1 step.2 = .ok next) :
    replayTerms words (steps ++ [step]) = .ok next := by
  rw [replayTerms] at built ⊢
  rw [List.foldlM_append, built]
  show Configuration.buildStep words terms step.1 step.2 >>= pure = .ok next
  rw [stepped]
  rfl

theorem readOff_append {step : Configuration Number × Action} {next : List ParseTree}
    (readOff : steps.foldlM ParseTree.build [] = some trees)
    (stepped : ParseTree.build trees step = some next) :
    (steps ++ [step]).foldlM ParseTree.build [] = some next := by
  rw [List.foldlM_append, readOff]
  show ParseTree.build trees step >>= pure = some next
  rw [stepped]
  rfl

/-- A shift of a meaning with a type puts its term on the stack of terms. -/
theorem shift (replays : Replays words steps configuration terms trees) {name : String}
    {position : Nat} {rest : List Nat} {word : Word} {term : Term} {type : TypeCode}
    {score : Number} (front : configuration.buffer = position :: rest)
    (found : words[position]? = some word) (meaning : word.meanings.get? name = some (some term))
    (written : term.Written) (typed : term.typecheck = .ok type) :
    Replays words (steps ++ [(configuration, .shiftWord name)])
      ⟨⟨name, position, type⟩ :: configuration.stack, rest, score⟩ (term :: terms)
      (.leaf position name :: trees) where
  built := by
    have stepped := Configuration.buildStep_shift terms name front found meaning
    rw [written.copy] at stepped
    exact replayTerms_append replays.built stepped
  readOff := readOff_append replays.readOff (ParseTree.build_shift trees name front)
  written := List.forall_mem_cons.2 ⟨written, replays.written⟩
  meanings := List.Forall₂.cons (ParseTree.term?_leaf found meaning) replays.meanings
  types := List.Forall₂.cons typed replays.types
  heads := List.Forall₂.cons List.mem_cons_self replays.heads

/-- Dropping a word changes neither the terms nor the stack. -/
theorem drop (replays : Replays words steps configuration terms trees) (rest : List Nat)
    (score : Number) :
    Replays words (steps ++ [(configuration, .dropWord)]) ⟨configuration.stack, rest, score⟩ terms
      trees where
  built := replayTerms_append replays.built (Configuration.buildStep_drop terms)
  readOff := readOff_append replays.readOff (ParseTree.build_drop trees configuration)
  written := replays.written
  meanings := replays.meanings
  types := replays.types
  heads := replays.heads

/-- A reduction finds two terms to join. -/
theorem reduce (replays : Replays words steps configuration terms trees) (direction : Direction)
    {upper lower : StackElement} {rest : List StackElement}
    (top : configuration.stack = upper :: lower :: rest) (label : String) (score : Number) :
    ∃ joined joinedTrees, Replays words (steps ++ [(configuration, direction.action)])
      ⟨⟨label, direction.action.head lower.head upper.head,
        direction.join lower.type upper.type⟩ :: rest, configuration.buffer, score⟩
      joined joinedTrees := by
  obtain ⟨built, readOff, written, meanings, types, heads⟩ := replays
  rw [top] at types heads
  obtain ⟨upperTerm, others, upperTyped, otherTypes, rfl⟩ := List.forall₂_cons_right_iff.1 types
  obtain ⟨lowerTerm, restTerms, lowerTyped, restTypes, rfl⟩ :=
    List.forall₂_cons_right_iff.1 otherTypes
  obtain ⟨upperTree, otherTrees, upperHead, otherHeads, rfl⟩ :=
    List.forall₂_cons_right_iff.1 heads
  obtain ⟨lowerTree, restTrees, lowerHead, restHeads, rfl⟩ :=
    List.forall₂_cons_right_iff.1 otherHeads
  obtain ⟨upperMeaning, otherMeanings⟩ := List.forall₂_cons.1 meanings
  obtain ⟨lowerMeaning, restMeanings⟩ := List.forall₂_cons.1 otherMeanings
  obtain ⟨upperWritten, otherWritten⟩ := List.forall_mem_cons.1 written
  obtain ⟨lowerWritten, restWritten⟩ := List.forall_mem_cons.1 otherWritten
  refine ⟨direction.apply lowerTerm upperTerm :: restTerms,
    .node direction lowerTree upperTree :: restTrees, ?_, ?_, ?_, ?_, ?_, ?_⟩
  · exact replayTerms_append built
      (Configuration.buildStep_reduction upperTerm lowerTerm restTerms direction)
  · exact readOff_append readOff
      (ParseTree.build_reduction upperTree lowerTree restTrees configuration direction)
  · exact List.forall_mem_cons.2
      ⟨direction.written_apply lowerWritten upperWritten, restWritten⟩
  · exact List.Forall₂.cons (ParseTree.term?_node direction lowerMeaning upperMeaning) restMeanings
  · exact List.Forall₂.cons (direction.typecheck_apply lowerTyped upperTyped) restTypes
  · exact List.Forall₂.cons (direction.head_mem lowerHead upperHead) restHeads

end Replays

/-! ### All steps of a derivation -/

section Derivation

variable {Number : Type} {macros : List String} {words : Array Word}
  {configuration next last : Configuration Number}

/-- No element of the stack is without type. -/
def Configuration.IsTyped (configuration : Configuration Number) : Prop :=
  ∀ element ∈ configuration.stack, element.type ≠ TypeCode.untyped

/-- What has types after a step had types before it. -/
theorem Configuration.IsTyped.before {previous : Option Action} {action : Action} {score : Number}
    (member : action ∈ Action.all macros)
    (allowed : configuration.allows words previous action = true)
    (executed : configuration.execute words action score = .ok next) (typed : next.IsTyped) :
    configuration.IsTyped := by
  rcases step_cases member allowed executed with
    ⟨name, position, rest, word, type, rfl, _, _, _, _, rfl⟩ | ⟨position, rest, rfl, _, _, rfl⟩ |
      ⟨direction, upper, lower, rest, rfl, top, fits, rfl⟩
  · exact (List.forall_mem_cons.1 typed).2
  · exact typed
  · obtain ⟨lowerTyped, upperTyped⟩ := Direction.join_untyped fits
    rw [IsTyped, top]
    exact List.forall_mem_cons.2
      ⟨upperTyped, List.forall_mem_cons.2 ⟨lowerTyped, (List.forall_mem_cons.1 typed).2⟩⟩

/-- Where a derivation ends there is a number and nothing else. -/
theorem Configuration.exists_only_of_isFinal (final : configuration.isFinal = true) :
    ∃ element, configuration.stack = [element] ∧ element.type = TypeCode.number := by
  rw [isFinal, Bool.and_eq_true] at final
  obtain ⟨_, number⟩ := final
  split at number
  · rename_i element only
    exact ⟨element, only, beq_iff_eq.1 number⟩
  · cases number

/-- All terms of a sequence of words are written. -/
def HaveWrittenTerms (words : Array Word) : Prop :=
  ∀ word ∈ words, ∀ name term, word.meanings.get? name = some (some term) → term.Written

variable [Zero Number]

/-- A derivation without anything untyped at its end is replayed in agreement with its stack. -/
theorem IsDerivation.replays (written : HaveWrittenTerms words)
    {history : List (Configuration Number × Action)}
    (derivation : IsDerivation (Action.all macros) words history configuration)
    (typed : configuration.IsTyped) :
    ∃ terms trees, Replays words history.reverse configuration terms trees := by
  induction derivation with
  | start => exact ⟨[], [], Replays.start⟩
  | @step history configuration next action score _ member allowed executed hypothesis =>
    obtain ⟨terms, trees, replays⟩ := hypothesis (typed.before member allowed executed)
    rw [List.reverse_cons]
    rcases Configuration.step_cases member allowed executed with
      ⟨name, position, rest, word, type, rfl, front, found, has, logical, rfl⟩ |
        ⟨position, rest, rfl, _, _, rfl⟩ | ⟨direction, upper, lower, rest, rfl, top, _, rfl⟩
    · have some : type ≠ TypeCode.untyped := typed _ List.mem_cons_self
      obtain ⟨meaning, known⟩ := Table.contains_iff.1 has
      rw [Word.logicalType, known] at logical
      cases meaning with
      | none => exact absurd (Except.ok.inj logical).symm some
      | some term =>
        exact ⟨_, _, replays.shift front found known
          (written word (Array.mem_of_getElem? found) name term known) logical⟩
    · exact ⟨_, _, replays.drop rest score⟩
    · exact replays.reduce direction top _ score

/-- The configuration that the later steps of a derivation start from. -/
def configurationBefore (later : List (Configuration Number × Action))
    (last : Configuration Number) : Configuration Number :=
  (later.head?.map Prod.fst).getD last

/-- A derivation passes through every configuration that its steps have recorded, and if nothing is
without type at its end, nothing is there. -/
theorem IsDerivation.passes {earlier later : List (Configuration Number × Action)}
    (derivation : IsDerivation (Action.all macros) words (earlier ++ later).reverse last)
    (typed : last.IsTyped) :
    IsDerivation (Action.all macros) words earlier.reverse (configurationBefore later last) ∧
      (configurationBefore later last).IsTyped := by
  induction later using List.reverseRecOn generalizing last with
  | nil =>
    rw [List.append_nil] at derivation
    exact ⟨derivation, typed⟩
  | append_singleton later step hypothesis =>
    obtain ⟨before, action⟩ := step
    rw [← List.append_assoc, List.reverse_append, List.reverse_singleton,
      List.singleton_append] at derivation
    cases derivation with
    | step earlierDerivation member allowed executed =>
      have passed := hypothesis earlierDerivation (typed.before member allowed executed)
      have same : configurationBefore (later ++ [(before, action)]) last =
          configurationBefore later before := by
        cases later with
        | nil => rfl
        | cons first rest => rfl
      rw [same]
      exact passed

end Derivation

end WordArithmetic
