/-
This file holds the configurations of the parser and what actions make of them.

A configuration is a stack, the words that are still to come, and the score of the way that led to
it. An element of the stack knows the label of the action that made it, the position of its head
word and its type, which is all that the search needs; terms are built afterwards. A reduction is
allowed only if the joint element has a type, and a word may not be dropped right after a
reduction, which could as well have come after the dropping.
-/

import WordArithmetic.FeatureVector.Basic
import WordArithmetic.Lexicon.Basic
import WordArithmetic.Search.Action

namespace WordArithmetic

/-- An element of the stack. -/
structure StackElement where
  label : String
  head : Nat
  type : TypeCode
deriving DecidableEq

/-- A configuration: the stack, topmost first, the positions of the words to come, and the
score. -/
structure Configuration (Number : Type) where
  stack : List StackElement
  buffer : List Nat
  score : Number

namespace StackElement

/-- An element of the stack in print. -/
def print (element : StackElement) : String :=
  s!"{element.label}[{element.head}]"

end StackElement

namespace Configuration

variable {Number : Type}

/-- The configuration before the first action on a number of words. -/
def start [Zero Number] (size : Nat) : Configuration Number :=
  ⟨[], List.range size, 0⟩

/-- Carries out an action, allowed or not; the score is that of the new configuration. -/
def execute (words : Array Word) (configuration : Configuration Number) (action : Action)
    (score : Number) : Except Failure (Configuration Number) :=
  match action.move with
  | .shift =>
    match configuration.buffer with
    | [] => .error .outOfRange
    | position :: rest =>
      match words[position]? with
      | none => .error .outOfRange
      | some word => do
        let name := action.macroName.getD ""
        let type ← word.logicalType name
        return ⟨⟨name, position, type⟩ :: configuration.stack, rest, score⟩
  | .drop => .ok ⟨configuration.stack, configuration.buffer.drop 1, score⟩
  | _ =>
    match configuration.stack with
    | upper :: lower :: rest =>
      .ok ⟨⟨action.label, action.head lower.head upper.head,
        action.combineTypes lower.type upper.type⟩ :: rest, configuration.buffer, score⟩
    | _ => .error .outOfRange

/-- Whether a word has a meaning of this name. -/
def hasMeaning (words : Array Word) (position : Nat) (name : Option String) : Bool :=
  match words[position]? with
  | none => false
  | some word => word.meanings.contains (name.getD "")

/-- Whether an action may follow the previous one in a configuration. -/
def allows (words : Array Word) (configuration : Configuration Number) (previous : Option Action)
    (action : Action) : Bool :=
  match action.move with
  | .shift =>
    match configuration.buffer with
    | [] => false
    | position :: _ => hasMeaning words position action.macroName
  | .drop =>
    !configuration.buffer.isEmpty && !(previous.any fun action => action.isReduction)
  | _ =>
    if action.isReduction then
      match configuration.stack with
      | upper :: lower :: _ => action.combineTypes lower.type upper.type != TypeCode.untyped
      | _ => false
    else true

/-- Whether a configuration ends a derivation: no word is left, and the stack holds one number. -/
def isFinal (configuration : Configuration Number) : Bool :=
  configuration.buffer.isEmpty &&
    match configuration.stack with
    | [element] => element.type == TypeCode.number
    | _ => false

/-! ### Features -/

/-- The form of the word at a position. -/
def formAt (words : Array Word) (position : Nat) : String :=
  match words[position]? with
  | some word => word.form
  | none => ""

/-- A tuple of names. -/
def observation (names : List String) : Symbol :=
  .tuple (names.map Symbol.name)

/-- What features see of the stack: labels and head words of its two topmost elements. -/
def stackObservations (words : Array Word) : List StackElement → List Symbol
  | upper :: lower :: _ =>
    [observation ["S", lower.label, upper.label],
     observation ["S", formAt words lower.head, formAt words upper.head]]
  | [only] =>
    [observation ["S", only.label, "#START#"],
     observation ["S", formAt words only.head, "#START#"]]
  | [] => [observation ["S", "#START#"]]

/-- What features see of the words to come: the next two. -/
def bufferObservations (words : Array Word) : List Nat → List Symbol
  | next :: second :: _ => [observation ["B", formAt words next, formAt words second]]
  | [only] => [observation ["B", formAt words only, "#END#"]]
  | [] => [observation ["B", "#END#"]]

/-- What features see of a configuration. -/
def observations (words : Array Word) (configuration : Configuration Number) : List Symbol :=
  [observation ["BIAS"]] ++ stackObservations words configuration.stack ++
    bufferObservations words configuration.buffer

/-! ### Derivations -/

/-- The features of a sequence of configurations with the actions taken in them. -/
def featurize [Zero Number] [One Number] [Add Number] [Mul Number] [BEq Number]
    (words : Array Word) (steps : List (Configuration Number × Action)) : FeatureVector Number :=
  steps.foldl (fun features (configuration, action) =>
    features.add
      (FeatureVector.countConjoined (configuration.observations words) (.name action.label)))
    FeatureVector.zero

/-- Takes one step of a derivation on a stack of terms, topmost first. -/
def buildStep (words : Array Word) (terms : List Term) (configuration : Configuration Number)
    (action : Action) : Except Failure (List Term) :=
  match action.move with
  | .shift =>
    match configuration.buffer.head?.bind (words[·]?) with
    | none => .error .outOfRange
    | some word => do return (← word.logicalForm (action.macroName.getD "")) :: terms
  | _ =>
    if action.isReduction then
      match terms with
      | upper :: lower :: rest => do return (← action.combine lower upper) :: rest
      | _ => .error .outOfRange
    else .ok terms

/-- The term that a derivation builds. -/
def logicalForm (words : Array Word) (steps : List (Configuration Number × Action)) :
    Except Failure Term := do
  let terms ← steps.foldlM (fun terms (configuration, action) =>
    buildStep words terms configuration action) []
  match terms with
  | top :: _ => return top
  | [] => .error .outOfRange

end Configuration

end WordArithmetic
