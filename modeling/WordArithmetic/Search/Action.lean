/-
This file holds the actions of the parser.

An action shifts a word onto the stack with one of its meanings, drops a word, or joins the two
topmost elements of the stack, applying the lower one to the upper one or the other way round. The
label of an action is what features see of it: its mark, with the name of the meaning if it has
one.
-/

import WordArithmetic.Lambda.Term

namespace WordArithmetic

/-- What an action does. A mark without a meaning of its own is kept as it is. -/
inductive Move where
  | drop
  | applyLeft
  | applyRight
  | shift
  | unknown (mark : String)
deriving DecidableEq, Repr

/-- An action: what it does, and the name of the meaning that it shifts. -/
structure Action where
  move : Move
  macroName : Option String
deriving DecidableEq, Repr

namespace Move

/-- The mark of a move. -/
def mark : Move → String
  | drop => "D"
  | applyLeft => ">"
  | applyRight => "<"
  | shift => "S"
  | unknown mark => mark

/-- The move of a mark. -/
def ofMark (mark : String) : Move :=
  match [drop, applyLeft, applyRight, shift].find? fun move => move.mark == mark with
  | some move => move
  | none => unknown mark

end Move

namespace Action

/-- The label of an action. -/
def label (action : Action) : String :=
  match action.macroName with
  | none => action.move.mark
  | some name =>
    if name.isEmpty then action.move.mark else action.move.mark ++ "[" ++ name ++ "]"

/-- Whether an action joins the two topmost elements of the stack. -/
def isReduction (action : Action) : Bool :=
  action.move = .applyLeft || action.move = .applyRight

/-- The term of a reduction. -/
def combine (action : Action) (left right : Term) : Except Failure Term :=
  match action.move with
  | .applyLeft => .ok (.application left right)
  | .applyRight => .ok (.application right left)
  | _ => .error (.noComposition action.label)

/-- The term of a reduction of what two programs have written. -/
def combineWritten (action : Action) (left right : Option Term) : Except Failure Term :=
  action.combine (left.getD Term.missing) (right.getD Term.missing)

/-- The type of a reduction. -/
def combineTypes (action : Action) (left right : TypeCode) : TypeCode :=
  match action.move with
  | .applyLeft => TypeCode.application left right
  | .applyRight => TypeCode.application right left
  | _ => TypeCode.untyped

/-- The head of a reduction, which is the side of the function. -/
def head {Element : Type} (action : Action) (left right : Element) : Element :=
  if action.move = .applyLeft then left else right

/-- The actions of a parser that knows meanings of these names. -/
def all (macros : List String) : List Action :=
  [⟨.drop, none⟩, ⟨.applyLeft, none⟩, ⟨.applyRight, none⟩] ++
    macros.map fun name => ⟨.shift, some name⟩

end Action

end WordArithmetic
