/-
This file holds the values that a term can denote and that an answer can be.

Values are compared as keys of the groups of a forest: truth values count as the numbers zero and
one, numbers are equal when they are the same point of the line, whatever their kind, and tuples and
lists are compared part by part. An undefined number is no point of the line and equals itself only,
so here it matters which one it is. An undefined number that stands in several places is given by
the object that it is. An undefined float, as a computation gives it, is an object of its own that
stands nowhere else, so it equals nothing that it is compared with. A list or a record is no key,
and neither is a tuple with one inside.
-/

import WordArithmetic.Number.Reading

namespace WordArithmetic

/-- A value of a term or an answer. -/
inductive Value where
  | absent
  | truth (value : Bool)
  | integer (value : Int)
  | float (value : Float)
  /-- The undefined number that is this object, wherever it stands. -/
  | undefined (object : Nat)
  | text (value : String)
  | tuple (parts : List Value)
  | list (parts : List Value)
  | record (fields : List (String × Value))
deriving Inhabited

namespace Value

/-! ### Printing -/

mutual

/-- A value as it stands inside another one. -/
def quotedText : Value → String
  | .absent => "None"
  | .truth value => if value then "True" else "False"
  | .integer value => toString value
  | .float value => floatText value
  | .undefined _ => floatText undefinedNumber
  | .text value => Text.quoted value
  | .tuple [part] => "(" ++ part.quotedText ++ ",)"
  | .tuple parts => "(" ++ String.intercalate ", " (quotedTexts parts) ++ ")"
  | .list parts => "[" ++ String.intercalate ", " (quotedTexts parts) ++ "]"
  | .record fields => "\x7b" ++ String.intercalate ", " (fieldTexts fields) ++ "\x7d"

/-- The parts of a value as they stand inside it. -/
def quotedTexts : List Value → List String
  | [] => []
  | first :: rest => first.quotedText :: quotedTexts rest

/-- The fields of a record, each with its name. -/
def fieldTexts : List (String × Value) → List String
  | [] => []
  | (name, first) :: rest => (Text.quoted name ++ ": " ++ first.quotedText) :: fieldTexts rest

end

/-- A value as it stands alone: a text without quotes. -/
def print : Value → String
  | .text value => value
  | value => value.quotedText

/-! ### Values as numbers -/

/-- The point of the line that a number or a truth value stands for. -/
def number? : Value → Option ExtendedRat
  | .truth value => some (.finite (if value then 1 else 0))
  | .integer value => some (.finite value)
  | .float value => some (.ofFloat value)
  | .undefined _ => some .undefined
  | _ => none

/-- The float that a value stands for. Texts are read as decimals. -/
def toFloat : Value → Except Failure Float
  | .truth value => .ok (if value then 1.0 else 0.0)
  | .integer value => integerToFloat value
  | .float value => .ok value
  | .undefined _ => .ok undefinedNumber
  | .text value => readDecimal value
  | _ => .error .notNumeric

/-! ### Values as keys -/

mutual

/-- Equality of values as keys. -/
def same : (left right : Value) → Bool
  | .absent, .absent => true
  | .undefined left, .undefined right => left == right
  | .text left, .text right => left == right
  | .tuple left, .tuple right => sameAll left right
  | .list left, .list right => sameAll left right
  | left, right =>
    match left.number?, right.number? with
    | some left, some right => left.same right
    | _, _ => false

/-- Equality of the parts of two values. -/
def sameAll : (left right : List Value) → Bool
  | [], [] => true
  | first :: left, second :: right => first.same second && sameAll left right
  | _, _ => false

end

mutual

/-- The kind of the first part, itself included, that keeps a value from being a key. -/
def unhashable? : Value → Option String
  | .list _ => some "list"
  | .record _ => some "dict"
  | .tuple parts => unhashableAll? parts
  | _ => none

/-- The first obstacle among the parts of a tuple. -/
def unhashableAll? : List Value → Option String
  | [] => none
  | first :: rest => first.unhashable?.or (unhashableAll? rest)

end

/-! ### Tests on values -/

/-- Whether a value is one of a list. -/
def isAmong (value : Value) (choices : List Value) : Bool :=
  choices.any fun choice => value.same choice

/-- Whether a value is a number below a bound. Values that are no numbers cannot be compared. -/
def isBelow (value : Value) (bound : ExtendedRat) : Except Failure Bool :=
  match value.number? with
  | some number => .ok (number.below bound)
  | none => .error .notOrdered

end Value

end WordArithmetic
