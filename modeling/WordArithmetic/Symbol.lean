/-
This file holds symbols: names, and tuples of symbols.

Both the keys of feature vectors and the types of terms are symbols. A name alone is printed as it
is; inside a tuple names are quoted, and a tuple of one part keeps a comma so that it differs from
its part.
-/

import WordArithmetic.Text.Quoted

namespace WordArithmetic

/-- A name, or a tuple of symbols. -/
inductive Symbol where
  | name (text : String)
  | tuple (parts : List Symbol)
deriving Repr, Inhabited

namespace Symbol

mutual

/-- Equality of symbols is decided part by part. -/
def decEq : (left right : Symbol) → Decidable (left = right)
  | .name left, .name right =>
    if same : left = right then isTrue (same ▸ rfl)
    else isFalse fun equal => same (by injection equal)
  | .name _, .tuple _ => isFalse nofun
  | .tuple _, .name _ => isFalse nofun
  | .tuple left, .tuple right =>
    match decEqAll left right with
    | isTrue same => isTrue (same ▸ rfl)
    | isFalse different => isFalse fun equal => different (by injection equal)

/-- Equality of lists of symbols. -/
def decEqAll : (left right : List Symbol) → Decidable (left = right)
  | [], [] => isTrue rfl
  | [], _ :: _ => isFalse nofun
  | _ :: _, [] => isFalse nofun
  | first :: left, second :: right =>
    match decEq first second with
    | isFalse different => isFalse fun equal => different (by injection equal)
    | isTrue same =>
      match decEqAll left right with
      | isTrue rest => isTrue (same ▸ rest ▸ rfl)
      | isFalse different => isFalse fun equal => different (by injection equal)

end

instance : DecidableEq Symbol := decEq

mutual

/-- The hash of a symbol. -/
def hashCode : Symbol → UInt64
  | .name text => mixHash 1 (hash text)
  | .tuple parts => mixHash 2 (hashAll parts)

/-- The hash of a list of symbols. -/
def hashAll : List Symbol → UInt64
  | [] => 3
  | first :: rest => mixHash (hashCode first) (hashAll rest)

end

instance : Hashable Symbol := ⟨hashCode⟩

mutual

/-- A symbol as it stands inside a tuple. -/
def quotedText : Symbol → String
  | .name text => Text.quoted text
  | .tuple [part] => "(" ++ part.quotedText ++ ",)"
  | .tuple parts => "(" ++ String.intercalate ", " (quotedTexts parts) ++ ")"

/-- The parts of a tuple as they stand inside it. -/
def quotedTexts : List Symbol → List String
  | [] => []
  | first :: rest => first.quotedText :: quotedTexts rest

end

/-- A symbol as it stands alone. -/
def text : Symbol → String
  | .name text => text
  | symbol => symbol.quotedText

/-- A tuple of one part keeps its comma, and the empty one its brackets. -/
example : (tuple [name "a", tuple [name "b"], tuple []]).text = "('a', ('b',), ())" := by
  decide +kernel

end Symbol

end WordArithmetic
