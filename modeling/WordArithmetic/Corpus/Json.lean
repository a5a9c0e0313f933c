/-
This file reads JSON values.

The reader takes the standard format with four liberties: the words for the infinities and the
undefined number are numbers, whole numbers are of any size, a field that occurs twice keeps its
first place and its last value, and a code unit escaped without its pair stands for the
replacement character. A number is whole if it is written without a point and without an exponent.
-/

import WordArithmetic.Table
import WordArithmetic.Value

namespace WordArithmetic

/-- A JSON value. -/
inductive Json where
  | null
  | truth (value : Bool)
  | integer (value : Int)
  | float (value : Float)
  | text (value : String)
  | array (elements : List Json)
  | object (fields : List (String × Json))
deriving Inhabited

namespace Json

mutual

/-- The value that a JSON value stands for as an answer. -/
def toValue : Json → Value
  | .null => .absent
  | .truth value => .truth value
  | .integer value => .integer value
  | .float value => .float value
  | .text value => .text value
  | .array elements => .list (toValues elements)
  | .object fields => .record (toFields fields)

/-- The values of the elements of an array. -/
def toValues : List Json → List Value
  | [] => []
  | first :: rest => first.toValue :: toValues rest

/-- The values of the fields of an object. -/
def toFields : List (String × Json) → List (String × Value)
  | [] => []
  | (name, first) :: rest => (name, first.toValue) :: toFields rest

end

/-- The field of an object. Only objects have fields. -/
def field (json : Json) (name : String) : Except Failure Json :=
  match json with
  | .object fields =>
    match entryOf? name fields with
    | some value => .ok value
    | none => .error (.unknownKey name)
  | _ => .error .noFields

/-! ### Reading -/

/-- Passes over the blanks of the format. -/
def skipBlanks (source : List Char) : List Char :=
  source.dropWhile fun character =>
    character == ' ' || character == '\t' || character == '\n' || character == '\r'

/-- The value of a hexadecimal digit. -/
def hexDigit? (character : Char) : Option Nat :=
  if character.isDigit then some (character.toNat - 48)
  else if 'a' ≤ character && character ≤ 'f' then some (character.toNat - 87)
  else if 'A' ≤ character && character ≤ 'F' then some (character.toNat - 55)
  else none

/-- The code unit of an escape of four hexadecimal digits. -/
def codeUnit? : List Char → Option (Nat × List Char)
  | first :: second :: third :: fourth :: rest => do
    let high := 16 * (← hexDigit? first) + (← hexDigit? second)
    let low := 16 * (← hexDigit? third) + (← hexDigit? fourth)
    return (256 * high + low, rest)
  | _ => none

/-- The character of an escape of four hexadecimal digits. Two code units of a surrogate pair make
one character, and a unit without its pair the replacement character. -/
def unicodeEscape? (source : List Char) : Option (Char × List Char) := do
  let (unit, rest) ← codeUnit? source
  if 0xD800 ≤ unit ∧ unit < 0xDC00 then
    match rest with
    | '\\' :: 'u' :: tail =>
      match codeUnit? tail with
      | some (low, after) =>
        if 0xDC00 ≤ low ∧ low < 0xE000 then
          return (Char.ofNat (0x10000 + 0x400 * (unit - 0xD800) + (low - 0xDC00)), after)
        else return (Char.ofNat 0xFFFD, rest)
      | none => none
    | _ => return (Char.ofNat 0xFFFD, rest)
  else if 0xDC00 ≤ unit ∧ unit < 0xE000 then return (Char.ofNat 0xFFFD, rest)
  else return (Char.ofNat unit, rest)

/-- The character of an escape, after its backslash. -/
def escape? : List Char → Option (Char × List Char)
  | '"' :: rest => some ('"', rest)
  | '\\' :: rest => some ('\\', rest)
  | '/' :: rest => some ('/', rest)
  | 'b' :: rest => some ('\x08', rest)
  | 'f' :: rest => some ('\x0c', rest)
  | 'n' :: rest => some ('\n', rest)
  | 'r' :: rest => some ('\r', rest)
  | 't' :: rest => some ('\t', rest)
  | 'u' :: rest => unicodeEscape? rest
  | _ => none

/-- The rest of a string after its opening quote, at most `fuel` characters of it. -/
def readString? : (fuel : Nat) → (read : List Char) → List Char → Option (String × List Char)
  | 0, _, _ => none
  | _ + 1, _, [] => none
  | _ + 1, read, '"' :: rest => some (String.ofList read.reverse, rest)
  | fuel + 1, read, '\\' :: rest => do
    let (character, after) ← escape? rest
    readString? fuel (character :: read) after
  | fuel + 1, read, character :: rest =>
    if character.toNat < 32 then none else readString? fuel (character :: read) rest

/-- The digits of a whole number at the front of a text: a zero alone, or no zero first. -/
def wholeDigits : List Char → List Char
  | '0' :: _ => ['0']
  | source => source.takeWhile Char.isDigit

/-- The fraction at the front of a text, point included, if it has a digit. -/
def fractionPart : List Char → List Char
  | '.' :: rest =>
    match rest.takeWhile Char.isDigit with
    | [] => []
    | digits => '.' :: digits
  | _ => []

/-- The exponent at the front of a text, if it has a digit. -/
def exponentPart : List Char → List Char
  | mark :: rest =>
    if mark == 'e' || mark == 'E' then
      let sign := match rest with
        | '+' :: _ => ['+']
        | '-' :: _ => ['-']
        | _ => []
      match (rest.drop sign.length).takeWhile Char.isDigit with
      | [] => []
      | digits => mark :: sign ++ digits
    else []
  | [] => []

/-- The number at the front of a text. -/
def readNumber (source : List Char) : Except Failure (Json × List Char) :=
  let sign := if source.head? == some '-' then ['-'] else []
  let unsigned := source.drop sign.length
  let whole := wholeDigits unsigned
  let afterWhole := unsigned.drop whole.length
  let fraction := fractionPart afterWhole
  let afterFraction := afterWhole.drop fraction.length
  let exponent := exponentPart afterFraction
  if whole.isEmpty then .error .malformedJson
  else if fraction.isEmpty && exponent.isEmpty then do
    return (.integer (← readInteger (String.ofList (sign ++ whole))), afterWhole)
  else do
    let number ← readDecimal (String.ofList (sign ++ whole ++ fraction ++ exponent))
    return (.float number, afterFraction.drop exponent.length)

/-- The words that stand for values. -/
def words : List (List Char × Json) :=
  [("null".toList, .null), ("true".toList, .truth true), ("false".toList, .truth false),
   ("NaN".toList, .float undefinedNumber), ("Infinity".toList, .float positiveInfinity),
   ("-Infinity".toList, .float negativeInfinity)]

/-- The word at the front of a text. -/
def readWord? (source : List Char) : Option (Json × List Char) :=
  (words.find? fun (word, _) => word.isPrefixOf source).map fun (word, value) =>
    (value, source.drop word.length)

mutual

/-- The value at the front of a text. -/
def readValue : (fuel : Nat) → List Char → Except Failure (Json × List Char)
  | 0, _ => .error .malformedJson
  | fuel + 1, source =>
    match source with
    | '"' :: rest =>
      match readString? (rest.length + 1) [] rest with
      | some (value, after) => .ok (.text value, after)
      | none => .error .malformedJson
    | '[' :: rest =>
      match skipBlanks rest with
      | ']' :: after => .ok (.array [], after)
      | first => readElements fuel [] first
    | '\x7b' :: rest =>
      match skipBlanks rest with
      | '\x7d' :: after => .ok (.object [], after)
      | first => readFields fuel [] first
    | _ =>
      match readWord? source with
      | some found => .ok found
      | none => readNumber source

/-- The elements of an array up to its closing bracket; `read` holds those already read,
reversed. -/
def readElements : (fuel : Nat) → (read : List Json) → List Char →
    Except Failure (Json × List Char)
  | 0, _, _ => .error .malformedJson
  | fuel + 1, read, source => do
    let (value, after) ← readValue fuel source
    match skipBlanks after with
    | ']' :: rest => .ok (.array (value :: read).reverse, rest)
    | ',' :: rest => readElements fuel (value :: read) (skipBlanks rest)
    | _ => .error .malformedJson

/-- The fields of an object up to its closing brace. -/
def readFields : (fuel : Nat) → (read : List (String × Json)) → List Char →
    Except Failure (Json × List Char)
  | 0, _, _ => .error .malformedJson
  | fuel + 1, read, source =>
    match source with
    | '"' :: rest =>
      match readString? (rest.length + 1) [] rest with
      | none => .error .malformedJson
      | some (name, after) =>
        match skipBlanks after with
        | ':' :: tail => do
          let (value, after) ← readValue fuel (skipBlanks tail)
          let fields := putEntry name value read
          match skipBlanks after with
          | '\x7d' :: rest => .ok (.object fields, rest)
          | ',' :: rest => readFields fuel fields (skipBlanks rest)
          | _ => .error .malformedJson
        | _ => .error .malformedJson
    | _ => .error .malformedJson

end

/-- Reads a text that is one JSON value between blanks. -/
def read (source : String) : Except Failure Json := do
  let characters := skipBlanks source.toList
  let (value, rest) ← readValue (2 * characters.length + 2) characters
  if (skipBlanks rest).isEmpty then return value else .error .malformedJson

end Json

end WordArithmetic
