/-
This file cuts the text of a program into tokens.

At each position the token is the longest of its class that starts there: digits with an optional
fraction, a letter followed by letters and digits, one of the operator signs, or one of the four
marks. Two words are reserved and are no identifiers. Spaces and tabs are passed over, and so are
line feeds, which are counted. Tokens are read on demand: a character that starts no token is
reported only if the reader gets that far, so a scan is a list of tokens with an ending.
-/

import WordArithmetic.Number.Reading

namespace WordArithmetic

/-- What a token is. -/
inductive TokenKind where
  | identifier (name : String)
  | number (value : Float)
  | lambda
  | define
  | arrow
  | colon
  | opening
  | closing

/-- A token with the position and the line at which it starts. -/
structure Token where
  kind : TokenKind
  position : Nat
  line : Nat

/-- How a scan ends: at the end of the text, or before a character that starts no token. -/
inductive ScanEnd where
  | finished
  | illegal (rest : List Char) (position : Nat)

/-- The tokens of a text and the ending after them. -/
structure Scan where
  tokens : List Token
  ending : ScanEnd

namespace TokenKind

/-- The text of a token, as it is shown in messages. -/
def shown : TokenKind → String
  | identifier name => Text.quoted name
  | number value => floatText value
  | lambda => "'lambda'"
  | define => "'define'"
  | arrow => "'=>'"
  | colon => "':'"
  | opening => "'('"
  | closing => "')'"

/-- The kind of a word: the reserved words are no identifiers. -/
def ofWord (word : String) : TokenKind :=
  if word == "lambda" then .lambda else if word == "define" then .define else .identifier word

end TokenKind

namespace Scan

/-- Whether a character is a letter of ASCII. -/
def isLetter (character : Char) : Bool :=
  character.isAlpha

/-- Whether a character goes on with a word. -/
def isWordCharacter (character : Char) : Bool :=
  character.isAlpha || character.isDigit

/-- Whether a character is an operator sign, which is an identifier of its own. -/
def isSign (character : Char) : Bool :=
  character == '+' || character == '-' || character == '*' || character == '/'

/-- The fraction at the front of a text: a point and at least one digit, or nothing. -/
def fraction : List Char → List Char
  | '.' :: rest =>
    match rest.takeWhile Char.isDigit with
    | [] => []
    | digits => '.' :: digits
  | _ => []

/-- The number that starts a text, with its length. -/
def number (text : List Char) : TokenKind × Nat :=
  let whole := text.takeWhile Char.isDigit
  let places := fraction (text.dropWhile Char.isDigit)
  (.number (nearestFloat (digitsValue (whole ++ places.drop 1)) (-(places.drop 1).length)),
    whole.length + places.length)

/-- The token that starts a text, with its length. -/
def token? : List Char → Option (TokenKind × Nat)
  | [] => none
  | first :: rest =>
    if first.isDigit then some (number (first :: rest))
    else if isLetter first then
      let word := first :: rest.takeWhile isWordCharacter
      some (.ofWord (String.ofList word), word.length)
    else if isSign first then some (.identifier first.toString, 1)
    else if first == '(' then some (.opening, 1)
    else if first == ')' then some (.closing, 1)
    else if first == ':' then some (.colon, 1)
    else if first == '=' && rest.head? == some '>' then some (.arrow, 2)
    else none

/-- The scan of the rest of a text that starts at the given position and line. -/
def scanFrom (position line : Nat) (text : List Char) : Scan :=
  match text with
  | [] => ⟨[], .finished⟩
  | first :: rest =>
    if first == '\n' then scanFrom (position + 1) (line + 1) rest
    else if first == ' ' || first == '\t' then scanFrom (position + 1) line rest
    else
      match token? (first :: rest) with
      | none => ⟨[], .illegal (first :: rest) position⟩
      | some (kind, size) =>
        let later := scanFrom (position + size) line (rest.drop (size - 1))
        ⟨⟨kind, position, line⟩ :: later.tokens, later.ending⟩
termination_by text.length
decreasing_by all_goals simp only [List.length_cons, List.length_drop]; omega

/-- The scan of a text. -/
def ofText (text : String) : Scan :=
  scanFrom 0 1 text.toList

/-- The tokens of a text in which every character belongs to a token or is passed over. -/
def tokens? (text : String) : Except Failure (List Token) :=
  let scan := ofText text
  match scan.ending with
  | .finished => .ok scan.tokens
  | .illegal rest position => .error (.illegalCharacter (String.ofList rest) position)

end Scan

end WordArithmetic
