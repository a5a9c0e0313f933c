/-
This file holds the lexicon, which gives the words of questions their meanings.

A lexicon maps phrases of one or more words to entries: named meanings, each of them the term that
a program builds, or nothing if the program only defines names. All programs of a lexicon are read
in one session, that of arithmetic or any other, so that the definitions of one entry can be used in
the later ones. A question is cut into words from left to right: the longest known phrase that ends
at the end of a word is taken, and failing that the next word, which has a meaning only if it is a
number.
-/

import WordArithmetic.Lambda.Reader
import WordArithmetic.Lambda.Typing
import WordArithmetic.Lexicon.Question
import WordArithmetic.Text.Lines

namespace WordArithmetic

/-- The meanings of a phrase, by their names. -/
abbrev Meanings := Table String (Option Term)

/-- A word of a question: a phrase of the lexicon or any other word, with its meanings. -/
structure Word where
  form : String
  meanings : Meanings

/-- A line of a lexicon: a phrase, the name of a meaning, and the program of its term. -/
structure LexicalLine where
  phrase : String
  macroName : String
  code : String

/-- The lexicon: the session of its programs, its phrases, and those of them that are looked up
in questions. -/
structure Lexicon where
  session : Session
  phrases : Table String Meanings
  lookedUp : List String

namespace Word

/-- A word in print. -/
def print (word : Word) : String :=
  let names := String.intercalate "|" word.meanings.keys
  word.form ++ "/" ++ (if names.isEmpty then "_" else names)

/-- Whether a word has a meaning. -/
def isMeaningful (word : Word) : Bool :=
  word.meanings.size != 0

/-- The term of a meaning. -/
def logicalForm (word : Word) (name : String) : Except Failure Term :=
  match word.meanings.get? name with
  | none => .error (.unknownKey name)
  | some none => .error .notSupported
  | some (some term) => .ok term.copy

/-- The type of a meaning. A meaning without term has no type. -/
def logicalType (word : Word) (name : String) : Except Failure TypeCode :=
  match word.meanings.get? name with
  | none => .error (.unknownKey name)
  | some none => .ok TypeCode.untyped
  | some (some term) => term.typecheck

/-- Whether a meaning has no term that could be typed. -/
def lacksTerm (word : Word) (name : String) : Bool :=
  match word.meanings.get? name with
  | some none => true
  | _ => false

end Word

namespace Lexicon

/-- The name of the meaning of numbers. -/
def numberMacro : String := "NUM"

/-- The lines of the lexicon of arithmetic questions. -/
def defaultLines : List LexicalLine :=
  [⟨"plus", "PLUS", "+"⟩, ⟨"added to", "PLUS", "+"⟩, ⟨"and", "PLUS", "+"⟩, ⟨"and", "TIMES", "*"⟩,
   ⟨"minus", "MINUS", "-"⟩, ⟨"less", "MINUS", "-"⟩, ⟨"times", "TIMES", "*"⟩,
   ⟨"multiplied by", "TIMES", "*"⟩, ⟨"divided by", "DIV", "/"⟩, ⟨"over", "DIV", "/"⟩,
   ⟨"twice", "TWICE", "(lambda (x:num) (* 2 x))"⟩,
   ⟨"double", "TWICE", "(lambda (x:num) (* 2 x))"⟩,
   ⟨"half", "HALF", "(lambda (x:num) (/ x 2))"⟩,
   ⟨"squared", "SQUARE", "(lambda (x:num) (* x x))"⟩]

/-! ### Building a lexicon -/

/-- The lexicon without entries, whose programs will be read in this session. -/
def empty (session : Session) : Lexicon :=
  ⟨session, .empty, []⟩

/-- Adds a line. The definitions of its program stay even if the program is wrong; the entry is
made only if it is right. -/
def addLine (lexicon : Lexicon) (line : LexicalLine) : Lexicon × Except Failure Unit :=
  let (session, found) := lexicon.session.read line.code
  match found with
  | .error failure => ({ lexicon with session }, .error failure)
  | .ok term =>
    let phrase := Text.lowerCase line.phrase
    let meanings := (lexicon.phrases.get? phrase).getD .empty
    let phrases := lexicon.phrases.insert phrase (meanings.insert line.macroName term)
    ({ lexicon with session, phrases }, .ok ())

/-- Looks up all phrases of the lexicon from now on. -/
def lookUpAll (lexicon : Lexicon) : Lexicon :=
  { lexicon with lookedUp := lexicon.phrases.keys }

/-- The lexicon of a list of lines, whose programs are read one after the other from this session
on. -/
def ofLines (session : Session) (lines : List LexicalLine) : Except Failure Lexicon := do
  let lexicon ← lines.foldlM (fun lexicon line =>
    match lexicon.addLine line with
    | (next, .ok ()) => .ok next
    | (_, .error failure) => .error failure) (empty session)
  return lexicon.lookUpAll

/-- The lexicon of arithmetic questions. -/
def default : Except Failure Lexicon :=
  ofLines Session.arithmetic defaultLines

/-- Cuts a text at every tab. `current` is the field being read, reversed. -/
def fieldsFrom : (current rest : List Char) → List (List Char)
  | current, [] => [current.reverse]
  | current, '\t' :: rest => current.reverse :: fieldsFrom [] rest
  | current, character :: rest => fieldsFrom (character :: current) rest

/-- The lexical line that a line of a file writes, with tabs between its fields and a comment
behind a hash sign; nothing if there is only a comment. -/
def readLine? (line : String) : Except Failure (Option LexicalLine) :=
  let content := Text.trimChars (line.toList.takeWhile (· != '#'))
  if content.isEmpty then .ok none
  else
    match (fieldsFrom [] content).map fun field => String.ofList (Text.trimChars field) with
    | [phrase, macroName, code] => .ok (some ⟨phrase, macroName, code⟩)
    | fields => .error (.fieldCount fields.length)

/-- The lexicon that a file writes. -/
def ofText (session : Session) (text : String) : Except Failure Lexicon := do
  ofLines session ((← (Text.lines text).mapM readLine?).filterMap id)

/-! ### Looking up -/

/-- The names of all meanings, the one of numbers included, in increasing order. -/
def macros (lexicon : Lexicon) : List String :=
  let names := numberMacro :: lexicon.phrases.values.flatMap Table.keys
  names.eraseDups.mergeSort fun left right => !decide (right < left)

/-- Whether a phrase stands at the front of a text and ends at the end of a word. -/
def startsWith (text : List Char) (phrase : List Char) : Bool :=
  phrase.isPrefixOf text &&
    match text.drop phrase.length with
    | [] => true
    | next :: _ => next == ' '

/-- The longest phrase at the front of a text. -/
def longestPhrase? (lexicon : Lexicon) (text : List Char) : Option String :=
  (lexicon.lookedUp.filter fun phrase => startsWith text phrase.toList).foldl
    (fun best phrase =>
      match best with
      | none => some phrase
      | some known => if known.length < phrase.length then some phrase else some known) none

/-- The meanings of a word that is no phrase: the number that it stands for, if any. -/
def numberMeanings? (form : String) : Option Meanings :=
  (Question.readNumber? form).map fun value =>
    Table.ofList [(numberMacro, some (Term.number value))]

/-- The word at the front of a text in normal form. -/
def nextWord (lexicon : Lexicon) (text : List Char) : Word :=
  match (lexicon.longestPhrase? text).filter fun phrase => !phrase.isEmpty with
  | some phrase => ⟨phrase, (lexicon.phrases.get? phrase).getD .empty⟩
  | none =>
    let form := String.ofList (text.takeWhile (· != ' '))
    ⟨form, (numberMeanings? form).getD .empty⟩

/-- Cuts a text in normal form into words, each of which is followed by a space or the end. -/
def segment (lexicon : Lexicon) (text : List Char) : List Word :=
  match text with
  | [] => []
  | first :: rest =>
    let word := lexicon.nextWord (first :: rest)
    word :: lexicon.segment (rest.drop word.form.length)
termination_by text.length
decreasing_by simp only [List.length_cons, List.length_drop]; omega

/-- The words of a question. -/
def words (lexicon : Lexicon) (question : String) : List Word :=
  lexicon.segment (Question.normalize question).toList

end Lexicon

end WordArithmetic
