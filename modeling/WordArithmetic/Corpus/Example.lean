/-
This file holds the examples that a corpus consists of: questions with their answers.

A corpus is a text with one JSON object a line, blank lines aside. The question of an object is
cut into words with a lexicon, and its answer is kept as it is; whether a result answers the
question is for a validator to say.
-/

import WordArithmetic.Corpus.Json
import WordArithmetic.Lexicon.Basic

namespace WordArithmetic

/-- A question, its words and its answer. -/
structure Example where
  question : String
  words : List Word
  answer : Value

namespace Example

/-- An example in print. -/
def print (entry : Example) : String :=
  s!"{entry.question} => {entry.answer.print}"

/-- The example that a JSON object writes. -/
def ofJson (lexicon : Lexicon) (json : Json) : Except Failure Example := do
  match ← json.field "question" with
  | .text question =>
    let words := lexicon.words question
    return ⟨question, words, (← json.field "answer").toValue⟩
  | _ => .error .notSupported

/-- The examples of a corpus. -/
def readAll (lexicon : Lexicon) (text : String) : Except Failure (List Example) :=
  ((Text.lines text).filter fun line => !(Text.trim line).isEmpty).mapM fun line => do
    ofJson lexicon (← Json.read line)

end Example

end WordArithmetic
