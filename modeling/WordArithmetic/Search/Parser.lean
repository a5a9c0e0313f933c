/-
This file is the parser of questions: from words to the joint forest of their parses and results.

The derivations that the beam search finds are turned into terms and packed by latent form. Each
form is then evaluated, once, and its result is rounded; a form without value takes no part. The
score of an evaluation is that of a few features of the result.
-/

import WordArithmetic.FeatureVector.Index
import WordArithmetic.Forest.Joint
import WordArithmetic.Lambda.Evaluation
import WordArithmetic.Search.Beam

namespace WordArithmetic

/-- A parser: its actions, the width of its beam, and the depth to which it reduces terms. -/
structure Parser where
  actions : List Action
  width : Int
  depth : Nat

/-- What is reported while a question is parsed: how often a meaning without term was shifted, and
which forms turned out to have no value. -/
structure ParseReport where
  untypedShifts : Nat
  undefinedForms : List String

namespace Parser

/-- The width of the beam unless another one is asked for. -/
def defaultWidth : Int := 100

/-- The parser for the meanings of a lexicon. -/
def ofLexicon (lexicon : Lexicon) (width : Int) : Parser :=
  ⟨Action.all lexicon.macros, width, Term.defaultDepth⟩

/-- The number of decimal places to which results are rounded. -/
def resultPlaces : Int := 6

/-- Whether a float is a whole number. -/
def isWhole (number : Float) : Bool :=
  match FloatShape.ofFloat number with
  | .finite parts => parts.toRat.den == 1
  | _ => false

variable {Number : Type}

/-- The features of a result: whether it is whole, and whether it is negative. -/
def resultFeatures [Zero Number] [One Number] (result : Float) : FeatureVector Number :=
  let key := fun name => Configuration.observation ["EXEC", name]
  let kind := (Table.empty : FeatureVector Number).insert
    (key (if isWhole result then "integer" else "fraction")) 1
  if result < 0.0 then kind.insert (key "negative") 1 else kind

/-- What the execution of a form comes to. -/
inductive Executed (Number : Type) where
  | evaluation (evaluation : Evaluation Number)
  | undefined (reason : String)
  | failed (failure : Failure)

/-- Executes a term: its value is rounded, and scored by a weight vector. -/
def execute [Zero Number] [One Number] [Add Number] [Mul Number] (depth : Nat)
    (theta : FeatureVector Number) (term : Term) : Executed Number :=
  match term.evaluate depth with
  | .failed failure => .failed failure
  | .undefined reason => .undefined reason
  | .value value =>
    match value.toFloat.bind (roundTo resultPlaces) with
    | .error failure => .failed failure
    | .ok result =>
      let features := resultFeatures result
      .evaluation ⟨.float result, theta.dot features, features⟩

section Parsing

variable [Zero Number] [One Number] [Add Number] [Mul Number] [BEq Number] [LT Number]
  [DecidableLT Number] [LogScore Number]

/-- The derivation of a cell. -/
def derivation (words : Array Word) (cell : Cell Number) :
    Except Failure (Derivation LatentForm Number) := do
  let term ← Configuration.logicalForm words cell.steps
  return ⟨LatentForm.ofTerm term, cell.configuration.score,
    Configuration.featurize words cell.steps⟩

/-- The forest of the derivations of a sequence of words, with the number of shifts of meanings
without term. -/
def parseBase (parser : Parser) (words : Array Word) (theta : FeatureVector Number) :
    Except Interrupted (ParseForest LatentForm Number × Nat) := do
  let index := theta.index
  let found ← Beam.search parser.actions parser.width words fun key => index.getD key 0
  match found.cells.mapM (derivation words) with
  | .ok derivations => return (⟨derivations, found.exact⟩, found.untypedShifts)
  | .error failure => .error ⟨failure, found.untypedShifts⟩

/-- Executes parses in their order; the pairs made so far are reversed. -/
def executeAll (depth : Nat) (theta : FeatureVector Number) :
    (parses : List (Parse LatentForm Number)) → (pairs : List (Pair LatentForm Number)) →
      (undefined : List String) → List String × Except Failure (List (Pair LatentForm Number))
  | [], pairs, undefined => (undefined.reverse, .ok pairs.reverse)
  | parse :: rest, pairs, undefined =>
    match execute depth theta parse.form.term with
    | .evaluation evaluation => executeAll depth theta rest (⟨parse, evaluation⟩ :: pairs) undefined
    | .undefined reason =>
      let shown := (Failure.evaluation reason parse.form.printed).message
      executeAll depth theta rest pairs (shown :: undefined)
    | .failed failure => (undefined.reverse, .error failure)

/-- Joint inference for a sequence of words, with what there is to report. -/
def parse (parser : Parser) (words : Array Word) (theta : FeatureVector Number) :
    ParseReport × Except Failure (JointForest LatentForm Number) :=
  match parser.parseBase words theta with
  | .error interrupted => (⟨interrupted.untypedShifts, []⟩, .error interrupted.failure)
  | .ok (base, untypedShifts) =>
    let (undefined, pairs) := executeAll parser.depth theta base.parses [] []
    (⟨untypedShifts, undefined⟩, pairs.map fun pairs => JointForest.ofPairs base pairs 0 true)

end Parsing

end Parser

end WordArithmetic
