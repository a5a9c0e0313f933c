/-
This file holds the derivations that a parser found for one input, packed by latent form.

A parse stands for all derivations of one latent form: it has their total mass, their number, and
the score and the features of the best one, the first if several are best. The forest keeps the
derivations too, since expected features are sums over derivations.
-/

import WordArithmetic.FeatureVector.Basic

namespace WordArithmetic

/-- A derivation: the form it builds, its log score and its features. -/
structure Derivation (Form Number : Type) where
  form : Form
  score : Number
  features : FeatureVector Number

/-- The derivations of one latent form, taken together. -/
structure Parse (Form Number : Type) where
  form : Form
  inside : Number
  best : Option (Number × FeatureVector Number)
  count : Nat

/-- The output of the parser: the derivations found, and whether none was given up on the way. -/
structure ParseForest (Form Number : Type) where
  derivations : List (Derivation Form Number)
  exact : Bool

variable {Form Number : Type}

namespace Parse

/-- The parse of a form of which no derivation is known. -/
def start [Zero Number] (form : Form) : Parse Form Number :=
  ⟨form, 0, none, 0⟩

/-- Whether a score is better than that of the best derivation so far. -/
def improves [LT Number] [DecidableLT Number] [LogScore Number]
    (best : Option (Number × FeatureVector Number)) (score : Number) : Bool :=
  match best with
  | none => LogScore.isAboveLowest score
  | some (known, _) => known < score

/-- Adds a derivation. -/
def add [Add Number] [LT Number] [DecidableLT Number] [LogScore Number]
    (parse : Parse Form Number) (score : Number) (features : FeatureVector Number) :
    Parse Form Number where
  form := parse.form
  inside := parse.inside + LogScore.exp score
  best := if improves parse.best score then some (score, features) else parse.best
  count := parse.count + 1

/-- The score of the best derivation. -/
def score [LogScore Number] (parse : Parse Form Number) : Number :=
  match parse.best with
  | some (score, _) => score
  | none => LogScore.lowest

/-- The features of the best derivation. -/
def features (parse : Parse Form Number) : FeatureVector Number :=
  match parse.best with
  | some (_, features) => features
  | none => FeatureVector.zero

/-- A parse in print. -/
def print [ToString Form] (parse : Parse Form Scalar) : String :=
  s!"{toString parse.form} [{parse.score.fixedText 4}] ({parse.count} derivations)"

end Parse

namespace ParseForest

/-- Adds a derivation to the parse of its form, which is made if need be. -/
def addDerivation [BEq Form] [Zero Number] [Add Number] [LT Number] [DecidableLT Number]
    [LogScore Number] (derivation : Derivation Form Number) :
    List (Parse Form Number) → List (Parse Form Number)
  | [] => [(Parse.start derivation.form).add derivation.score derivation.features]
  | parse :: rest =>
    if parse.form == derivation.form then
      parse.add derivation.score derivation.features :: rest
    else parse :: addDerivation derivation rest

/-- The parses of the forest, in the order of the first derivation of each. -/
def parses [BEq Form] [Zero Number] [Add Number] [LT Number] [DecidableLT Number]
    [LogScore Number] (forest : ParseForest Form Number) : List (Parse Form Number) :=
  forest.derivations.foldl (fun parses derivation => addDerivation derivation parses) []

/-- The total mass of the forest. -/
def norm [BEq Form] [Zero Number] [Add Number] [LT Number] [DecidableLT Number]
    [LogScore Number] (forest : ParseForest Form Number) : Number :=
  total (forest.parses.map Parse.inside)

/-- The features of all derivations, each weighted with its mass and the outside score of its
form. A derivation whose form has outside score zero adds nothing. -/
def expectedFeatures [Zero Number] [Add Number] [Mul Number] [BEq Number] [LogScore Number]
    (forest : ParseForest Form Number) (outside : Form → Number) : FeatureVector Number :=
  forest.derivations.foldl (fun expected derivation =>
    let weight := outside derivation.form
    if weight == 0 then expected
    else
      FeatureVector.addTimes (weight * LogScore.exp derivation.score) derivation.features expected)
    FeatureVector.zero

end ParseForest

end WordArithmetic
