/-
This file holds sparse vectors over feature keys.

The same vectors serve as features of derivations and as weights of a model. A key that is not
entered has weight zero, and an entered zero stays until it is dropped. The entries keep the order
in which they were made, since sums run in that order; products run over the smaller of the two
vectors.
-/

import WordArithmetic.Score
import WordArithmetic.Symbol
import WordArithmetic.Table

namespace WordArithmetic

/-- A sparse vector: weights entered under feature keys. -/
abbrev FeatureVector (Number : Type) := Table Symbol Number

namespace FeatureVector

variable {Number : Type}

/-- The vector without entries. -/
def zero : FeatureVector Number := Table.empty

/-- The key of an observation together with a label. -/
def conjunction (observation label : Symbol) : Symbol :=
  .tuple [observation, label]

section Reading

variable [Zero Number]

/-- The weight of a key. -/
def weight (vector : FeatureVector Number) (key : Symbol) : Number :=
  (vector.get? key).getD 0

variable [Add Number]

/-- The sum of what a weighting gives observations together with a label. -/
def totalConjoined (weighting : Symbol → Number) (observations : List Symbol) (label : Symbol) :
    Number :=
  total (observations.map fun observation => weighting (conjunction observation label))

/-- The sum of the weights of observations together with a label, which is the product with the
vector that counts them. -/
def dotConjoined (vector : FeatureVector Number) (observations : List Symbol) (label : Symbol) :
    Number :=
  totalConjoined vector.weight observations label

variable [Mul Number]

/-- The products of the entries of one vector with the weights of another, summed. -/
def dotEntries (entries : List (Symbol × Number)) (vector : FeatureVector Number) : Number :=
  total (entries.map fun (key, value) => value * vector.weight key)

/-- The product of two vectors, which runs over the smaller one, and over the second if they are
of one size. -/
def dot (left right : FeatureVector Number) : Number :=
  if right.size > left.size then dotEntries left.entries right else dotEntries right.entries left

end Reading

section Writing

variable [Zero Number] [BEq Number]

/-- Drops the entries of weight zero. -/
def dropZeros (vector : FeatureVector Number) : FeatureVector Number :=
  vector.filter fun _ value => !(value == 0)

/-- The vector of a list of entries: the last entry of a key counts, and zeros are dropped. -/
def ofEntries (entries : List (Symbol × Number)) : FeatureVector Number :=
  dropZeros (Table.ofList entries)

variable [Add Number] [Mul Number]

/-- Adds a multiple of `source` to `target`. A multiple of zero leaves the target as it is. -/
def addTimes (multiple : Number) (source target : FeatureVector Number) : FeatureVector Number :=
  if multiple == 0 then target
  else
    target.insertAll
      (source.entries.map fun (key, value) => (key, target.weight key + multiple * value))

variable [One Number]

/-- The sum of two vectors. -/
def add (left right : FeatureVector Number) : FeatureVector Number :=
  addTimes 1 right left

/-- The difference of two vectors. -/
def sub [Neg Number] (left right : FeatureVector Number) : FeatureVector Number :=
  addTimes (-1) right left

/-- Whether two vectors have the same weights. -/
def agree (left right : FeatureVector Number) : Bool :=
  (left.keys ++ right.keys).all fun key => left.weight key == right.weight key

end Writing

/-- Multiplies every entry. -/
def scale [Mul Number] (vector : FeatureVector Number) (factor : Number) : FeatureVector Number :=
  vector.mapValues fun _ value => value * factor

/-- The vector that counts observations together with a label. -/
def countConjoined [Zero Number] [One Number] [Add Number] (observations : List Symbol)
    (label : Symbol) : FeatureVector Number :=
  observations.foldl (fun counts observation =>
    let key := conjunction observation label
    counts.insert key (counts.weight key + 1)) zero

/-- A vector in print: its entries sorted by the text of their keys, with four places. -/
def print (vector : FeatureVector Scalar) : String :=
  let shown := vector.entries.map fun (key, value) => (key.text, value.fixedText 4)
  let sorted := shown.mergeSort fun left right => !decide (right.1 < left.1)
  "\x7b" ++ String.intercalate ", " (sorted.map fun (key, value) => key ++ "=" ++ value) ++ "\x7d"

end FeatureVector

end WordArithmetic
