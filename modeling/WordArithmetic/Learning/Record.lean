/-
This file holds the record of what happened to the items of a training collection.

The record is a list of marks, each set at a place: an item in an epoch. The statistics of an
epoch are read off the marks. Being updated or having a valid parse is a property of an item, so
that several marks count once, while every skip of an item counts.
-/

namespace WordArithmetic

/-- Why an item led to no update. -/
inductive SkipReason where
  | noViolation
  | noParses
  | noSplit
  | noValid
  | tooLong
deriving DecidableEq, Repr

/-- What is remembered of an item. -/
inductive Mark where
  /-- The only best parse is the known one. -/
  | goldBest
  /-- There is a valid parse. -/
  | validFound
  /-- The weights were changed. -/
  | updated
  /-- The item was skipped. -/
  | skipped (reason : SkipReason)
deriving DecidableEq, Repr

/-- Whether a mark says that an item was skipped. -/
def Mark.isSkip : Mark → Bool
  | skipped _ => true
  | _ => false

/-- An item in an epoch, both by number. -/
structure Place where
  epoch : Int
  item : Int
deriving DecidableEq, Repr

/-- The marks that were set, latest first. -/
abbrev Record := List (Place × Mark)

namespace SkipReason

/-- The reasons, in the order of their words. -/
def all : List SkipReason :=
  [noViolation, noParses, noSplit, noValid, tooLong]

/-- The word for a reason. -/
def word : SkipReason → String
  | noViolation => "no-margin-violation"
  | noParses => "no-parses"
  | noSplit => "no-valid-invalid-split"
  | noValid => "no-valid-parse"
  | tooLong => "too-long"

end SkipReason

namespace Record

/-- The different numbers of a list, in increasing order. -/
def distinct (numbers : List Int) : List Int :=
  numbers.eraseDups.mergeSort (· ≤ ·)

/-- The items that have a mark in an epoch. -/
def items (record : Record) (mark : Mark) (epoch : Int) : List Int :=
  distinct ((record.filter fun (place, other) => place.epoch == epoch && other == mark).map
    fun (place, _) => place.item)

/-- How often items were skipped for a reason in an epoch. -/
def skips (record : Record) (reason : SkipReason) (epoch : Int) : Nat :=
  record.countP fun (place, mark) => place.epoch == epoch && mark == .skipped reason

/-- The reasons for which items were skipped in an epoch, and how often. -/
def skipCounts (record : Record) (epoch : Int) : List (SkipReason × Nat) :=
  (SkipReason.all.map fun reason => (reason, record.skips reason epoch)).filter
    fun (_, count) => count != 0

/-- The epochs in which a mark passes a test. -/
def epochs (record : Record) (isSought : Mark → Bool) : List Int :=
  distinct ((record.filter fun (_, mark) => isSought mark).map fun (place, _) => place.epoch)

/-- The items that have a mark, by epoch. -/
def itemsByEpoch (record : Record) (mark : Mark) : List (Int × List Int) :=
  (record.epochs (· == mark)).map fun epoch => (epoch, record.items mark epoch)

/-- The reasons for which items were skipped, by epoch. -/
def skipsByEpoch (record : Record) : List (Int × List (SkipReason × Nat)) :=
  (record.epochs Mark.isSkip).map fun epoch => (epoch, record.skipCounts epoch)

/-- The statistics of an epoch in print. -/
def summary (record : Record) (epoch : Int) : String :=
  let count := fun mark => (record.items mark epoch).length
  let skipped := (record.skipCounts epoch).map fun (reason, count) => s!"{reason.word}={count}"
  let reasons := if skipped.isEmpty then "none" else String.intercalate ", " skipped
  s!"epoch {epoch}: {count .updated} updates, {count .validFound} with valid parse, " ++
    s!"{count .goldBest} gold optimal, skipped: {reasons}"

end Record

end WordArithmetic
