/-
This file searches for the place where a property of positions ends.

The property is meant to hold up to some position and not from there on. Bisection halves the range
in question; galloping first leaps away from a hint, with every leap twice as long, and halves only
the range of the last leap. Where the property does not hold in this way, what is found is the
place that these searches come to.
-/

namespace WordArithmetic.Sorting

/-- The end of a property between two positions, by bisection. -/
def bisect (holds : Nat → Bool) : (fuel low high : Nat) → Nat
  | 0, low, _ => low
  | fuel + 1, low, high =>
    if low < high then
      let middle := low + (high - low) / 2
      if holds middle then bisect holds fuel (middle + 1) high else bisect holds fuel low middle
    else low

/-- The lengths of the last leap that went on and of the first that did not, or that reached the
limit. -/
def leap (goesOn : Nat → Bool) (limit : Nat) : (fuel last next : Nat) → Nat × Nat
  | 0, last, next => (last, min next limit)
  | fuel + 1, last, next =>
    if next < limit && goesOn next then leap goesOn limit fuel next (2 * next + 1)
    else (last, min next limit)

/-- The end of a property of the positions below `size`, by galloping from a hint. -/
def gallop (holds : Nat → Bool) (size hint : Nat) : Nat :=
  if holds hint then
    let (last, next) := leap (fun length => holds (hint + length)) (size - hint) size 0 1
    bisect holds (size + 1) (hint + last + 1) (hint + next)
  else
    let (last, next) := leap (fun length => !holds (hint - length)) (hint + 1) size 0 1
    bisect holds (size + 1) (hint + 1 - next) (hint - last)

/-- A search finds the end of a property wherever it starts. -/
example : (List.range 9).map (gallop (· < 5) 9) = List.replicate 9 5 := by decide

end WordArithmetic.Sorting
