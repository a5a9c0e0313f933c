/-
This file sorts a list by merging its runs.

A run is a stretch of the list that is in order already, or that is so when it is read backward. A
run that is too short is lengthened by inserting what follows. The runs found so far lie on a pile;
between two neighbours the pile remembers how deep in the binary division of the whole list their
middles are separated, and neighbours that are separated deeper than the newest ones are merged
first. In the end all that lies on the pile is merged.

For a comparison that is a strict weak order this is one of many ways to sort stably. For any other
comparison, such as that of floats among which some are undefined, the order that comes out is the
one of this way of sorting; the main statement says that even then nothing is lost.
-/

import WordArithmetic.Sorting.Merge

namespace WordArithmetic.Sorting

/-- Runs on a pile: the topmost one, those below it with the depth at which each is separated from
the one above, and the patience of merges. -/
structure Pile (Element : Type) where
  top : List Element
  lower : List (List Element × Nat)
  patience : Nat

/-- The length up to which runs are lengthened: lists shorter than twice this are one run. -/
def shortestList : Nat := 64

/-- The length up to which the runs of a list are lengthened: its size, halved until it is small
enough, and one more if a bit was lost on the way. -/
def leastRun : (fuel size lost : Nat) → Nat
  | 0, size, lost => size + lost
  | fuel + 1, size, lost =>
    if size < shortestList then size + lost
    else leastRun fuel (size / 2) (max lost (size % 2))

/-- The depth at which the binary division of a range separates two positions in it, the lower of
which comes first. -/
def separation (size : Nat) : (fuel low high : Nat) → Nat
  | 0, _, _ => 1
  | fuel + 1, low, high =>
    if size ≤ low then separation size fuel (2 * (low - size)) (2 * (high - size)) + 1
    else if size ≤ high then 1
    else separation size fuel (2 * low) (2 * high) + 1

variable {Element : Type} (below : Element → Element → Bool)

/-! ### Runs -/

/-- Takes elements as long as each is related to the one before it, the first to `last`. -/
def takeChain (related : Element → Element → Bool) (last : Element) :
    List Element → List Element × List Element
  | [] => ([], [])
  | next :: rest =>
    if related last next then
      let (chain, after) := takeChain related next rest
      (next :: chain, after)
    else ([], next :: rest)

/-- The run at the front of a list, in order, and what follows it. -/
def takeRun : List Element → List Element × List Element
  | [] => ([], [])
  | [only] => ([only], [])
  | first :: second :: rest =>
    if below second first then
      let (chain, after) := takeChain (fun last next => below next last) first (second :: rest)
      ((first :: chain).reverse, after)
    else
      let (chain, after) := takeChain (fun last next => !below next last) first (second :: rest)
      (first :: chain, after)

/-- Inserts an element into a run, behind those that are equal. -/
def insert (run : List Element) (element : Element) : List Element :=
  let entries := run.toArray
  let position := bisect (fun index => !(entries[index]?.any (below element))) (run.length + 1) 0
    run.length
  run.take position ++ element :: run.drop position

/-- Lengthens a run to so many elements, as far as there are any. -/
def lengthen (least : Nat) (run rest : List Element) : List Element × List Element :=
  let missing := least - run.length
  ((rest.take missing).foldl (insert below) run, rest.drop missing)

/-! ### The pile -/

/-- Merges the topmost runs as long as they are separated deeper than a depth. -/
def collapse (depth : Nat) (top : List Element) (patience : Nat) :
    List (List Element × Nat) → Pile Element
  | [] => ⟨top, [], patience⟩
  | (under, own) :: rest =>
    if own > depth then
      let (merged, patience) := merge below patience under top
      collapse depth merged patience rest
    else ⟨top, (under, own) :: rest, patience⟩

/-- Puts a run on the pile, before which so many elements of a list of some size have been passed. -/
def addRun (size passed : Nat) (pile : Pile Element) (run : List Element) : Pile Element :=
  let low := 2 * passed - pile.top.length
  let depth := separation size (size + 1) low (low + pile.top.length + run.length)
  let settled := collapse below depth pile.top pile.patience pile.lower
  ⟨run, (settled.top, depth) :: settled.lower, settled.patience⟩

/-- Merges what is on the pile. Of three topmost runs the lower two are merged first if the lowest
is shorter than the topmost. -/
def mergeAll (patience : Nat) (top : List Element) : List (List Element × Nat) → List Element
  | [] => top
  | [(under, _)] => (merge below patience under top).1
  | (under, depth) :: (lowest, other) :: rest =>
    if lowest.length < top.length then
      let (merged, patience) := merge below patience lowest under
      mergeAll patience top ((merged, depth) :: rest)
    else
      let (merged, patience) := merge below patience under top
      mergeAll patience merged ((lowest, other) :: rest)
termination_by lower => lower.length

/-- Puts the runs of the rest of a list on a pile and merges it. -/
def sortRest (size least : Nat) :
    (fuel passed : Nat) → (pile : Pile Element) → List Element → List Element
  | 0, _, pile, rest => mergeAll below pile.patience pile.top pile.lower ++ rest
  | _ + 1, _, pile, [] => mergeAll below pile.patience pile.top pile.lower
  | fuel + 1, passed, pile, first :: rest =>
    let (found, after) := takeRun below (first :: rest)
    let (run, after) := lengthen below least found after
    sortRest size least fuel (passed + run.length) (addRun below size passed pile run) after

/-- Sorts a list, the lowest element first. -/
def sort (elements : List Element) : List Element :=
  let least := leastRun elements.length elements.length 0
  let (found, after) := takeRun below elements
  let (run, after) := lengthen below least found after
  sortRest below elements.length least after.length run.length ⟨run, [], leastGallop⟩ after

/-- Sorts a list, the lowest element last and equal ones in their order. -/
def sortDescending (elements : List Element) : List Element :=
  (sort below elements.reverse).reverse

/-! ### Nothing is lost -/

/-- A chain and what follows it are the list. -/
theorem takeChain_append (related : Element → Element → Bool) (last : Element)
    (rest : List Element) :
    (takeChain related last rest).1 ++ (takeChain related last rest).2 = rest := by
  induction rest generalizing last with
  | nil => rfl
  | cons next rest inductionHypothesis =>
    unfold takeChain
    split
    · simp [inductionHypothesis next]
    · rfl

/-- A run and what follows it have the elements of the list. -/
theorem takeRun_perm (elements : List Element) :
    ((takeRun below elements).1 ++ (takeRun below elements).2).Perm elements := by
  match elements with
  | [] => exact List.Perm.refl _
  | [only] => exact List.Perm.refl _
  | first :: second :: rest =>
    have whole := fun related => takeChain_append related first (second :: rest)
    simp only [takeRun]
    split
    · refine ((List.reverse_perm _).append_right _).trans ?_
      rw [List.cons_append, whole]
    · dsimp only
      rw [List.cons_append, whole]

/-- Inserting adds one element. -/
theorem insert_perm (run : List Element) (element : Element) :
    (insert below run element).Perm (run ++ [element]) := by
  unfold insert
  dsimp only
  generalize bisect _ _ _ _ = position
  refine List.perm_middle.trans ?_
  rw [List.take_append_drop]
  exact (List.perm_append_singleton element run).symm

/-- Inserting a list adds its elements. -/
theorem foldl_insert_perm (run elements : List Element) :
    (elements.foldl (insert below) run).Perm (run ++ elements) := by
  induction elements generalizing run with
  | nil => simp
  | cons first rest inductionHypothesis =>
    refine (inductionHypothesis _).trans (((insert_perm below run first).append_right _).trans ?_)
    rw [List.append_assoc, List.singleton_append]

/-- Lengthening moves elements from the rest into the run. -/
theorem lengthen_perm (least : Nat) (run rest : List Element) :
    ((lengthen below least run rest).1 ++ (lengthen below least run rest).2).Perm (run ++ rest) := by
  unfold lengthen
  refine ((foldl_insert_perm below run _).append_right _).trans ?_
  rw [List.append_assoc, List.take_append_drop]

/-- The elements on a pile, those of the lowest run first. -/
def Pile.elements (pile : Pile Element) : List Element :=
  pile.lower.reverse.flatMap Prod.fst ++ pile.top

/-- Merging the topmost runs keeps the elements. -/
theorem collapse_perm (depth : Nat) (top : List Element) (patience : Nat)
    (lower : List (List Element × Nat)) :
    (collapse below depth top patience lower).elements.Perm
      (Pile.mk top lower patience).elements := by
  induction lower generalizing top patience with
  | nil => exact List.Perm.refl _
  | cons under rest inductionHypothesis =>
    obtain ⟨under, own⟩ := under
    have kept := merge_perm below patience under top
    unfold collapse
    generalize merge below patience under top = outcome at kept
    split
    · refine (inductionHypothesis outcome.1 outcome.2).trans ?_
      simp only [Pile.elements, List.reverse_cons, List.flatMap_append, List.flatMap_cons,
        List.flatMap_nil, List.append_nil, List.append_assoc]
      exact kept.append_left _
    · exact List.Perm.refl _

/-- Putting a run on the pile adds its elements. -/
theorem addRun_perm (size passed : Nat) (pile : Pile Element) (run : List Element) :
    (addRun below size passed pile run).elements.Perm (pile.elements ++ run) := by
  unfold addRun
  simp only [Pile.elements, List.reverse_cons, List.flatMap_append, List.flatMap_cons,
    List.flatMap_nil, List.append_nil]
  exact (collapse_perm below _ pile.top pile.patience pile.lower).append_right run

/-- Merging all keeps the elements. -/
theorem mergeAll_perm (patience : Nat) (top : List Element) (lower : List (List Element × Nat)) :
    (mergeAll below patience top lower).Perm (Pile.mk top lower patience).elements := by
  fun_induction mergeAll below patience top lower with
  | case1 => exact List.Perm.refl _
  | case2 patience top under =>
    simpa [Pile.elements] using merge_perm below patience under top
  | case3 patience top under depth lowest other rest shorter merged next found inductionHypothesis =>
    refine inductionHypothesis.trans ?_
    have kept := merge_perm below patience lowest under
    rw [found] at kept
    simp only [Pile.elements, List.reverse_cons, List.flatMap_append, List.flatMap_cons,
      List.flatMap_nil, List.append_nil, List.append_assoc]
    rw [← List.append_assoc lowest]
    exact (kept.append_right top).append_left _
  | case4 patience top under depth lowest other rest longer merged next found inductionHypothesis =>
    refine inductionHypothesis.trans ?_
    have kept := merge_perm below patience under top
    rw [found] at kept
    simp only [Pile.elements, List.reverse_cons, List.flatMap_append, List.flatMap_cons,
      List.flatMap_nil, List.append_nil, List.append_assoc]
    exact (kept.append_left lowest).append_left _

/-- Sorting the rest of a list keeps the elements. -/
theorem sortRest_perm (size least fuel passed : Nat) (pile : Pile Element) (rest : List Element) :
    (sortRest below size least fuel passed pile rest).Perm (pile.elements ++ rest) := by
  fun_induction sortRest below size least fuel passed pile rest with
  | case1 passed pile rest => exact (mergeAll_perm below _ _ _).append_right rest
  | case2 fuel passed pile => simpa using mergeAll_perm below pile.patience pile.top pile.lower
  | case3 fuel passed pile first rest found after taken run following lengthened
      inductionHypothesis =>
    have run_rest := takeRun_perm below (first :: rest)
    have longer := lengthen_perm below least found after
    rw [taken] at run_rest
    rw [lengthened] at longer
    refine inductionHypothesis.trans (((addRun_perm below size passed pile run).append_right _).trans
      ?_)
    rw [List.append_assoc]
    exact (longer.trans run_rest).append_left _

/-- Sorting keeps the elements, whatever the comparison is. -/
theorem sort_perm (elements : List Element) : (sort below elements).Perm elements := by
  unfold sort
  refine (sortRest_perm below _ _ _ _ _ _).trans ?_
  simp only [Pile.elements, List.reverse_nil, List.flatMap_nil, List.nil_append]
  exact (lengthen_perm below _ _ _).trans (takeRun_perm below elements)

/-- Sorting in descending order keeps the elements as well. -/
theorem sortDescending_perm (elements : List Element) :
    (sortDescending below elements).Perm elements :=
  (List.reverse_perm _).trans ((sort_perm below _).trans (List.reverse_perm elements))

end WordArithmetic.Sorting
