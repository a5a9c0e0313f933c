/-
This file holds the tables of the library: finite maps that remember the order in which their keys
were first entered.

The order of a table can be seen wherever one is printed or summed over, so it is part of the
data: entering a known key keeps its place and replaces its value, entering a new one puts it
last. The keys of a table are distinct by construction, which is what makes reading a table as a
function, and a sum over its entries, independent of how the table was built.
-/

namespace WordArithmetic

/-! ### Entering a key into a list of entries -/

section Entries

variable {Key Entry : Type} [DecidableEq Key]

/-- Replaces the entry of a key, or adds one at the end. -/
def putEntry (key : Key) (entry : Entry) : List (Key × Entry) → List (Key × Entry)
  | [] => [(key, entry)]
  | (other, old) :: rest =>
    if other = key then (key, entry) :: rest else (other, old) :: putEntry key entry rest

/-- The first entry of a key. -/
def entryOf? (key : Key) : List (Key × Entry) → Option Entry
  | [] => none
  | (other, entry) :: rest => if other = key then some entry else entryOf? key rest

/-- A known key keeps its place and a new one comes last. -/
theorem keys_putEntry (key : Key) (entry : Entry) (entries : List (Key × Entry)) :
    (putEntry key entry entries).map Prod.fst =
      if key ∈ entries.map Prod.fst then entries.map Prod.fst
      else entries.map Prod.fst ++ [key] := by
  induction entries with
  | nil => rfl
  | cons first rest inductionHypothesis =>
    obtain ⟨other, old⟩ := first
    by_cases same : other = key
    · subst same
      simp [putEntry]
    · have different : key ≠ other := fun equal => same equal.symm
      simp only [putEntry, same, if_false, List.map_cons, inductionHypothesis, List.mem_cons,
        different, false_or]
      split <;> rfl

/-- Entering a key keeps the keys distinct. -/
theorem nodup_putEntry (key : Key) (entry : Entry) {entries : List (Key × Entry)}
    (distinct : (entries.map Prod.fst).Nodup) :
    ((putEntry key entry entries).map Prod.fst).Nodup := by
  rw [keys_putEntry]
  split
  · exact distinct
  · rename_i missing
    refine List.nodup_append.2 ⟨distinct, by simp, fun left leftMember right rightMember => ?_⟩
    rw [List.mem_singleton] at rightMember
    subst rightMember
    exact fun equal => missing (equal ▸ leftMember)

/-- What is read after entering a key: the new entry there, the old ones elsewhere. -/
theorem entryOf?_putEntry (key other : Key) (entry : Entry) (entries : List (Key × Entry)) :
    entryOf? other (putEntry key entry entries) =
      if key = other then some entry else entryOf? other entries := by
  induction entries with
  | nil => rfl
  | cons first rest inductionHypothesis =>
    obtain ⟨place, old⟩ := first
    by_cases same : place = key
    · subst same
      simp only [putEntry, if_true, entryOf?]
      split <;> rfl
    · simp only [putEntry, same, if_false, entryOf?, inductionHypothesis]
      by_cases here : place = other
      · subst here
        simp [Ne.symm same]
      · simp [here]

/-- An entry of a list with distinct keys is what is read under its key. -/
theorem entryOf?_of_mem {entries : List (Key × Entry)}
    (distinct : (entries.map Prod.fst).Nodup) {key : Key} {entry : Entry}
    (member : (key, entry) ∈ entries) : entryOf? key entries = some entry := by
  induction entries with
  | nil => cases member
  | cons first rest inductionHypothesis =>
    obtain ⟨other, old⟩ := first
    simp only [List.map_cons, List.nodup_cons] at distinct
    rcases List.mem_cons.1 member with head | tail
    · injection head with sameKey sameEntry
      subst sameKey
      subst sameEntry
      simp [entryOf?]
    · have different : other ≠ key := fun equal =>
        distinct.1 (equal ▸ List.mem_map_of_mem tail)
      simp [entryOf?, different, inductionHypothesis distinct.2 tail]

/-- Nothing is read under a key that no entry has. -/
theorem entryOf?_eq_none {entries : List (Key × Entry)}
    {key : Key} (missing : key ∉ entries.map Prod.fst) : entryOf? key entries = none := by
  induction entries with
  | nil => rfl
  | cons first rest inductionHypothesis =>
    obtain ⟨other, old⟩ := first
    simp only [List.map_cons, List.mem_cons, not_or] at missing
    simp [entryOf?, Ne.symm missing.1, inductionHypothesis missing.2]

end Entries

/-- A finite map with distinct keys, in the order of their first entry. -/
structure Table (Key Entry : Type) where
  entries : List (Key × Entry)
  distinct : (entries.map Prod.fst).Nodup

namespace Table

variable {Key Entry Other : Type}

/-- The table without keys. -/
def empty : Table Key Entry :=
  ⟨[], List.nodup_nil⟩

instance : Inhabited (Table Key Entry) := ⟨empty⟩

/-- The keys, in the order of their first entry. -/
def keys (table : Table Key Entry) : List Key :=
  table.entries.map Prod.fst

/-- The entries without their keys, in the same order. -/
def values (table : Table Key Entry) : List Entry :=
  table.entries.map Prod.snd

/-- The number of keys. -/
def size (table : Table Key Entry) : Nat :=
  table.entries.length

/-- Keeps the entries that pass a test. -/
def filter (table : Table Key Entry) (keep : Key → Entry → Bool) : Table Key Entry :=
  ⟨table.entries.filter fun (key, entry) => keep key entry,
    List.Pairwise.sublist (List.Sublist.map _ List.filter_sublist) table.distinct⟩

/-- Changes every entry, and no key. -/
def mapValues (table : Table Key Entry) (change : Key → Entry → Other) : Table Key Other :=
  ⟨table.entries.map fun (key, entry) => (key, change key entry), by
    have same : (table.entries.map fun (key, entry) => (key, change key entry)).map Prod.fst =
        table.entries.map Prod.fst := by
      simp [List.map_map, Function.comp_def]
    rw [same]
    exact table.distinct⟩

variable [DecidableEq Key]

/-- The entry of a key. -/
def get? (table : Table Key Entry) (key : Key) : Option Entry :=
  entryOf? key table.entries

/-- Whether a key has an entry. -/
def contains (table : Table Key Entry) (key : Key) : Bool :=
  (table.get? key).isSome

/-- Enters a key. -/
def insert (table : Table Key Entry) (key : Key) (entry : Entry) : Table Key Entry :=
  ⟨putEntry key entry table.entries, nodup_putEntry key entry table.distinct⟩

/-- Enters keys from left to right, so that the last entry of a repeated key stays. -/
def insertAll (table : Table Key Entry) (entries : List (Key × Entry)) : Table Key Entry :=
  entries.foldl (fun current (key, entry) => current.insert key entry) table

/-- The table of a list of entries. -/
def ofList (entries : List (Key × Entry)) : Table Key Entry :=
  empty.insertAll entries

@[simp]
theorem get?_empty (key : Key) : (empty : Table Key Entry).get? key = none := rfl

theorem get?_insert (table : Table Key Entry) (key other : Key) (entry : Entry) :
    (table.insert key entry).get? other = if key = other then some entry else table.get? other :=
  entryOf?_putEntry key other entry table.entries

end Table

end WordArithmetic
