/-
This file reads tables as functions of their keys.

What is read under a key is an entry of the table, and after the entries of another table have been
entered one by one it is the one of that table, if there is one.
-/

import Mathlib.Data.List.Nodup
import WordArithmetic.Table

namespace WordArithmetic

/-- Erasing the repetitions of a list leaves none. -/
theorem nodup_eraseDups {Element : Type} [BEq Element] [LawfulBEq Element]
    (elements : List Element) : elements.eraseDups.Nodup := by
  match elements with
  | [] => exact List.nodup_nil
  | first :: rest =>
    rw [List.eraseDups_cons]
    refine List.nodup_cons.2 ⟨?_, nodup_eraseDups _⟩
    rw [List.mem_eraseDups]
    simp
termination_by elements.length
decreasing_by exact Nat.lt_succ_of_le (List.length_filter_le _ _)

variable {Key Entry : Type} [DecidableEq Key]

/-- What is read under a key is an entry. -/
theorem mem_of_entryOf? {entries : List (Key × Entry)} {key : Key} {entry : Entry}
    (found : entryOf? key entries = some entry) : (key, entry) ∈ entries := by
  induction entries with
  | nil => cases found
  | cons first rest hypothesis =>
    obtain ⟨other, old⟩ := first
    rw [entryOf?] at found
    split at found
    · rename_i same
      obtain rfl := same
      obtain rfl := Option.some.inj found
      exact List.mem_cons_self
    · exact List.mem_cons_of_mem _ (hypothesis found)

/-- Changing the entries of a list changes what is read in it. -/
theorem entryOf?_map {Other : Type} (change : Key → Entry → Other) (key : Key)
    (entries : List (Key × Entry)) :
    entryOf? key (entries.map fun (other, entry) => (other, change other entry)) =
      (entryOf? key entries).map (change key) := by
  induction entries with
  | nil => rfl
  | cons first rest hypothesis =>
    obtain ⟨other, entry⟩ := first
    rw [List.map_cons, entryOf?, entryOf?, hypothesis]
    by_cases same : other = key
    · rw [if_pos same, if_pos same, same]
      rfl
    · rw [if_neg same, if_neg same]

namespace Table

variable {table : Table Key Entry} {key : Key} {entry : Entry}

theorem mem_entries_of_get? (found : table.get? key = some entry) :
    (key, entry) ∈ table.entries :=
  mem_of_entryOf? found

theorem mem_keys_of_get? (found : table.get? key = some entry) : key ∈ table.keys :=
  List.mem_map_of_mem (f := Prod.fst) (mem_entries_of_get? found)

theorem mem_values_of_get? (found : table.get? key = some entry) : entry ∈ table.values :=
  List.mem_map_of_mem (f := Prod.snd) (mem_entries_of_get? found)

/-- Every value is read under some key. -/
theorem exists_get?_of_mem_values (member : entry ∈ table.values) :
    ∃ key, table.get? key = some entry := by
  obtain ⟨⟨key, value⟩, place, rfl⟩ := List.mem_map.1 member
  exact ⟨key, entryOf?_of_mem table.distinct place⟩

/-- Entering distinct keys hides what was read under them before, and nothing else. -/
theorem get?_insertAll (table : Table Key Entry) {entries : List (Key × Entry)}
    (distinct : (entries.map Prod.fst).Nodup) (key : Key) :
    (table.insertAll entries).get? key = (entryOf? key entries).or (table.get? key) := by
  induction entries generalizing table with
  | nil => rfl
  | cons first rest hypothesis =>
    obtain ⟨other, entry⟩ := first
    obtain ⟨absent, distinctRest⟩ := List.nodup_cons.1 distinct
    have step := hypothesis (table.insert other entry) distinctRest
    rw [insertAll, List.foldl_cons]
    rw [insertAll] at step
    rw [step, get?_insert, entryOf?]
    by_cases same : other = key
    · have missing : entryOf? key rest = none := by
        refine Option.eq_none_iff_forall_ne_some.2 fun found known => ?_
        have member := List.mem_map_of_mem (f := Prod.fst) (mem_of_entryOf? known)
        exact absent (same ▸ member)
      rw [if_pos same, if_pos same, missing]
      rfl
    · rw [if_neg same, if_neg same]

/-- Changing every entry of a table changes what is read. -/
theorem get?_mapValues {Other : Type} (table : Table Key Entry) (change : Key → Entry → Other)
    (key : Key) : (table.mapValues change).get? key = (table.get? key).map (change key) :=
  entryOf?_map change key table.entries

omit [DecidableEq Key] in
theorem mem_entries_filter {keep : Key → Entry → Bool} :
    (key, entry) ∈ (table.filter keep).entries ↔
      (key, entry) ∈ table.entries ∧ keep key entry = true :=
  List.mem_filter

/-- What is read after filtering is what was read before, if it passes. -/
theorem get?_filter (table : Table Key Entry) (keep : Key → Entry → Bool) (key : Key) :
    (table.filter keep).get? key = (table.get? key).filter (keep key) := by
  have onlyOld : ∀ entry, (key, entry) ∈ (table.filter keep).entries →
      table.get? key = some entry ∧ keep key entry = true := by
    intro entry member
    obtain ⟨inside, passes⟩ := List.mem_filter.1 member
    exact ⟨entryOf?_of_mem table.distinct inside, passes⟩
  have missing : (∀ entry, (key, entry) ∉ (table.filter keep).entries) →
      (table.filter keep).get? key = none := by
    intro absent
    refine entryOf?_eq_none fun member => ?_
    obtain ⟨⟨_, entry⟩, inside, rfl⟩ := List.mem_map.1 member
    exact absent entry inside
  cases found : table.get? key with
  | none =>
    refine missing fun entry member => ?_
    rw [(onlyOld entry member).1] at found
    cases found
  | some entry =>
    cases passes : keep key entry with
    | true =>
      have kept : (key, entry) ∈ (table.filter keep).entries :=
        List.mem_filter.2 ⟨mem_entries_of_get? found, passes⟩
      rw [get?, entryOf?_of_mem (table.filter keep).distinct kept, Option.filter_some,
        if_pos passes]
    | false =>
      rw [Option.filter_some, if_neg (Bool.eq_false_iff.1 passes)]
      refine missing fun other member => ?_
      obtain ⟨known, kept⟩ := onlyOld other member
      obtain rfl := Option.some.inj (known.symm.trans found)
      rw [passes] at kept
      cases kept

theorem contains_iff : table.contains key = true ↔ ∃ entry, table.get? key = some entry :=
  Option.isSome_iff_exists

theorem contains_insert {other : Key} :
    (table.insert key entry).contains other = true ↔ key = other ∨ table.contains other = true := by
  rw [contains, contains, get?_insert]
  by_cases same : key = other
  · rw [if_pos same]
    exact iff_of_true rfl (.inl same)
  · rw [if_neg same, or_iff_right same]

end Table

end WordArithmetic
