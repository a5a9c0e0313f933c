/-
This file gives a vector an index, for the many look-ups of a search.

An index is a hash map made once from the entries of a vector. The main statement says that it
reads like the vector itself, so that nothing but the running time depends on it.
-/

import Std.Data.HashMap
import WordArithmetic.FeatureVector.Basic

namespace WordArithmetic

namespace FeatureVector

variable {Number : Type}

/-- The entries of a vector in a hash map. -/
def index (vector : FeatureVector Number) : Std.HashMap Symbol Number :=
  Std.HashMap.ofList vector.entries

/-- The weight of a key in the index of a vector is its weight in the vector. -/
theorem getD_index [Zero Number] (vector : FeatureVector Number) (key : Symbol) :
    vector.index.getD key 0 = vector.weight key := by
  unfold index weight Table.get?
  by_cases present : key ∈ vector.entries.map Prod.fst
  · obtain ⟨⟨other, value⟩, member, rfl⟩ := List.mem_map.1 present
    have distinct : vector.entries.Pairwise fun left right => (left.1 == right.1) = false := by
      have pairwise := List.pairwise_map.1 vector.distinct
      exact pairwise.imp fun different => by simpa using different
    rw [Std.HashMap.getD_ofList_of_mem (k := other) (by simp) distinct member,
      entryOf?_of_mem vector.distinct member]
    rfl
  · rw [Std.HashMap.getD_ofList_of_contains_eq_false (by simpa using present),
      entryOf?_eq_none present]
    rfl

end FeatureVector

end WordArithmetic
