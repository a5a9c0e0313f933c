/-
This file shows that a lexicon knows the meanings of the words that it cuts a question into.

The names of meanings that a parser makes its shifts from are listed once each, and they cover
every meaning of every word. If the meanings of the lexicon have types, so have those of the words.
-/

import WordArithmetic.Lexicon.Basic
import WordArithmetic.Proofs.Table

namespace WordArithmetic

namespace Lexicon

/-- The names of meanings are listed once each. -/
theorem nodup_macros (lexicon : Lexicon) : lexicon.macros.Nodup :=
  (List.mergeSort_perm _ _).nodup_iff.2 (nodup_eraseDups _)

theorem mem_macros {lexicon : Lexicon} {name : String} :
    name ∈ lexicon.macros ↔
      name = numberMacro ∨ ∃ meanings ∈ lexicon.phrases.values, name ∈ meanings.keys := by
  rw [macros, (List.mergeSort_perm _ _).mem_iff, List.mem_eraseDups, List.mem_cons,
    List.mem_flatMap]

/-- A meaning of the word at the front of a text is the number that the word stands for, or an
entry of a phrase. -/
theorem get?_nextWord {lexicon : Lexicon} {text : List Char} {name : String}
    {term : Option Term} (found : (lexicon.nextWord text).meanings.get? name = some term) :
    (name = numberMacro ∧ ∃ value, term = some (Term.number value)) ∨
      ∃ meanings ∈ lexicon.phrases.values, meanings.get? name = some term := by
  unfold nextWord at found
  split at found
  · rename_i phrase _
    cases known : lexicon.phrases.get? phrase with
    | none =>
      rw [known] at found
      cases found
    | some meanings =>
      rw [known] at found
      exact Or.inr ⟨meanings, Table.mem_values_of_get? known, found⟩
  · unfold numberMeanings? at found
    cases read : Question.readNumber? (String.ofList (text.takeWhile (· != ' '))) with
    | none =>
      simp only [read] at found
      cases found
    | some value =>
      simp only [read, Option.map_some, Option.getD_some, Table.ofList, Table.insertAll,
        List.foldl_cons, List.foldl_nil, Table.get?_insert, Table.get?_empty] at found
      split at found
      · rename_i same
        exact Or.inl ⟨same.symm, value, (Option.some.inj found).symm⟩
      · cases found

/-- The meanings of the words of a question come from the lexicon. -/
theorem get?_words {lexicon : Lexicon} {question : String} {word : Word}
    (member : word ∈ lexicon.words question) {name : String} {term : Option Term}
    (found : word.meanings.get? name = some term) :
    (name = numberMacro ∧ ∃ value, term = some (Term.number value)) ∨
      ∃ meanings ∈ lexicon.phrases.values, meanings.get? name = some term := by
  rw [words] at member
  generalize (Question.normalize question).toList = text at member
  fun_induction lexicon.segment text with
  | case1 => cases member
  | case2 first rest next hypothesis =>
    rcases List.mem_cons.1 member with rfl | later
    · exact get?_nextWord found
    · exact hypothesis later

/-- A parser has a shift for every meaning of every word. -/
theorem mem_macros_of_contains {lexicon : Lexicon} {question : String} {word : Word}
    (member : word ∈ lexicon.words question) {name : String}
    (has : word.meanings.contains name = true) : name ∈ lexicon.macros := by
  obtain ⟨term, found⟩ := Table.contains_iff.1 has
  rcases get?_words member found with ⟨rfl, _⟩ | ⟨meanings, known, entered⟩
  · exact mem_macros.2 (Or.inl rfl)
  · exact mem_macros.2 (Or.inr ⟨meanings, known, Table.mem_keys_of_get? entered⟩)

/-- If the terms of a lexicon have types, the meanings of its words have types. -/
theorem exists_logicalType {lexicon : Lexicon}
    (typed : ∀ meanings ∈ lexicon.phrases.values, ∀ name term,
      meanings.get? name = some (some term) → ∃ type, term.typecheck = .ok type)
    {question : String} {word : Word} (member : word ∈ lexicon.words question) {name : String}
    (has : word.meanings.contains name = true) : ∃ type, word.logicalType name = .ok type := by
  obtain ⟨term, found⟩ := Table.contains_iff.1 has
  cases term with
  | none => exact ⟨TypeCode.untyped, by rw [Word.logicalType, found]⟩
  | some term =>
    have same : word.logicalType name = term.typecheck := by rw [Word.logicalType, found]
    rw [same]
    rcases get?_words member found with ⟨_, value, equal⟩ | ⟨meanings, known, entered⟩
    · obtain rfl := Option.some.inj equal
      exact ⟨_, rfl⟩
    · exact typed meanings known name term entered

end Lexicon

end WordArithmetic
