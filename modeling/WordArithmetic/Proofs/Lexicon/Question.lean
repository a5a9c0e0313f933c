/-
This file says what questions look like in normal form, and which words are numbers.

In normal form single spaces stand between words and nowhere else, and no other character is blank.
So whatever is cut off at a space leaves a text in normal form that is not empty. A word is a number
if it is a numeral or has the form of a decimal.
-/

import Mathlib.Data.List.TakeWhile
import WordArithmetic.Lexicon.Question

namespace WordArithmetic

namespace Question

/-! ### The normal form -/

/-- A text in normal form: it does not begin with a space, every space has another character behind
it, and no other character is blank. -/
structure IsNormal (text : List Char) : Prop where
  start : text.head? ≠ some ' '
  spaced : ∀ before after, text = before ++ ' ' :: after → after ≠ [] ∧ after.head? ≠ some ' '
  plain : ∀ character ∈ text, Text.isBlank character = true → character = ' '

/-- A word without blanks. -/
structure IsUnbroken (word : List Char) : Prop where
  nonempty : word ≠ []
  plain : ∀ character ∈ word, Text.isBlank character = false

theorem IsNormal.nil : IsNormal [] where
  start := nofun
  spaced before _ split := absurd split.symm (List.append_ne_nil_of_right_ne_nil before nofun)
  plain := List.forall_mem_nil _

namespace IsUnbroken

variable {word : List Char}

theorem space_not_mem (unbroken : IsUnbroken word) : ' ' ∉ word := by
  intro member
  have plain := unbroken.plain ' ' member
  rw [show Text.isBlank ' ' = true by decide] at plain
  cases plain

theorem head?_ne (unbroken : IsUnbroken word) (rest : List Char) :
    (word ++ rest).head? ≠ some ' ' := by
  obtain ⟨first, others, rfl⟩ := List.exists_cons_of_ne_nil unbroken.nonempty
  rintro equal
  obtain rfl := Option.some.inj equal
  exact unbroken.space_not_mem List.mem_cons_self

/-- A word alone is in normal form. -/
theorem isNormal (unbroken : IsUnbroken word) : IsNormal word where
  start := by
    have start := unbroken.head?_ne []
    rwa [List.append_nil] at start
  spaced := by
    rintro before after rfl
    exact absurd (List.mem_append_right _ List.mem_cons_self) unbroken.space_not_mem
  plain := by
    intro character member blank
    rw [unbroken.plain character member] at blank
    cases blank

/-- A word and a space before a text in normal form make a text in normal form. -/
theorem isNormal_append (unbroken : IsUnbroken word) {rest : List Char} (normal : IsNormal rest)
    (present : rest ≠ []) : IsNormal (word ++ ' ' :: rest) where
  start := unbroken.head?_ne _
  spaced := by
    intro before after split
    rcases List.append_eq_append_iff.1 split with ⟨more, rfl, tail⟩ | ⟨more, rfl, tail⟩
    · cases more with
      | nil =>
        obtain rfl := (List.cons.inj tail).2
        exact ⟨present, normal.start⟩
      | cons first more => exact normal.spaced more after (List.cons.inj tail).2
    · cases more with
      | nil =>
        obtain rfl := (List.cons.inj tail).2
        exact ⟨present, normal.start⟩
      | cons first more =>
        obtain rfl := (List.cons.inj tail).1
        exact absurd (List.mem_append_right _ List.mem_cons_self) unbroken.space_not_mem
  plain := by
    intro character member blank
    rcases List.mem_append.1 member with inside | behind
    · exact unbroken.isNormal.plain character inside blank
    · rcases List.mem_cons.1 behind with rfl | later
      · rfl
      · exact normal.plain character later blank

end IsUnbroken

/-- What follows a space of a text in normal form is in normal form and not empty. -/
theorem IsNormal.behind {before rest : List Char} (normal : IsNormal (before ++ ' ' :: rest)) :
    IsNormal rest ∧ rest ≠ [] := by
  obtain ⟨present, start⟩ := normal.spaced before rest rfl
  refine ⟨⟨start, fun more after split => ?_, fun character member => ?_⟩, present⟩
  · refine normal.spaced (before ++ ' ' :: more) after ?_
    rw [split, List.append_assoc, List.cons_append]
  · exact normal.plain character (List.mem_append_right _ (List.mem_cons_of_mem _ member))

/-- The words of a text are without blanks. -/
theorem isUnbroken_of_mem_wordsFrom {current rest word : List Char}
    (plain : ∀ character ∈ current, Text.isBlank character = false)
    (member : word ∈ wordsFrom current rest) : IsUnbroken word := by
  have finished : ∀ current : List Char, current.isEmpty = false →
      (∀ character ∈ current, Text.isBlank character = false) → IsUnbroken current.reverse := by
    intro current some plain
    refine ⟨fun none => ?_, fun character inside => plain character (List.mem_reverse.1 inside)⟩
    rw [List.reverse_eq_nil_iff.1 none] at some
    cases some
  induction rest generalizing current with
  | nil =>
    rw [wordsFrom] at member
    split at member
    · cases member
    · rename_i some
      obtain rfl := List.mem_singleton.1 member
      exact finished current (Bool.eq_false_iff.2 some) plain
  | cons character rest hypothesis =>
    rw [wordsFrom] at member
    split at member
    · split at member
      · exact hypothesis (List.forall_mem_nil _) member
      · rename_i some
        rcases List.mem_cons.1 member with rfl | later
        · exact finished current (Bool.eq_false_iff.2 some) plain
        · exact hypothesis (List.forall_mem_nil _) later
    · rename_i visible
      exact hypothesis (List.forall_mem_cons.2 ⟨Bool.eq_false_iff.2 visible, plain⟩) member

/-- Words that are joined by spaces are in normal form. -/
theorem isNormal_intercalate {words : List (List Char)} (unbroken : ∀ word ∈ words, IsUnbroken word) :
    IsNormal ([' '].intercalate words) ∧ ([' '].intercalate words = [] → words = []) := by
  induction words with
  | nil => exact ⟨IsNormal.nil, fun _ => rfl⟩
  | cons first rest hypothesis =>
    obtain ⟨here, there⟩ := List.forall_mem_cons.1 unbroken
    obtain ⟨normal, none⟩ := hypothesis there
    cases rest with
    | nil =>
      rw [List.intercalate_singleton]
      exact ⟨here.isNormal, fun empty => absurd empty here.nonempty⟩
    | cons second rest =>
      rw [List.intercalate_cons_cons, List.append_assoc, List.singleton_append]
      refine ⟨here.isNormal_append normal fun empty => ?_, fun empty => ?_⟩
      · cases none empty
      · exact absurd (List.append_eq_nil_iff.1 empty).1 here.nonempty

theorem toList_normalize (question : String) :
    (normalize question).toList =
      [' '].intercalate (wordsFrom [] (spaceMarks (Text.lowerCase question).toList)) := by
  have same : String.toList ∘ String.ofList = id := funext fun _ => String.toList_ofList
  rw [normalize, String.toList_intercalate, List.map_map, same, List.map_id]
  rfl

/-- The normal form of a question is in normal form. -/
theorem isNormal_normalize (question : String) : IsNormal (normalize question).toList := by
  rw [toList_normalize]
  exact (isNormal_intercalate fun word member =>
    isUnbroken_of_mem_wordsFrom (List.forall_mem_nil _) member).1

/-! ### Numbers -/

/-- Whether all characters of a text are digits, and there is one. -/
def IsDigits (text : List Char) : Prop :=
  text ≠ [] ∧ ∀ character ∈ text, character.isDigit = true

/-- Digits, with or without a point and digits behind it. -/
def IsDecimal (text : List Char) : Prop :=
  ∃ whole, IsDigits whole ∧
    (text = whole ∨ ∃ fraction, IsDigits fraction ∧ text = whole ++ '.' :: fraction)

/-- A word is a number if it is a numeral or a decimal. -/
def IsNumber (word : String) : Prop :=
  word ∈ numerals ∨ IsDecimal word.toList

/-- What is read as digits are the decimals. -/
theorem isSome_readDigits? {text : List Char} :
    (readDigits? text).isSome = true ↔ IsDecimal text := by
  constructor
  · intro read
    unfold readDigits? at read
    dsimp only at read
    split at read
    · cases read
    · rename_i some
      have whole : IsDigits (text.takeWhile Char.isDigit) :=
        ⟨fun none => some (List.isEmpty_iff.2 none), fun _ member => List.mem_takeWhile_imp member⟩
      have parts := List.takeWhile_append_dropWhile (p := Char.isDigit) (l := text)
      refine ⟨_, whole, ?_⟩
      rw [Option.isSome_map] at read
      split at read
      · rename_i behind
        rw [behind, List.append_nil] at parts
        exact Or.inl parts.symm
      · rename_i digits behind
        split at read
        · rename_i fraction
          obtain ⟨present, all⟩ := Bool.and_eq_true_iff.1 fraction
          rw [behind] at parts
          refine Or.inr ⟨digits, ⟨fun none => ?_, List.all_eq_true.1 all⟩, parts.symm⟩
          rw [none] at present
          cases present
        · cases read
      · cases read
  · rintro ⟨whole, ⟨present, digits⟩, rfl | ⟨fraction, ⟨some, all⟩, rfl⟩⟩
    · have taken : text.takeWhile Char.isDigit = text := List.takeWhile_eq_self_iff.2 digits
      have left : text.dropWhile Char.isDigit = [] := List.dropWhile_eq_nil_iff.2 digits
      rw [readDigits?, taken, left, if_neg (mt List.isEmpty_iff.1 present)]
      rfl
    · have taken : (whole ++ '.' :: fraction).takeWhile Char.isDigit = whole := by
        rw [List.takeWhile_append_of_pos digits]
        exact List.append_nil whole
      have left : (whole ++ '.' :: fraction).dropWhile Char.isDigit = '.' :: fraction :=
        List.dropWhile_append_of_pos digits
      have fractional : (!fraction.isEmpty && fraction.all Char.isDigit) = true := by
        rw [List.all_eq_true.2 all, Bool.and_true, Bool.not_eq_true', List.isEmpty_eq_false_iff]
        exact some
      rw [readDigits?, taken, left, if_neg (mt List.isEmpty_iff.1 present), Option.isSome_map]
      exact congrArg Option.isSome (if_pos fractional)

/-- What is read as a number are the words that are numbers, if they have no line feed. -/
theorem isSome_readNumber? {word : String} (sameLine : '\n' ∉ word.toList) :
    (readNumber? word).isSome = true ↔ IsNumber word := by
  have listed : (numerals.findIdx? (· == word)).isSome = true ↔ word ∈ numerals := by
    rw [List.findIdx?_isSome, List.any_eq_true]
    exact ⟨fun ⟨numeral, member, same⟩ => beq_iff_eq.1 same ▸ member,
      fun member => ⟨word, member, beq_self_eq_true word⟩⟩
  have kept : (word.toList.getLast? == some '\n') = false :=
    beq_false_of_ne fun last => sameLine (List.mem_of_getLast? last)
  unfold readNumber? IsNumber
  rw [← listed]
  cases numerals.findIdx? (· == word) with
  | some place => exact iff_of_true rfl (Or.inl rfl)
  | none =>
    dsimp only
    rw [kept, if_neg Bool.false_ne_true, isSome_readDigits?]
    exact (or_iff_right Bool.false_ne_true).symm

end Question

end WordArithmetic
