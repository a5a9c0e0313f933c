/-
This file says which texts are their own normal form.

A tidy word is a punctuation mark alone or a run of characters that are neither marks nor blank, and
a tidy text is tidy words with single spaces between them. The normal form of every question is
tidy, and so is every part of it between spaces; a lowered text is its own normal form exactly if it
is tidy. A text that is not blank has a normal form that is not empty, since lower case never turns
a visible character into blanks.
-/

import WordArithmetic.Proofs.Lexicon.Question

namespace WordArithmetic

namespace Question

open Text

/-! ### Tidy texts -/

/-- A word in which a punctuation mark stands alone. -/
structure IsTidyWord (word : List Char) : Prop where
  unbroken : IsUnbroken word
  alone : ∀ mark ∈ word, isMark mark = true → word = [mark]

/-- Tidy words with single spaces between them. -/
def IsTidy (text : List Char) : Prop :=
  ∃ words, (∀ word ∈ words, IsTidyWord word) ∧ text = [' '].intercalate words

theorem IsTidy.isNormal {text : List Char} (tidy : IsTidy text) : IsNormal text := by
  obtain ⟨words, each, rfl⟩ := tidy
  exact (isNormal_intercalate fun word member => (each word member).unbroken).1

theorem isBlank_of_isMark {character : Char} (mark : isMark character = true) :
    isBlank character = false := by
  simp only [isMark, Bool.or_eq_true, beq_iff_eq] at mark
  rcases mark with ((rfl | rfl) | rfl) | rfl <;> decide

theorem IsTidyWord.isTidy {word : List Char} (tidy : IsTidyWord word) : IsTidy word :=
  ⟨[word], List.forall_mem_singleton.2 tidy, (List.intercalate_singleton).symm⟩

/-- A tidy word and a space before a tidy text make a tidy text. -/
theorem IsTidyWord.isTidy_append {word rest : List Char} (tidy : IsTidyWord word)
    (tidyRest : IsTidy rest) (present : rest ≠ []) : IsTidy (word ++ ' ' :: rest) := by
  obtain ⟨words, each, rfl⟩ := tidyRest
  cases words with
  | nil => exact absurd rfl present
  | cons first words =>
    refine ⟨word :: first :: words, List.forall_mem_cons.2 ⟨tidy, each⟩, ?_⟩
    rw [List.intercalate_cons_cons, List.append_assoc, List.singleton_append]

/-- What stands before and behind a space of a tidy text is tidy. -/
theorem IsTidy.split {before after : List Char} (tidy : IsTidy (before ++ ' ' :: after)) :
    IsTidy before ∧ IsTidy after := by
  obtain ⟨words, each, same⟩ := tidy
  induction words generalizing before with
  | nil => exact absurd same (List.append_ne_nil_of_right_ne_nil before (List.cons_ne_nil _ _))
  | cons first rest hypothesis =>
    obtain ⟨here, there⟩ := List.forall_mem_cons.1 each
    have space := here.unbroken.space_not_mem
    cases rest with
    | nil =>
      rw [List.intercalate_singleton] at same
      rw [← same] at space
      exact absurd (List.mem_append_right _ List.mem_cons_self) space
    | cons second rest =>
      have tidyRest : IsTidy ([' '].intercalate (second :: rest)) := ⟨_, there, rfl⟩
      rw [List.intercalate_cons_cons, List.append_assoc, List.singleton_append] at same
      rcases List.append_eq_append_iff.1 same with ⟨more, rfl, tail⟩ | ⟨more, rfl, tail⟩
      · -- the space cannot lie in the first word, so the text before it is this word
        cases more with
        | nil =>
          rw [List.append_nil] at here
          rw [(List.cons.inj tail).2]
          exact ⟨here.isTidy, tidyRest⟩
        | cons character more =>
          rw [← (List.cons.inj tail).1] at space
          exact absurd (List.mem_append_right _ List.mem_cons_self) space
      · cases more with
        | nil =>
          rw [List.append_nil, ← (List.cons.inj tail).2]
          exact ⟨here.isTidy, tidyRest⟩
        | cons character more =>
          obtain ⟨rfl, later⟩ := List.cons.inj tail
          obtain ⟨tidyMore, tidyAfter⟩ := hypothesis there later.symm
          refine ⟨here.isTidy_append tidyMore ?_, tidyAfter⟩
          rintro rfl
          exact tidyRest.isNormal.start (by rw [later]; rfl)

/-! ### The words of a text -/

theorem wordsFrom_append_blank {blank : Char} (white : isBlank blank = true)
    (current first rest : List Char) :
    wordsFrom current (first ++ blank :: rest) = wordsFrom current first ++ wordsFrom [] rest := by
  induction first generalizing current with
  | nil =>
    simp only [List.nil_append, wordsFrom, white, if_true]
    split <;> rfl
  | cons character first hypothesis =>
    simp only [List.cons_append, wordsFrom, hypothesis]
    split
    · split <;> rfl
    · rfl

theorem wordsFrom_of_visible {word : List Char}
    (visible : ∀ character ∈ word, isBlank character = false) (current rest : List Char) :
    wordsFrom current (word ++ rest) = wordsFrom (word.reverse ++ current) rest := by
  induction word generalizing current with
  | nil => rfl
  | cons character word hypothesis =>
    obtain ⟨here, there⟩ := List.forall_mem_cons.1 visible
    rw [List.cons_append, wordsFrom, here, if_neg Bool.false_ne_true, hypothesis there,
      List.reverse_cons, List.append_assoc, List.singleton_append]

theorem wordsFrom_word {word : List Char} (unbroken : IsUnbroken word) :
    wordsFrom [] word = [word] := by
  have whole := wordsFrom_of_visible unbroken.plain [] []
  rw [List.append_nil, List.append_nil] at whole
  have some : word.reverse.isEmpty = false := by
    rw [List.isEmpty_reverse, List.isEmpty_eq_false_iff]
    exact unbroken.nonempty
  rw [whole, wordsFrom, some, if_neg Bool.false_ne_true, List.reverse_reverse]

theorem spaceMarks_append (first rest : List Char) :
    spaceMarks (first ++ rest) = spaceMarks first ++ spaceMarks rest :=
  List.flatMap_append

theorem spaceMarks_of_isMark {mark : Char} (isMark : isMark mark = true) :
    spaceMarks [mark] = [' ', mark, ' '] := by
  rw [spaceMarks, List.flatMap_singleton, if_pos isMark]

theorem spaceMarks_of_not_isMark {word : List Char}
    (plain : ∀ character ∈ word, isMark character = false) : spaceMarks word = word := by
  induction word with
  | nil => rfl
  | cons character word hypothesis =>
    obtain ⟨here, there⟩ := List.forall_mem_cons.1 plain
    have spaced := hypothesis there
    rw [spaceMarks] at spaced ⊢
    rw [List.flatMap_cons, here, if_neg Bool.false_ne_true, spaced]
    rfl

/-- A mark between spaces is a word. -/
theorem wordsFrom_mark {mark : Char} (isMark : isMark mark = true) (current rest : List Char) :
    wordsFrom current (spaceMarks [mark] ++ rest) =
      wordsFrom current [] ++ [mark] :: wordsFrom [] rest := by
  have space : isBlank ' ' = true := by decide
  have visible : IsUnbroken [mark] :=
    ⟨List.cons_ne_nil _ _, List.forall_mem_singleton.2 (isBlank_of_isMark isMark)⟩
  calc
    wordsFrom current (spaceMarks [mark] ++ rest) =
        wordsFrom current ([] ++ ' ' :: ([mark] ++ ' ' :: rest)) := by
      rw [spaceMarks_of_isMark isMark]
      rfl
    _ = wordsFrom current [] ++ (wordsFrom [] [mark] ++ wordsFrom [] rest) := by
      rw [wordsFrom_append_blank space, wordsFrom_append_blank space]
    _ = wordsFrom current [] ++ [mark] :: wordsFrom [] rest := by
      rw [wordsFrom_word visible]
      rfl

/-- A tidy word is a word of its own once the marks are set apart. -/
theorem IsTidyWord.wordsFrom_spaceMarks {word : List Char} (tidy : IsTidyWord word) :
    wordsFrom [] (spaceMarks word) = [word] := by
  by_cases marked : ∃ mark ∈ word, isMark mark = true
  · obtain ⟨mark, member, isMark⟩ := marked
    rw [tidy.alone mark member isMark, ← List.append_nil (spaceMarks [mark]),
      wordsFrom_mark isMark]
    rfl
  · have plain : ∀ character ∈ word, isMark character = false := fun character member =>
      Bool.eq_false_iff.2 fun mark => marked ⟨character, member, mark⟩
    rw [spaceMarks_of_not_isMark plain, wordsFrom_word tidy.unbroken]

/-- A tidy text has the words that it is made of. -/
theorem wordsFrom_intercalate {words : List (List Char)} (tidy : ∀ word ∈ words, IsTidyWord word) :
    wordsFrom [] (spaceMarks ([' '].intercalate words)) = words := by
  induction words with
  | nil => rfl
  | cons first rest hypothesis =>
    obtain ⟨here, there⟩ := List.forall_mem_cons.1 tidy
    cases rest with
    | nil => rw [List.intercalate_singleton, here.wordsFrom_spaceMarks]
    | cons second rest =>
      have space : spaceMarks [' '] = [' '] := by decide
      rw [List.intercalate_cons_cons, spaceMarks_append, spaceMarks_append, space,
        List.append_assoc, List.singleton_append, wordsFrom_append_blank (by decide),
        here.wordsFrom_spaceMarks, hypothesis there]
      rfl

theorem isTidyWord_of_mem_wordsFrom_nil {current word : List Char}
    (visible : ∀ character ∈ current, isBlank character = false)
    (plain : ∀ character ∈ current, isMark character = false)
    (member : word ∈ wordsFrom current []) : IsTidyWord word := by
  refine ⟨isUnbroken_of_mem_wordsFrom visible member, fun mark inside isMark => ?_⟩
  rw [wordsFrom] at member
  split at member
  · cases member
  · obtain rfl := List.mem_singleton.1 member
    rw [plain mark (List.mem_reverse.1 inside)] at isMark
    cases isMark

/-- The words of a text whose marks are set apart are tidy. -/
theorem isTidyWord_of_mem_wordsFrom {current text word : List Char}
    (visible : ∀ character ∈ current, isBlank character = false)
    (plain : ∀ character ∈ current, isMark character = false)
    (member : word ∈ wordsFrom current (spaceMarks text)) : IsTidyWord word := by
  induction text generalizing current with
  | nil => exact isTidyWord_of_mem_wordsFrom_nil visible plain member
  | cons character text hypothesis =>
    rw [← List.singleton_append, spaceMarks_append] at member
    by_cases mark : isMark character = true
    · rw [wordsFrom_mark mark, List.mem_append, List.mem_cons] at member
      rcases member with before | rfl | after
      · exact isTidyWord_of_mem_wordsFrom_nil visible plain before
      · refine ⟨⟨List.cons_ne_nil _ _, List.forall_mem_singleton.2 (isBlank_of_isMark mark)⟩,
          fun other inside _ => ?_⟩
        rw [List.mem_singleton.1 inside]
      · exact hypothesis (List.forall_mem_nil _) (List.forall_mem_nil _) after
    · have unmarked := Bool.eq_false_iff.2 mark
      rw [spaceMarks_of_not_isMark (List.forall_mem_singleton.2 unmarked)] at member
      by_cases blank : isBlank character = true
      · rw [← List.nil_append ([character] ++ spaceMarks text), List.singleton_append,
          wordsFrom_append_blank blank, List.mem_append] at member
        rcases member with before | after
        · exact isTidyWord_of_mem_wordsFrom_nil visible plain before
        · exact hypothesis (List.forall_mem_nil _) (List.forall_mem_nil _) after
      · have shown := Bool.eq_false_iff.2 blank
        rw [wordsFrom_of_visible (List.forall_mem_singleton.2 shown)] at member
        exact hypothesis (List.forall_mem_cons.2 ⟨shown, visible⟩)
          (List.forall_mem_cons.2 ⟨unmarked, plain⟩) member

/-! ### Normal forms -/

/-- The normal form of a question is tidy. -/
theorem isTidy_normalize (question : String) : IsTidy (normalize question).toList :=
  ⟨_, fun _ member => isTidyWord_of_mem_wordsFrom (List.forall_mem_nil _) (List.forall_mem_nil _)
    member, toList_normalize question⟩

/-- A text in lower case is its own normal form exactly if it is tidy. -/
theorem normalize_eq_lowerCase_iff (text : String) :
    normalize text = lowerCase text ↔ IsTidy (lowerCase text).toList := by
  constructor
  · intro same
    rw [← same]
    exact isTidy_normalize text
  · rintro ⟨words, tidy, same⟩
    rw [← String.toList_inj, toList_normalize, same, wordsFrom_intercalate tidy]

end Question

/-! ### Visible characters -/

namespace Text

/-- No capital letter of the table is lowered to a blank. -/
theorem lowerStrides_apart : ∀ stride ∈ lowerStrides, ∀ range ∈ blankRanges,
    (stride.last : Int) + stride.shift < range.1 ∨
      (range.2 : Int) < stride.first + stride.shift := by
  decide +kernel

theorem isBlank_eq_false_iff {character : Char} : isBlank character = false ↔
    ∀ range ∈ blankRanges, character.toNat < range.1 ∨ range.2 < character.toNat := by
  simp only [isBlank, List.any_eq_false, Bool.and_eq_true, decide_eq_true_eq, not_and_or,
    Nat.not_le]

theorem toNat_ofNat_cases (code : Nat) :
    (Char.ofNat code).toNat = code ∨ (Char.ofNat code).toNat = 0 := by
  by_cases valid : code.isValidChar
  · rw [Char.ofNat, dif_pos valid]
    exact .inl rfl
  · rw [Char.ofNat, dif_neg valid]
    exact .inr rfl

theorem isBlank_toLower : ∀ code < 128, isBlank (Char.ofNat code) = false →
    isBlank (Char.ofNat code).toLower = false := by
  decide +kernel

/-- A visible character is lowered to a visible one. -/
theorem isBlank_lowerChar {character : Char} (visible : isBlank character = false) :
    isBlank (lowerChar character) = false := by
  unfold lowerChar
  dsimp only
  split
  · rename_i ascii
    have lowered := isBlank_toLower character.toNat ascii
    rw [Char.ofNat_toNat] at lowered
    exact lowered visible
  · split
    · rename_i stride found
      have member := List.mem_of_find?_eq_some found
      have within := List.find?_some found
      simp only [Bool.and_eq_true, decide_eq_true_eq] at within
      obtain ⟨⟨first, last⟩, -⟩ := within
      have low : ∀ range ∈ blankRanges, 0 < range.1 := by decide
      rw [isBlank_eq_false_iff]
      intro range inside
      have apart := lowerStrides_apart stride member range inside
      have positive := low range inside
      rcases toNat_ofNat_cases (Int.toNat (character.toNat + stride.shift)) with same | zero
      · omega
      · omega
    · exact visible

/-- A text with a visible character has one in lower case. -/
theorem exists_visible_lowerChars {before text : List Char}
    (visible : ∃ character ∈ text, isBlank character = false) :
    ∃ character ∈ lowerChars before text, isBlank character = false := by
  induction text generalizing before with
  | nil =>
    obtain ⟨character, member, -⟩ := visible
    cases member
  | cons first rest hypothesis =>
    obtain ⟨character, member, shown⟩ := visible
    rw [lowerChars]
    rcases List.mem_cons.1 member with rfl | later
    · have lowered : ∃ other ∈ (if character.toNat == 304 then [Char.ofNat 105, Char.ofNat 775]
          else if character.toNat == 931 then
            [if startsCased before && !startsCased rest then Char.ofNat 962 else Char.ofNat 963]
          else [lowerChar character]), isBlank other = false := by
        split
        · exact ⟨_, List.mem_cons_self, by decide⟩
        · split
          · refine ⟨_, List.mem_singleton_self _, ?_⟩
            split
            · decide
            · decide
          · exact ⟨_, List.mem_singleton_self _, isBlank_lowerChar shown⟩
      obtain ⟨other, inside, otherShown⟩ := lowered
      exact ⟨other, List.mem_append_left _ inside, otherShown⟩
    · obtain ⟨other, inside, otherShown⟩ := hypothesis ⟨character, later, shown⟩
      exact ⟨other, List.mem_append_right _ inside, otherShown⟩

end Text

namespace Question

open Text

theorem wordsFrom_ne_nil_of_current {current : List Char} (some : current ≠ []) (text : List Char) :
    wordsFrom current text ≠ [] := by
  have isEmpty : current.isEmpty = false := List.isEmpty_eq_false_iff.2 some
  induction text generalizing current with
  | nil =>
    rw [wordsFrom, isEmpty, if_neg Bool.false_ne_true]
    exact List.cons_ne_nil _ _
  | cons character text hypothesis =>
    rw [wordsFrom]
    split
    · rw [isEmpty, if_neg Bool.false_ne_true]
      exact List.cons_ne_nil _ _
    · exact hypothesis (List.cons_ne_nil _ _) rfl

/-- A text with a visible character has a word. -/
theorem wordsFrom_ne_nil {text : List Char}
    (visible : ∃ character ∈ text, isBlank character = false) (current : List Char) :
    wordsFrom current text ≠ [] := by
  obtain ⟨character, member, shown⟩ := visible
  induction text generalizing current with
  | nil => cases member
  | cons first rest hypothesis =>
    rw [wordsFrom]
    rcases List.mem_cons.1 member with rfl | later
    · rw [shown, if_neg Bool.false_ne_true]
      exact wordsFrom_ne_nil_of_current (List.cons_ne_nil _ _) rest
    · split
      · split
        · exact hypothesis [] later
        · exact List.cons_ne_nil _ _
      · exact hypothesis _ later

theorem mem_spaceMarks {character : Char} {text : List Char} (member : character ∈ text) :
    character ∈ spaceMarks text := by
  refine List.mem_flatMap.2 ⟨character, member, ?_⟩
  split
  · exact List.mem_cons_of_mem _ List.mem_cons_self
  · exact List.mem_cons_self

/-- The normal form of a text that is not blank is not empty. -/
theorem normalize_ne_empty {text : String}
    (visible : ∃ character ∈ text.toList, isBlank character = false) : normalize text ≠ "" := by
  intro empty
  have joined := toList_normalize text
  have lowered : (lowerCase text).toList = lowerChars [] text.toList := String.toList_ofList
  rw [empty, lowered] at joined
  have nothing := (isNormal_intercalate fun word member =>
    isUnbroken_of_mem_wordsFrom (List.forall_mem_nil _) member).2 joined.symm
  obtain ⟨character, member, shown⟩ := exists_visible_lowerChars visible
  exact wordsFrom_ne_nil ⟨character, mem_spaceMarks member, shown⟩ [] nothing

end Question

end WordArithmetic
