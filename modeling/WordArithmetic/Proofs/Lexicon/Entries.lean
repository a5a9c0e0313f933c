/-
This file tells which entries of a lexicon a question can reach.

Phrases are stored in lower case and looked up in normal form. A phrase that is cut as a question
comes out as one word with a meaning of the phrase if some line stores its normal form with this
meaning, or if the meaning is that of numbers and the normal form is a number that no line stores.
Both forms are the same for a phrase that is tidy in lower case. Any other phrase is stored under a
form that no word of any question has.
-/

import WordArithmetic.Proofs.Lexicon.Segmentation
import WordArithmetic.Proofs.Lexicon.Tidy

namespace WordArithmetic

/-- What stands at the front of a text without spaces is the text. -/
theorem StandsAt.eq_of_space_not_mem {phrase text : List Char} (stands : StandsAt phrase text)
    (single : ' ' ∉ text) : text = phrase := by
  rcases stands with same | ⟨rest, rfl⟩
  · exact same
  · exact absurd (List.mem_append_right _ List.mem_cons_self) single

/-- What stands at the front of a text and is not shorter is the text. -/
theorem StandsAt.eq_of_length_le {phrase text : List Char} (stands : StandsAt phrase text)
    (long : text.length ≤ phrase.length) : text = phrase := by
  rcases stands with same | ⟨rest, rfl⟩
  · exact same
  · rw [List.length_append, List.length_cons] at long
    omega

namespace Lexicon

/-! ### What lines enter -/

/-- A phrase is stored. -/
def IsStored (lexicon : Lexicon) (phrase : String) : Prop :=
  ∃ meanings, lexicon.phrases.get? phrase = some meanings

/-- A phrase is stored with a meaning of this name. -/
def HasEntry (lexicon : Lexicon) (phrase name : String) : Prop :=
  ((lexicon.phrases.get? phrase).getD .empty).contains name = true

/-- A line that is right enters its meaning under its phrase in lower case. -/
theorem get?_of_addLine {lexicon next : Lexicon} {line : LexicalLine}
    (added : lexicon.addLine line = (next, .ok ())) :
    ∃ term, ∀ phrase, next.phrases.get? phrase =
      if Text.lowerCase line.phrase = phrase then
        some (((lexicon.phrases.get? (Text.lowerCase line.phrase)).getD .empty).insert
          line.macroName term)
      else lexicon.phrases.get? phrase := by
  unfold addLine at added
  cases program : lexicon.session.read line.code with
  | mk session found =>
    rw [program] at added
    cases found with
    | error failure => cases (Prod.mk.inj added).2
    | ok term =>
      obtain rfl := (Prod.mk.inj added).1
      exact ⟨term, fun phrase => Table.get?_insert _ _ _ _⟩

theorem isStored_of_addLine {lexicon next : Lexicon} {line : LexicalLine}
    (added : lexicon.addLine line = (next, .ok ())) (phrase : String) :
    next.IsStored phrase ↔ lexicon.IsStored phrase ∨ Text.lowerCase line.phrase = phrase := by
  obtain ⟨term, entered⟩ := get?_of_addLine added
  rw [IsStored, IsStored, entered phrase]
  by_cases same : Text.lowerCase line.phrase = phrase
  · rw [if_pos same]
    exact iff_of_true ⟨_, rfl⟩ (.inr same)
  · rw [if_neg same, or_iff_left same]

theorem hasEntry_of_addLine {lexicon next : Lexicon} {line : LexicalLine}
    (added : lexicon.addLine line = (next, .ok ())) (phrase name : String) :
    next.HasEntry phrase name ↔ lexicon.HasEntry phrase name ∨
      Text.lowerCase line.phrase = phrase ∧ line.macroName = name := by
  obtain ⟨term, entered⟩ := get?_of_addLine added
  rw [HasEntry, HasEntry, entered phrase]
  by_cases same : Text.lowerCase line.phrase = phrase
  · rw [if_pos same, Option.getD_some, Table.contains_insert, same, and_iff_right rfl, or_comm]
  · rw [if_neg same, or_iff_left fun here => same here.1]

section OfLines

variable {start : Session} {lines : List LexicalLine} {lexicon : Lexicon}

/-- What every right line adds to a property of lexicons is added by the lines of a lexicon and by
nothing else. -/
theorem iff_of_ofLines (made : ofLines start lines = .ok lexicon) (property : Lexicon → Prop)
    {adds : LexicalLine → Prop} (nothing : ¬property (empty start))
    (each : ∀ {before line next}, addLine before line = (next, .ok ()) →
      (property next ↔ property before ∨ adds line))
    (looksUp : ∀ lexicon, property lexicon.lookUpAll ↔ property lexicon) :
    property lexicon ↔ ∃ line ∈ lines, adds line := by
  obtain ⟨last, folded, finished⟩ := bind_eq_ok made
  obtain rfl := Except.ok.inj finished
  have added := @foldlM_adds _ _ _ _ property adds (fun before line next stepped => each ?_) lines
    (empty start) last folded
  · rw [looksUp, added, or_iff_right nothing]
  · split at stepped
    · rename_i outcome
      rw [outcome, Except.ok.inj stepped]
    · cases stepped

/-- A phrase is stored with the meanings of the lines that it is the lower case of. -/
theorem hasEntry_iff (made : ofLines start lines = .ok lexicon) (phrase name : String) :
    lexicon.HasEntry phrase name ↔
      ∃ line ∈ lines, Text.lowerCase line.phrase = phrase ∧ line.macroName = name :=
  iff_of_ofLines made (fun lexicon => lexicon.HasEntry phrase name) Bool.false_ne_true
    (fun added => hasEntry_of_addLine added phrase name) fun _ => Iff.rfl

/-- The phrases that are looked up are the lower cases of the lines. -/
theorem mem_lookedUp_iff (made : ofLines start lines = .ok lexicon) (phrase : String) :
    phrase ∈ lexicon.lookedUp ↔ ∃ line ∈ lines, Text.lowerCase line.phrase = phrase := by
  have stored := iff_of_ofLines made (fun lexicon => lexicon.IsStored phrase)
    (fun ⟨_, found⟩ => by cases found) (fun added => isStored_of_addLine added phrase)
    fun _ => Iff.rfl
  rw [← stored, lookedUp_of_ofLines made]
  constructor
  · intro member
    obtain ⟨⟨_, meanings⟩, inside, rfl⟩ := List.mem_map.1 member
    exact ⟨meanings, entryOf?_of_mem lexicon.phrases.distinct inside⟩
  · rintro ⟨meanings, found⟩
    exact Table.mem_keys_of_get? found

end OfLines

section Words

variable {start : Session} {lexicon : Lexicon}

/-! ### Questions of one word -/

/-- The only word of a text in normal form is the text. -/
theorem form_eq_of_segment_eq (built : lexicon.Built start) {text : List Char}
    (normal : Question.IsNormal text) {word : Word} (single : lexicon.segment text = [word]) :
    word.form.toList = text := by
  have whole := (segments_segment built normal).joined_eq
  rw [single, joined, List.map_singleton, String.intercalate_singleton] at whole
  rw [whole, String.toList_ofList]

/-- A text in normal form is one word if the next word is all of it. -/
theorem segment_eq_singleton_iff (built : lexicon.Built start) {text : List Char}
    (normal : Question.IsNormal text) (present : text ≠ []) (word : Word) :
    lexicon.segment text = [word] ↔
      lexicon.nextWord text = word ∧ word.form.toList = text := by
  obtain ⟨first, rest, rfl⟩ := List.exists_cons_of_ne_nil present
  constructor
  · intro single
    have whole := form_eq_of_segment_eq built normal single
    rw [segment] at single
    exact ⟨(List.cons.inj single).1, whole⟩
  · rintro ⟨next, whole⟩
    have nothing : rest.drop word.form.length = [] := by
      rw [← String.length_toList, whole]
      exact List.drop_eq_nil_of_le (Nat.le_succ _)
    rw [segment, next, nothing, segment]

/-- No number has a space. -/
theorem space_not_mem_of_isNumber {form : String} (number : Question.IsNumber form) :
    ' ' ∉ form.toList := by
  have digits : ∀ {text : List Char}, Question.IsDigits text → ' ' ∉ text :=
    fun all member => Bool.false_ne_true (all.2 ' ' member)
  rcases number with numeral | ⟨whole, wholeDigits, same | ⟨fraction, fractionDigits, same⟩⟩
  · have spaceless : ∀ numeral ∈ Question.numerals, ' ' ∉ numeral.toList := by decide
    exact spaceless form numeral
  · rw [same]
    exact digits wholeDigits
  · rw [same, List.mem_append, List.mem_cons, not_or, not_or]
    exact ⟨digits wholeDigits, by decide, digits fractionDigits⟩

theorem contains_number_iff (term : Option Term) (name : String) :
    (Table.ofList [(numberMacro, term)]).contains name = true ↔ name = numberMacro := by
  have nothing : ¬(Table.empty : Meanings).contains name = true := Bool.false_ne_true
  show (Table.empty.insert numberMacro term).contains name = true ↔ name = numberMacro
  rw [Table.contains_insert, or_iff_left nothing, eq_comm]

theorem mem_lookedUp_of_hasEntry (looksUp : lexicon.lookedUp = lexicon.phrases.keys)
    {phrase name : String} (has : lexicon.HasEntry phrase name) : phrase ∈ lexicon.lookedUp := by
  rw [looksUp]
  rw [HasEntry] at has
  cases found : lexicon.phrases.get? phrase with
  | none =>
    rw [found] at has
    cases has
  | some meanings => exact Table.mem_keys_of_get? found

/-- The meanings of the next word, if it is the whole text: those that are stored with it, or that
of a number that is not stored. -/
theorem IsNext.contains_iff (looksUp : lexicon.lookedUp = lexicon.phrases.keys) {form : String}
    {word : Word} (next : IsNext lexicon form.toList word) (name : String) :
    (word.form = form ∧ word.meanings.contains name = true) ↔
      lexicon.HasEntry form name ∨
        name = numberMacro ∧ Question.IsNumber form ∧ form ∉ lexicon.lookedUp := by
  cases next with
  | phrase known stands longest entries =>
    constructor
    · rintro ⟨rfl, has⟩
      rw [HasEntry, entries]
      exact .inl has
    · rintro (has | ⟨-, number, unknown⟩)
      · have long := longest form (mem_lookedUp_of_hasEntry looksUp has) (.inl rfl)
        have same := String.toList_inj.1 (stands.eq_of_length_le long)
        rw [HasEntry, same, entries] at has
        exact ⟨same.symm, has⟩
      · have same := stands.eq_of_space_not_mem (space_not_mem_of_isNumber number)
        rw [String.toList_inj.1 same] at unknown
        exact absurd known unknown
  | other unknown stands single number =>
    constructor
    · rintro ⟨rfl, has⟩
      rcases number with ⟨isNumber, value, -, meanings⟩ | ⟨-, meanings⟩
      · rw [meanings, contains_number_iff] at has
        exact .inr ⟨has, isNumber, fun member => unknown _ member (.inl rfl)⟩
      · rw [meanings] at has
        cases has
    · rintro (has | ⟨rfl, isNumber, -⟩)
      · exact absurd (.inl rfl) (unknown form (mem_lookedUp_of_hasEntry looksUp has))
      · have same := String.toList_inj.1
          (stands.eq_of_space_not_mem (space_not_mem_of_isNumber isNumber))
        rw [same] at isNumber ⊢
        refine ⟨rfl, ?_⟩
        rcases number with ⟨-, value, -, meanings⟩ | ⟨other, -⟩
        · rw [meanings, contains_number_iff]
        · exact absurd isNumber other

/-- A question that is not empty is cut into one word with a meaning of some name if its normal form
is stored with this meaning, or if it is a number that is not stored and the meaning is that of
numbers. -/
theorem words_eq_singleton_iff (built : lexicon.Built start)
    (looksUp : lexicon.lookedUp = lexicon.phrases.keys) {question : String}
    (present : Question.normalize question ≠ "") (name : String) :
    (∃ word, lexicon.words question = [word] ∧ word.meanings.contains name = true) ↔
      lexicon.HasEntry (Question.normalize question) name ∨
        name = numberMacro ∧ Question.IsNumber (Question.normalize question) ∧
          Question.normalize question ∉ lexicon.lookedUp := by
  have normal := Question.isNormal_normalize question
  have some : (Question.normalize question).toList ≠ [] := mt String.toList_eq_nil_iff.1 present
  have next := isNext_nextWord built normal some
  rw [← next.contains_iff looksUp, words]
  constructor
  · rintro ⟨word, single, has⟩
    obtain ⟨rfl, whole⟩ := (segment_eq_singleton_iff built normal some word).1 single
    exact ⟨String.toList_inj.1 whole, has⟩
  · rintro ⟨whole, has⟩
    exact ⟨_, (segment_eq_singleton_iff built normal some _).2 ⟨rfl, by rw [whole]⟩, has⟩

/-! ### Words of any question -/

/-- The words of a tidy text are tidy. -/
theorem isTidy_of_mem_segment (built : lexicon.Built start) {text : List Char}
    (tidy : Question.IsTidy text) :
    ∀ word ∈ lexicon.segment text, Question.IsTidy word.form.toList := by
  fun_induction lexicon.segment text with
  | case1 => exact List.forall_mem_nil _
  | case2 first rest word hypothesis =>
    have next : IsNext lexicon (first :: rest) word :=
      isNext_nextWord built tidy.isNormal (List.cons_ne_nil _ _)
    have left : rest.drop word.form.length =
        (first :: rest).drop (word.form.toList.length + 1) := by
      rw [List.drop_succ_cons, String.length_toList]
    rw [left] at hypothesis ⊢
    rcases drop_of_standsAt next.stands with ⟨whole, nothing⟩ | ⟨behind, whole, something⟩
    · rw [whole] at tidy
      rw [nothing, segment]
      exact List.forall_mem_singleton.2 tidy
    · rw [whole] at tidy
      obtain ⟨here, there⟩ := tidy.split
      rw [something] at hypothesis ⊢
      exact List.forall_mem_cons.2 ⟨here, hypothesis there⟩

/-- The words of a question are tidy. -/
theorem isTidy_of_mem_words (built : lexicon.Built start) {question : String}
    {word : Word} (member : word ∈ lexicon.words question) : Question.IsTidy word.form.toList :=
  isTidy_of_mem_segment built (Question.isTidy_normalize question) word member

end Words

/-! ### Phrases as questions -/

/-- For every line of a lexicon whose phrase is not blank: the phrase is cut into one word with the
meaning of the line exactly if some line stores its normal form with this meaning, or the meaning is
that of numbers and its normal form is a number that no line stores. This is so if the phrase is
tidy in lower case, and then the word is the phrase; otherwise no word of any question is the
phrase. -/
theorem words_phrase_iff {start : Session} {lines : List LexicalLine} {lexicon : Lexicon}
    (made : ofLines start lines = .ok lexicon) {line : LexicalLine} (member : line ∈ lines)
    (visible : ∃ character ∈ line.phrase.toList, Text.isBlank character = false) :
    ((∃ word, lexicon.words line.phrase = [word] ∧
        word.meanings.contains line.macroName = true) ↔
      (∃ other ∈ lines, Text.lowerCase other.phrase = Question.normalize line.phrase ∧
        other.macroName = line.macroName) ∨
      line.macroName = numberMacro ∧ Question.IsNumber (Question.normalize line.phrase) ∧
        ∀ other ∈ lines, Text.lowerCase other.phrase ≠ Question.normalize line.phrase) ∧
    (Question.IsTidy (Text.lowerCase line.phrase).toList →
      ∃ word, lexicon.words line.phrase = [word] ∧ word.form = Text.lowerCase line.phrase ∧
        word.meanings.contains line.macroName = true) ∧
    (¬Question.IsTidy (Text.lowerCase line.phrase).toList →
      ∀ question, ∀ word ∈ lexicon.words question, word.form ≠ Text.lowerCase line.phrase) := by
  have built := built_ofLines made
  have single := words_eq_singleton_iff built (lookedUp_of_ofLines made)
    (Question.normalize_ne_empty visible) line.macroName
  rw [hasEntry_iff made, mem_lookedUp_iff made, not_exists] at single
  simp only [not_and] at single
  refine ⟨single, fun tidy => ?_, fun untidy question word inside same => ?_⟩
  · have same := (Question.normalize_eq_lowerCase_iff line.phrase).2 tidy
    obtain ⟨word, alone, has⟩ := single.2 (.inl ⟨line, member, same.symm, rfl⟩)
    have whole := form_eq_of_segment_eq built (Question.isNormal_normalize line.phrase) alone
    exact ⟨word, alone, (String.toList_inj.1 whole).trans same, has⟩
  · rw [← same] at untidy
    exact untidy (isTidy_of_mem_words built inside)

/-- Lines whose phrases begin alike and overlap, one of them with a meaning that is known by
name. -/
def overlappingLines : List LexicalLine :=
  [⟨"Divided by", "DIV", "/"⟩, ⟨"divided", "OVER", "/"⟩, ⟨"by", "SQUARE", "square"⟩]

/-- A phrase of two words, each of which is a phrase as well, is cut into one word. -/
theorem words_phrase_iff_overlapping :
    ∃ lexicon, ofLines squaring overlappingLines = .ok lexicon ∧
      (∃ character ∈ "Divided by".toList, Text.isBlank character = false) ∧
      ∃ word, lexicon.words "Divided by" = [word] ∧ word.form = "divided by" ∧
        word.meanings.contains "DIV" = true := by
  have some : (ofLines squaring overlappingLines).toOption.isSome = true := by decide +kernel
  obtain ⟨lexicon, found⟩ := Option.isSome_iff_exists.1 some
  have made := eq_ok_of_toOption found
  have visible : ∃ character ∈ "Divided by".toList, Text.isBlank character = false :=
    ⟨'D', by decide, by decide⟩
  have lowered : Text.lowerCase "Divided by" = "divided by" := by decide +kernel
  have tidy : Question.IsTidy (Text.lowerCase "Divided by").toList :=
    (Question.normalize_eq_lowerCase_iff _).1 (by decide +kernel)
  have line : (⟨"Divided by", "DIV", "/"⟩ : LexicalLine) ∈ overlappingLines := List.mem_cons_self
  obtain ⟨-, whole, -⟩ := words_phrase_iff made line visible
  rw [← lowered]
  exact ⟨lexicon, made, visible, whole tidy⟩

/-- A phrase with two spaces between its words is not found. -/
theorem words_phrase_ne_of_spaces :
    ∃ lexicon, ofLines Session.arithmetic [⟨"added  to", "PLUS", "+"⟩] = .ok lexicon ∧
      (∃ character ∈ "added  to".toList, Text.isBlank character = false) ∧
      ¬∃ word, lexicon.words "added  to" = [word] ∧ word.meanings.contains "PLUS" = true := by
  have checked : (ofLines Session.arithmetic [⟨"added  to", "PLUS", "+"⟩]).toOption.any
      (fun lexicon => (lexicon.words "added  to").length == 2) = true := by decide +kernel
  obtain ⟨lexicon, found, two⟩ := (Option.any_eq_true _ _).1 checked
  refine ⟨lexicon, eq_ok_of_toOption found, ⟨'a', by decide, by decide⟩, ?_⟩
  rintro ⟨word, single, -⟩
  rw [single] at two
  cases two

end Lexicon

end WordArithmetic
