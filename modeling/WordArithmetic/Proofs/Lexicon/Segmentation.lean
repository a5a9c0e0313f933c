/-
This file shows that a lexicon cuts questions into its longest phrases.

A phrase stands at the front of a text if the text goes on behind it with a space or not at all.
Phrases are any texts, so one can be part of another, and one can even begin or end with a space;
but a text in normal form never offers such a place. So every cut leaves a text in normal form, the
words are never empty, and joined by spaces they are the question again.
-/

import WordArithmetic.Proofs.Lexicon.Built
import WordArithmetic.Proofs.Lexicon.Question
import WordArithmetic.Proofs.Score

namespace WordArithmetic

/-- A phrase stands at the front of a text and is followed by a space or by nothing. -/
def StandsAt (phrase text : List Char) : Prop :=
  text = phrase ∨ ∃ rest, text = phrase ++ ' ' :: rest

namespace Lexicon

/-- The test for a phrase at the front of a text. -/
theorem startsWith_iff {text phrase : List Char} :
    startsWith text phrase = true ↔ StandsAt phrase text := by
  rw [startsWith, Bool.and_eq_true, List.isPrefixOf_iff_prefix]
  constructor
  · rintro ⟨⟨rest, rfl⟩, ends⟩
    rw [List.drop_left] at ends
    cases rest with
    | nil => exact Or.inl (List.append_nil phrase)
    | cons next rest =>
      obtain rfl := beq_iff_eq.1 ends
      exact Or.inr ⟨rest, rfl⟩
  · rintro (rfl | ⟨rest, rfl⟩)
    · rw [List.drop_length]
      exact ⟨List.prefix_refl text, rfl⟩
    · rw [List.drop_left]
      exact ⟨List.prefix_append phrase _, rfl⟩

/-- From a first phrase on the search for the longest one is the search for the first largest. -/
theorem foldl_longest (known : String) (phrases : List String) :
    phrases.foldl (fun best phrase =>
      match best with
      | none => some phrase
      | some known => if known.length < phrase.length then some phrase else some known)
        (some known) = some (firstLargest String.length known phrases) := by
  induction phrases generalizing known with
  | nil => rfl
  | cons phrase rest hypothesis =>
    rw [List.foldl_cons, firstLargest, List.foldl_cons, ← firstLargest, ← hypothesis]
    congr 1
    dsimp only
    split
    · rfl
    · rfl

/-- There is a longest phrase unless no phrase stands at the front of the text. -/
theorem longestPhrase?_cases (lexicon : Lexicon) (text : List Char) :
    (lexicon.longestPhrase? text = none ∧
      ∀ phrase ∈ lexicon.lookedUp, ¬ StandsAt phrase.toList text) ∨
    ∃ phrase ∈ lexicon.lookedUp, lexicon.longestPhrase? text = some phrase ∧
      StandsAt phrase.toList text ∧
        ∀ other ∈ lexicon.lookedUp, StandsAt other.toList text → other.length ≤ phrase.length := by
  unfold longestPhrase?
  cases candidates : lexicon.lookedUp.filter fun phrase => startsWith text phrase.toList with
  | nil =>
    refine Or.inl ⟨rfl, fun phrase member stands => ?_⟩
    exact List.filter_eq_nil_iff.1 candidates phrase member (startsWith_iff.2 stands)
  | cons first rest =>
    have largest := isFirstLargest_firstLargest String.length first rest
    have known := largest.mem
    rw [← candidates] at known largest
    obtain ⟨member, stands⟩ := List.mem_filter.1 known
    refine Or.inr ⟨_, member, foldl_longest first rest, startsWith_iff.1 stands, ?_⟩
    intro other otherMember otherStands
    exact largest.le other (List.mem_filter.2 ⟨otherMember, startsWith_iff.2 otherStands⟩)

/-- The phrases that are looked up have entries. -/
theorem Built.exists_get? {start : Session} {lexicon : Lexicon} (built : lexicon.Built start)
    {phrase : String} (lookedUp : phrase ∈ lexicon.lookedUp) :
    ∃ meanings, lexicon.phrases.get? phrase = some meanings := by
  induction built with
  | empty => cases lookedUp
  | @addLine lexicon _ line hypothesis =>
    unfold Lexicon.addLine at lookedUp ⊢
    cases program : lexicon.session.read line.code with
    | mk session found =>
      rw [program] at lookedUp
      cases found with
      | error failure => exact hypothesis lookedUp
      | ok entered =>
        dsimp only
        rw [Table.get?_insert]
        split
        · exact ⟨_, rfl⟩
        · exact hypothesis lookedUp
  | @lookUpAll lexicon _ _ =>
    obtain ⟨⟨_, meanings⟩, member, rfl⟩ := List.mem_map.1 lookedUp
    exact ⟨meanings, entryOf?_of_mem lexicon.phrases.distinct member⟩

/-- A lexicon that is made of lines looks up all its phrases. -/
theorem lookedUp_of_ofLines {start : Session} {lines : List LexicalLine} {lexicon : Lexicon}
    (made : ofLines start lines = .ok lexicon) : lexicon.lookedUp = lexicon.phrases.keys := by
  obtain ⟨last, _, finished⟩ := bind_eq_ok made
  obtain rfl := Except.ok.inj finished
  rfl

/-! ### The next word -/

/-- The word that comes next in a text: the longest phrase at its front with the entries of the
phrase, or, if there is none, what stands before the next space or the end, with the meaning of a
number if it is one and no meaning otherwise. -/
inductive IsNext (lexicon : Lexicon) (text : List Char) (word : Word) : Prop
  | phrase (known : word.form ∈ lexicon.lookedUp) (stands : StandsAt word.form.toList text)
    (longest : ∀ phrase ∈ lexicon.lookedUp, StandsAt phrase.toList text →
      phrase.length ≤ word.form.length)
    (entries : lexicon.phrases.get? word.form = some word.meanings)
  | other (unknown : ∀ phrase ∈ lexicon.lookedUp, ¬ StandsAt phrase.toList text)
    (stands : StandsAt word.form.toList text) (single : ' ' ∉ word.form.toList)
    (number : (Question.IsNumber word.form ∧ ∃ value, Question.readNumber? word.form = some value ∧
        word.meanings = Table.ofList [(numberMacro, some (Term.number value))]) ∨
      ¬ Question.IsNumber word.form ∧ word.meanings = Table.empty)

theorem IsNext.stands {lexicon : Lexicon} {text : List Char} {word : Word}
    (next : IsNext lexicon text word) : StandsAt word.form.toList text := by
  cases next with
  | phrase _ stands _ _ => exact stands
  | other _ stands _ _ => exact stands

/-- Nothing empty stands at the front of a text in normal form. -/
theorem not_standsAt_nil {text : List Char} (normal : Question.IsNormal text)
    (present : text ≠ []) : ¬ StandsAt [] text := by
  rintro (none | ⟨rest, rfl⟩)
  · exact present none
  · exact normal.start rfl

/-- What stands before the first space of a text stands at its front. -/
theorem standsAt_takeWhile (text : List Char) : StandsAt (text.takeWhile (· != ' ')) text := by
  have parts := List.takeWhile_append_dropWhile (p := (· != ' ')) (l := text)
  cases behind : text.dropWhile (· != ' ') with
  | nil =>
    rw [behind, List.append_nil] at parts
    exact Or.inl parts.symm
  | cons next rest =>
    have stopped := List.head?_dropWhile_not (· != ' ') text
    rw [behind, List.head?_cons] at stopped
    obtain rfl : next = ' ' := by simpa using stopped
    rw [behind] at parts
    exact Or.inr ⟨rest, parts.symm⟩

/-- What is left of a text when a phrase at its front is cut off with the space behind it. -/
theorem drop_of_standsAt {phrase text : List Char} (stands : StandsAt phrase text) :
    (text = phrase ∧ text.drop (phrase.length + 1) = []) ∨
      ∃ behind, text = phrase ++ ' ' :: behind ∧ text.drop (phrase.length + 1) = behind := by
  rcases stands with rfl | ⟨behind, rfl⟩
  · exact Or.inl ⟨rfl, List.drop_eq_nil_of_le (Nat.le_succ _)⟩
  · exact Or.inr ⟨behind, rfl, List.drop_length_add_append 1⟩

/-- The meanings of a word that is no phrase. -/
theorem numberMeanings?_cases {form : String} (sameLine : '\n' ∉ form.toList) :
    (Question.IsNumber form ∧ ∃ value, Question.readNumber? form = some value ∧
        (numberMeanings? form).getD .empty =
          Table.ofList [(numberMacro, some (Term.number value))]) ∨
      ¬ Question.IsNumber form ∧ (numberMeanings? form).getD .empty = Table.empty := by
  rw [← Question.isSome_readNumber? sameLine, numberMeanings?]
  cases Question.readNumber? form with
  | some value => exact Or.inl ⟨rfl, value, rfl, rfl⟩
  | none => exact Or.inr ⟨Bool.false_ne_true, rfl⟩

section Next

variable {start : Session} {lexicon : Lexicon} {text : List Char}

/-- The word that a lexicon takes from a text in normal form is the next one. -/
theorem isNext_nextWord (built : lexicon.Built start) (normal : Question.IsNormal text)
    (present : text ≠ []) : IsNext lexicon text (lexicon.nextWord text) := by
  unfold nextWord
  rcases lexicon.longestPhrase?_cases text with ⟨none, unknown⟩ |
    ⟨phrase, known, some, stands, longest⟩
  · rw [none, Option.filter_none]
    have form : (String.ofList (text.takeWhile (· != ' '))).toList = text.takeWhile (· != ' ') :=
      String.toList_ofList
    refine .other unknown ?_ ?_ (numberMeanings?_cases ?_)
    · rw [form]
      exact standsAt_takeWhile text
    · rw [form]
      exact fun member => Bool.false_ne_true (List.mem_takeWhile_imp member)
    · rw [form]
      intro member
      cases normal.plain '\n' (List.takeWhile_subset _ member) (by decide)
  · have nonempty : (!phrase.isEmpty) = true := by
      rw [Bool.not_eq_true', ← Bool.not_eq_true, String.isEmpty_iff]
      rintro rfl
      exact not_standsAt_nil normal present stands
    rw [some, Option.filter_some, if_pos nonempty]
    obtain ⟨meanings, entered⟩ := built.exists_get? known
    dsimp only
    rw [entered]
    exact .phrase known stands longest entered

end Next

/-! ### Questions as words -/

/-- Words joined by single spaces. -/
def joined (words : List Word) : String :=
  String.intercalate " " (words.map Word.form)

/-- Words that segment a text: they make it up if they are joined by single spaces, none is empty,
and each is the one that comes next in the rest of the text. -/
structure Segments (lexicon : Lexicon) (words : List Word) (text : String) : Prop where
  joined_eq : joined words = text
  form_ne : ∀ word ∈ words, word.form ≠ ""
  isNext : ∀ before word after, words = before ++ word :: after →
    IsNext lexicon (joined (word :: after)).toList word

section Segments

variable {start : Session} {lexicon : Lexicon}

/-- A word before words that segment the rest of a text. -/
theorem Segments.cons {word : Word} {words : List Word} {text : String}
    (next : IsNext lexicon text.toList word) (form : word.form ≠ "")
    (rest : (words = [] ∧ text = word.form) ∨
      words ≠ [] ∧ ∃ behind, text = word.form ++ " " ++ behind ∧ Segments lexicon words behind) :
    Segments lexicon (word :: words) text := by
  have whole : joined (word :: words) = text := by
    rcases rest with ⟨rfl, rfl⟩ | ⟨some, behind, rfl, segments⟩
    · exact String.intercalate_singleton
    · rw [joined, List.map_cons, String.intercalate_cons_of_ne_nil (mt List.map_eq_nil_iff.1 some)]
      exact congrArg _ segments.joined_eq
  refine ⟨whole, List.forall_mem_cons.2 ⟨form, ?_⟩, fun before other after split => ?_⟩
  · rcases rest with ⟨rfl, _⟩ | ⟨_, _, _, segments⟩
    · exact List.forall_mem_nil _
    · exact segments.form_ne
  · cases before with
    | nil =>
      obtain ⟨rfl, rfl⟩ := List.cons.inj split
      exact whole.symm ▸ next
    | cons first before =>
      have later := (List.cons.inj split).2
      rcases rest with ⟨rfl, _⟩ | ⟨_, _, _, segments⟩
      · cases before <;> cases later
      · exact segments.isNext before other after later

theorem segment_ne_nil {text : List Char} (present : text ≠ []) : lexicon.segment text ≠ [] := by
  obtain ⟨first, rest, rfl⟩ := List.exists_cons_of_ne_nil present
  rw [segment]
  exact List.cons_ne_nil _ _

/-- A text in normal form is segmented. -/
theorem segments_segment (built : lexicon.Built start) {text : List Char}
    (normal : Question.IsNormal text) :
    Segments lexicon (lexicon.segment text) (String.ofList text) := by
  fun_induction lexicon.segment text with
  | case1 => exact ⟨String.intercalate_nil, List.forall_mem_nil _, fun before _ _ split =>
      absurd split.symm (List.append_ne_nil_of_right_ne_nil before (List.cons_ne_nil _ _))⟩
  | case2 first rest word hypothesis =>
    have next : IsNext lexicon (first :: rest) word :=
      isNext_nextWord built normal (List.cons_ne_nil _ _)
    have form : word.form ≠ "" := by
      intro empty
      have stands := next.stands
      rw [empty] at stands
      exact not_standsAt_nil normal (List.cons_ne_nil _ _) stands
    -- The form and the space behind it are dropped together; the first character of the text is
    -- dropped by the pattern, and so the rest loses one character less.
    have left : rest.drop word.form.length = (first :: rest).drop (word.form.toList.length + 1) := by
      rw [List.drop_succ_cons, String.length_toList]
    rw [left] at hypothesis ⊢
    refine Segments.cons (by rwa [String.toList_ofList]) form ?_
    rcases drop_of_standsAt next.stands with ⟨whole, nothing⟩ | ⟨behind, whole, something⟩
    · rw [nothing, whole, String.ofList_toList, segment]
      exact Or.inl ⟨rfl, rfl⟩
    · rw [something] at hypothesis ⊢
      rw [whole] at normal ⊢
      obtain ⟨normalBehind, present⟩ := normal.behind
      refine Or.inr ⟨segment_ne_nil present, String.ofList behind, ?_, hypothesis normalBehind⟩
      rw [← String.toList_inj]
      simp only [String.toList_ofList, String.toList_append, List.append_assoc]
      rfl

/-- For every question the words of a lexicon segment its normal form, whatever the session is that
the lexicon starts from. -/
theorem segments_words (built : lexicon.Built start) (question : String) :
    Segments lexicon (lexicon.words question) (Question.normalize question) ∧
      ((∃ lines, ofLines start lines = .ok lexicon) → lexicon.lookedUp = lexicon.phrases.keys) := by
  have segments := segments_segment built (Question.isNormal_normalize question)
  rw [String.ofList_toList] at segments
  exact ⟨segments, fun ⟨_, made⟩ => lookedUp_of_ofLines made⟩

end Segments

/-- The session of arithmetic with a name for squaring. -/
def squaring : Session :=
  (Session.arithmetic.read "(define square (lambda (x:num) (* x x)))").1

/-- A lexicon in which phrases begin alike and overlap, one of them with a meaning that is known by
name. -/
def overlapping : Lexicon :=
  (((((empty squaring).addLine ⟨"Divided by", "DIV", "/"⟩).1.addLine
    ⟨"divided", "OVER", "/"⟩).1.addLine ⟨"by 2", "SQUARE", "square"⟩).1).lookUpAll

/-- The longer of two phrases that begin alike is taken, and then a phrase that overlaps with it is
no longer found. -/
theorem segments_words_overlapping :
    overlapping.Built squaring ∧
    Segments overlapping (overlapping.words "Ten, divided  BY 2") "ten , divided by 2" ∧
      (overlapping.words "Ten, divided  BY 2").map Word.form = ["ten", ",", "divided by", "2"] := by
  have built : overlapping.Built squaring :=
    .lookUpAll (.addLine (.addLine (.addLine .empty _) _) _)
  have normal : Question.normalize "Ten, divided  BY 2" = "ten , divided by 2" := by
    decide +kernel
  exact ⟨built, normal ▸ (segments_words built "Ten, divided  BY 2").1, by decide +kernel⟩

end Lexicon

end WordArithmetic
