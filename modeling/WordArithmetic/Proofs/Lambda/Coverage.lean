/-
This file shows that the tokens of a text cover it.

What a token can stand over is said for itself, class by class (`Lexeme`). A scan goes over the text
from left to right, and what it has passed is covered: every token stands over the longest lexeme of
its class that starts there, and between the tokens there is nothing but blanks. It comes to the end
of the text, or to the first place behind what is covered where neither a lexeme nor a blank starts.
-/

import Mathlib.Data.List.Basic
import WordArithmetic.Proofs.Lambda.Naming

namespace WordArithmetic

/-! ### Lexemes -/

/-- The classes of tokens. The reserved words are of the class of names. -/
inductive TokenClass where
  | number
  | name
  | arrow
  | colon
  | opening
  | closing

/-- One digit or more. -/
def AreDigits (digits : List Char) : Prop :=
  digits ≠ [] ∧ ∀ digit ∈ digits, digit.isDigit = true

/-- The characters over which a token of a class can stand, and what the token then is. -/
inductive Lexeme : TokenClass → List Char → TokenKind → Prop
  | whole {digits : List Char} (whole : AreDigits digits) :
      Lexeme .number digits (.number (nearestFloat (digitsValue digits) 0))
  | decimal {digits places : List Char} (whole : AreDigits digits) (fraction : AreDigits places) :
      Lexeme .number (digits ++ '.' :: places)
        (.number (nearestFloat (digitsValue (digits ++ places)) (-places.length)))
  | word {name : String} (word : IsWord name) : Lexeme .name name.toList (.ofWord name)
  | sign (operator : Operator) : Lexeme .name operator.sign.toList (.identifier operator.sign)
  | arrow : Lexeme .arrow ['=', '>'] .arrow
  | colon : Lexeme .colon [':'] .colon
  | opening : Lexeme .opening ['('] .opening
  | closing : Lexeme .closing [')'] .closing

namespace TokenKind

theorem ofWord_cases (name : String) :
    ofWord name = .lambda ∨ ofWord name = .define ∨ ofWord name = .identifier name := by
  unfold ofWord
  split
  · exact .inl rfl
  · split
    · exact .inr (.inl rfl)
    · exact .inr (.inr rfl)

/-- The kind of a word tells the word. -/
theorem ofWord_injective : Function.Injective ofWord := by
  intro left right same
  unfold ofWord at same
  grind

end TokenKind

theorem isWord_lambda : IsWord "lambda" :=
  ⟨'l', "ambda".toList, rfl, rfl, List.all_eq_true.1 rfl⟩

theorem isWord_define : IsWord "define" :=
  ⟨'d', "efine".toList, rfl, rfl, List.all_eq_true.1 rfl⟩

/-- The characters that may stand between tokens. -/
def IsGap (character : Char) : Prop :=
  character = ' ' ∨ character = '\t' ∨ character = '\n'

theorem not_isGap_of_isWordCharacter {character : Char}
    (word : Scan.isWordCharacter character = true) : ¬IsGap character := by
  rintro (rfl | rfl | rfl) <;> exact absurd word (by decide)

theorem not_isGap_of_isDigit {character : Char} (digit : character.isDigit = true) :
    ¬IsGap character :=
  not_isGap_of_isWordCharacter (by rw [Scan.isWordCharacter, digit, Bool.or_true])

namespace Lexeme

variable {tokenClass : TokenClass} {span : List Char} {kind : TokenKind}

theorem ne_nil (lexeme : Lexeme tokenClass span kind) : span ≠ [] := by
  cases lexeme with
  | whole whole => exact whole.1
  | decimal whole fraction => exact List.append_ne_nil_of_left_ne_nil whole.1 _
  | word word =>
    obtain ⟨first, rest, characters, -⟩ := word
    rw [characters]
    exact List.cons_ne_nil _ _
  | sign operator => cases operator <;> exact List.cons_ne_nil _ _
  | _ => exact List.cons_ne_nil _ _

/-- No lexeme holds a blank. -/
theorem not_isGap (lexeme : Lexeme tokenClass span kind) :
    ∀ character ∈ span, ¬IsGap character := by
  have none_of : ∀ characters : List Char, ' ' ∉ characters ∧ '\t' ∉ characters ∧
      '\n' ∉ characters → ∀ character ∈ characters, ¬IsGap character := by
    rintro characters ⟨space, tab, feed⟩ character member (rfl | rfl | rfl)
    · exact space member
    · exact tab member
    · exact feed member
  cases lexeme with
  | whole whole => exact fun character member => not_isGap_of_isDigit (whole.2 character member)
  | decimal whole fraction =>
    rw [List.forall_mem_append, List.forall_mem_cons]
    exact ⟨fun character member => not_isGap_of_isDigit (whole.2 character member),
      none_of ['.'] (by decide) '.' (List.mem_singleton_self _),
      fun character member => not_isGap_of_isDigit (fraction.2 character member)⟩
  | word word =>
    exact fun character member => not_isGap_of_isWordCharacter (word.passes _ member)
  | sign operator => cases operator <;> exact none_of _ (by decide)
  | _ => exact none_of _ (by decide)

/-- Only the word itself is read as a word, whether or not it is reserved. -/
theorem span_eq_of_ofWord (lexeme : Lexeme tokenClass span kind) {name : String}
    (same : kind = .ofWord name) : span = name.toList := by
  cases lexeme with
  | word other => rw [TokenKind.ofWord_injective same]
  | sign operator =>
    have sign : TokenKind.identifier operator.sign = .ofWord operator.sign := by
      cases operator <;> rfl
    rw [TokenKind.ofWord_injective (sign.symm.trans same)]
  | _ =>
    rcases TokenKind.ofWord_cases name with reserved | reserved | free
    · cases same.trans reserved
    · cases same.trans reserved
    · cases same.trans free

/-- A word is read as nothing else. -/
theorem kind_eq_ofWord (lexeme : Lexeme tokenClass span kind) {name : String} (word : IsWord name)
    (same : span = name.toList) : kind = .ofWord name := by
  have passes := word.passes
  obtain ⟨first, rest, characters, letter, -⟩ := word
  have noDigits : ∀ {digits : List Char}, AreDigits digits → ¬digits <+: name.toList := by
    rintro (_ | ⟨digit, others⟩) ⟨some, digits⟩ found
    · exact some rfl
    · rw [characters] at found
      have isDigit := (List.forall_mem_cons.1 digits).1
      rw [(List.cons_prefix_cons.1 found).1] at isDigit
      rw [isLetter_eq_false_of_isDigit isDigit] at letter
      cases letter
  cases lexeme with
  | whole digits => exact absurd (same ▸ List.prefix_rfl) (noDigits digits)
  | decimal digits fraction => exact absurd (same ▸ List.prefix_append _ _) (noDigits digits)
  | word other => rw [String.toList_injective same]
  | sign operator =>
    rw [← same] at passes
    cases operator <;> exact absurd (passes _ List.mem_cons_self) (by decide)
  | _ =>
    rw [← same] at passes
    exact absurd (passes _ List.mem_cons_self) (by decide)

theorem ofWord_iff (lexeme : Lexeme tokenClass span kind) {name : String} (word : IsWord name) :
    kind = .ofWord name ↔ span = name.toList :=
  ⟨lexeme.span_eq_of_ofWord, lexeme.kind_eq_ofWord word⟩

end Lexeme

/-! ### The longest lexeme -/

/-- A lexeme stands at the front of a text, and no longer one of its class does. -/
structure IsLongest (tokenClass : TokenClass) (span : List Char) (kind : TokenKind)
    (text : List Char) : Prop where
  lexeme : Lexeme tokenClass span kind
  found : span <+: text
  longest : ∀ {other : List Char} {otherKind : TokenKind},
    Lexeme tokenClass other otherKind → other <+: text → other.length ≤ span.length

namespace Scan

/-- Characters that pass a test are no more than the test takes off the front. -/
theorem length_le_takeWhile {test : Char → Bool} {front text : List Char}
    (passes : ∀ character ∈ front, test character = true) (found : front <+: text) :
    front.length ≤ (text.takeWhile test).length := by
  obtain ⟨rest, rfl⟩ := found
  rw [List.takeWhile_append_of_pos passes, List.length_append]
  exact Nat.le_add_right _ _

/-! #### Numbers -/

/-- A fraction is a point with digits behind it, or nothing. -/
theorem fraction_cases (text : List Char) :
    fraction text = [] ∨ ∃ places rest, AreDigits places ∧ text = '.' :: rest ∧
      places <+: rest ∧ fraction text = '.' :: places := by
  unfold fraction
  split
  · rename_i rest
    cases taken : rest.takeWhile Char.isDigit with
    | nil => exact .inl rfl
    | cons digit digits =>
      refine .inr ⟨digit :: digits, rest, ⟨List.cons_ne_nil _ _, ?_⟩, rfl, ?_, rfl⟩
      · rw [← taken]
        exact List.all_eq_true.1 List.all_takeWhile
      · rw [← taken]
        exact List.takeWhile_prefix _
  · exact .inl rfl

theorem fraction_of_areDigits {places : List Char} (digits : AreDigits places) (rest : List Char) :
    fraction ('.' :: (places ++ rest)) = '.' :: (places ++ rest.takeWhile Char.isDigit) := by
  rw [fraction, List.takeWhile_append_of_pos digits.2]
  split
  · rename_i none
    exact absurd (List.append_eq_nil_iff.1 none).1 digits.1
  · rfl

theorem isPrefix_fraction (text : List Char) : fraction text <+: text := by
  rcases fraction_cases text with none | ⟨places, rest, -, rfl, found, some⟩
  · rw [none]
    exact List.nil_prefix
  · rw [some]
    exact List.cons_prefix_cons.2 ⟨rfl, found⟩

/-- A number is read to its end. -/
theorem isLongest_number {first : Char} (digit : first.isDigit = true) (rest : List Char) :
    ∃ span, span.length = (number (first :: rest)).2 ∧
      IsLongest .number span (number (first :: rest)).1 (first :: rest) := by
  generalize text_eq : first :: rest = text
  have whole : AreDigits (text.takeWhile Char.isDigit) := by
    refine ⟨?_, List.all_eq_true.1 List.all_takeWhile⟩
    rw [← text_eq, List.takeWhile_cons_of_pos digit]
    exact List.cons_ne_nil _ _
  have split : text.takeWhile Char.isDigit ++ text.dropWhile Char.isDigit = text :=
    List.takeWhile_append_dropWhile
  refine ⟨text.takeWhile Char.isDigit ++ fraction (text.dropWhile Char.isDigit),
    List.length_append, ?_, ?_, ?_⟩
  · rcases fraction_cases (text.dropWhile Char.isDigit) with none | ⟨places, _, digits, -, -, some⟩
    · rw [number, none, List.append_nil]
      simpa using Lexeme.whole whole
    · rw [number, some]
      exact Lexeme.decimal whole digits
  · conv_rhs => rw [← split]
    exact (List.prefix_append_right_inj _).2 (isPrefix_fraction _)
  · intro other otherKind lexeme found
    rw [List.length_append]
    cases lexeme with
    | whole digits =>
      exact Nat.le_add_right_of_le (length_le_takeWhile digits.2 found)
    | @decimal digits places otherWhole otherFraction =>
      obtain ⟨more, rfl⟩ := found
      have stops : ('.' : Char).isDigit = false := rfl
      have taken : (digits ++ '.' :: places ++ more).takeWhile Char.isDigit = digits := by
        rw [List.append_assoc, List.takeWhile_append_of_pos otherWhole.2, List.cons_append,
          List.takeWhile_cons_of_neg (by rw [stops]; exact Bool.false_ne_true), List.append_nil]
      have left : (digits ++ '.' :: places ++ more).dropWhile Char.isDigit =
          '.' :: (places ++ more) := by
        rw [List.append_assoc, List.dropWhile_append_of_pos otherWhole.2, List.cons_append,
          List.dropWhile_cons_of_neg (by rw [stops]; exact Bool.false_ne_true)]
      rw [taken, left, fraction_of_areDigits otherFraction]
      simp only [List.length_append, List.length_cons]
      omega

/-! #### Names -/

theorem isLetter_of_isWord {name : String} (word : IsWord name) {first : Char} {rest : List Char}
    (found : name.toList <+: first :: rest) : isLetter first = true := by
  obtain ⟨letter, others, characters, isLetter, -⟩ := word
  rw [characters] at found
  rw [← (List.cons_prefix_cons.1 found).1]
  exact isLetter

theorem isSign_of_sign {operator : Operator} {first : Char} {rest : List Char}
    (found : operator.sign.toList <+: first :: rest) : isSign first = true := by
  cases operator <;> · rw [← (List.cons_prefix_cons.1 found).1]; rfl

/-- The lexeme of a name is a word, which may be reserved, or a sign. -/
theorem isWord_or_sign {span : List Char} {kind : TokenKind} (lexeme : Lexeme .name span kind) :
    (∃ name, IsWord name ∧ span = name.toList) ∨
      ∃ operator : Operator, span = operator.sign.toList := by
  cases lexeme with
  | word word => exact .inl ⟨_, word, rfl⟩
  | sign operator => exact .inr ⟨operator, rfl⟩

theorem isSign_eq_false_of_isLetter {first : Char} (letter : isLetter first = true) :
    isSign first = false := by
  rw [Bool.eq_false_iff]
  intro sign
  simp only [isSign, Bool.or_eq_true, beq_iff_eq] at sign
  rcases sign with ((rfl | rfl) | rfl) | rfl <;> exact absurd letter (by decide)

/-- A word is read to its end. -/
theorem isLongest_word {first : Char} (letter : isLetter first = true) (rest : List Char) :
    IsLongest .name (first :: rest.takeWhile isWordCharacter)
      (.ofWord (String.ofList (first :: rest.takeWhile isWordCharacter))) (first :: rest) where
  lexeme := by
    have word : IsWord (String.ofList (first :: rest.takeWhile isWordCharacter)) :=
      ⟨first, _, String.toList_ofList, letter, List.all_eq_true.1 List.all_takeWhile⟩
    have lexeme := Lexeme.word word
    rwa [String.toList_ofList] at lexeme
  found := List.cons_prefix_cons.2 ⟨rfl, List.takeWhile_prefix _⟩
  longest := by
    intro other otherKind lexeme found
    rcases isWord_or_sign lexeme with ⟨name, word, rfl⟩ | ⟨operator, rfl⟩
    · have bounded := length_le_takeWhile word.passes found
      rwa [List.takeWhile_cons_of_pos (isWordCharacter_of_isLetter letter)] at bounded
    · have sign := isSign_of_sign found
      rw [isSign_eq_false_of_isLetter letter] at sign
      cases sign

/-- A sign is a token by itself. -/
theorem isLongest_sign {first : Char} (sign : isSign first = true) (rest : List Char) :
    IsLongest .name [first] (.identifier first.toString) (first :: rest) where
  lexeme := by
    obtain ⟨operator, same⟩ := exists_operator_of_isSign sign
    have lexeme := Lexeme.sign operator
    rwa [← same, Char.toString_eq_singleton, String.toList_singleton] at lexeme
  found := List.cons_prefix_cons.2 ⟨rfl, List.nil_prefix⟩
  longest := by
    intro other otherKind lexeme found
    rcases isWord_or_sign lexeme with ⟨name, word, rfl⟩ | ⟨operator, rfl⟩
    · rw [isSign_eq_false_of_isLetter (isLetter_of_isWord word found)] at sign
      cases sign
    · cases operator <;> exact Nat.le_refl 1

/-! #### All classes -/

/-- A mark of one character is a token by itself. -/
theorem isLongest_mark {tokenClass : TokenClass} {mark : Char} {kind : TokenKind}
    (lexeme : Lexeme tokenClass [mark] kind)
    (only : ∀ {other otherKind}, Lexeme tokenClass other otherKind → other = [mark])
    (rest : List Char) : IsLongest tokenClass [mark] kind (mark :: rest) where
  lexeme := lexeme
  found := List.cons_prefix_cons.2 ⟨rfl, List.nil_prefix⟩
  longest := fun other _ => Nat.le_of_eq (congrArg List.length (only other))

/-- A token stands over the longest lexeme of its class. -/
theorem exists_isLongest {text : List Char} {kind : TokenKind} {size : Nat}
    (found : token? text = some (kind, size)) :
    ∃ tokenClass span, span.length = size ∧ IsLongest tokenClass span kind text := by
  match text with
  | [] => cases found
  | first :: rest =>
    rw [token?] at found
    split at found
    · rename_i digit
      obtain ⟨span, length, longest⟩ := isLongest_number digit rest
      rw [Option.some.inj found] at length longest
      exact ⟨_, span, length, longest⟩
    split at found
    · rename_i letter
      cases found
      exact ⟨_, _, rfl, isLongest_word letter rest⟩
    split at found
    · rename_i sign
      cases found
      exact ⟨_, _, rfl, isLongest_sign sign rest⟩
    split at found
    · rename_i mark
      cases found
      rw [beq_iff_eq.1 mark]
      exact ⟨_, _, rfl, isLongest_mark .opening (by rintro _ _ ⟨⟩; rfl) rest⟩
    split at found
    · rename_i mark
      cases found
      rw [beq_iff_eq.1 mark]
      exact ⟨_, _, rfl, isLongest_mark .closing (by rintro _ _ ⟨⟩; rfl) rest⟩
    split at found
    · rename_i mark
      cases found
      rw [beq_iff_eq.1 mark]
      exact ⟨_, _, rfl, isLongest_mark .colon (by rintro _ _ ⟨⟩; rfl) rest⟩
    split at found
    · rename_i marks
      cases found
      rw [Bool.and_eq_true, beq_iff_eq, beq_iff_eq] at marks
      obtain ⟨rfl, second⟩ := marks
      obtain ⟨others, rfl⟩ := List.head?_eq_some_iff.1 second
      exact ⟨_, _, rfl, .arrow, ⟨others, rfl⟩, by rintro _ _ ⟨⟩ -; exact Nat.le_refl 2⟩
    · cases found

/-- Where a lexeme starts, there is a token. -/
theorem token?_ne_none {tokenClass : TokenClass} {span text : List Char} {kind : TokenKind}
    (lexeme : Lexeme tokenClass span kind) (found : span <+: text) : token? text ≠ none := by
  obtain ⟨more, rfl⟩ := found
  have digits : ∀ {front : List Char} (rest : List Char), AreDigits front →
      token? (front ++ rest) ≠ none := by
    rintro (_ | ⟨first, others⟩) rest ⟨some, digits⟩
    · exact absurd rfl some
    · rw [List.cons_append, token?, if_pos (List.forall_mem_cons.1 digits).1]
      exact Option.some_ne_none _
  have words : ∀ {name : String} (rest : List Char), IsWord name →
      token? (name.toList ++ rest) ≠ none := by
    rintro name rest ⟨first, others, characters, letter, -⟩
    rw [characters, List.cons_append, token?, if_pos letter]
    split <;> exact Option.some_ne_none _
  cases lexeme with
  | whole whole => exact digits more whole
  | decimal whole fraction =>
    rw [List.append_assoc]
    exact digits _ whole
  | word word => exact words more word
  | sign operator => cases operator <;> exact Option.some_ne_none _
  | _ => exact Option.some_ne_none _

end Scan

/-! ### Covered texts -/

/-- A token stands over characters of a text, which are the longest lexeme of its class there. -/
structure Token.StandsOver (token : Token) (span text : List Char) : Prop where
  longest : ∃ tokenClass, IsLongest tokenClass span token.kind (text.drop token.position)
  lambda_iff : token.kind = .lambda ↔ span = "lambda".toList
  define_iff : token.kind = .define ↔ span = "define".toList
  line : token.line = 1 + (text.take token.position).count '\n'

/-- Tokens cover a text from one place to another: each of them stands over its characters, each
ends before the next one starts, and what they leave out are blanks. -/
structure TokensCover (text : List Char) (start stop : Nat) (placed : List (Token × List Char)) :
    Prop where
  stands : ∀ place ∈ placed, place.1.StandsOver place.2 text
  within : ∀ place ∈ placed,
    start ≤ place.1.position ∧ place.1.position + place.2.length ≤ stop
  ordered : placed.Pairwise fun earlier later =>
    earlier.1.position + earlier.2.length ≤ later.1.position
  gaps : ∀ position, start ≤ position → position < stop →
    (∃ place ∈ placed, place.1.position ≤ position ∧
      position < place.1.position + place.2.length) ∨
    ∃ character, text[position]? = some character ∧ IsGap character

/-- Neither a lexeme nor a blank starts a text, which is not at its end. -/
def StartsNothing (text : List Char) : Prop :=
  (∃ first rest, text = first :: rest ∧ ¬IsGap first) ∧
    ∀ {tokenClass : TokenClass} {span : List Char} {kind : TokenKind},
      Lexeme tokenClass span kind → ¬span <+: text

/-! ### One step of a scan -/

namespace TokensCover

variable {text : List Char} {start stop : Nat} {placed : List (Token × List Char)}

/-- Nothing covers nothing. -/
theorem nil (text : List Char) (start : Nat) : TokensCover text start start [] where
  stands := List.forall_mem_nil _
  within := List.forall_mem_nil _
  ordered := List.Pairwise.nil
  gaps := fun _ from_ before => absurd from_ (Nat.not_le.2 before)

/-- A blank is passed over. -/
theorem gap {character : Char} (here : text[start]? = some character) (gap : IsGap character)
    (later : TokensCover text (start + 1) stop placed) : TokensCover text start stop placed where
  stands := later.stands
  within := fun place member => (later.within place member).imp_left Nat.le_of_succ_le
  ordered := later.ordered
  gaps := fun position from_ before => by
    rcases Nat.eq_or_lt_of_le from_ with rfl | behind
    · exact .inr ⟨character, here, gap⟩
    · exact later.gaps position behind before

/-- A token is put in front of those that start behind it. -/
theorem cons {token : Token} {span : List Char} (stands : token.StandsOver span text)
    (here : token.position = start) (inside : start + span.length ≤ stop)
    (later : TokensCover text (start + span.length) stop placed) :
    TokensCover text start stop ((token, span) :: placed) where
  stands := List.forall_mem_cons.2 ⟨stands, later.stands⟩
  within := by
    refine List.forall_mem_cons.2 ⟨⟨Nat.le_of_eq here.symm, by rw [here]; exact inside⟩, ?_⟩
    exact fun place member =>
      (later.within place member).imp_left (Nat.le_trans (Nat.le_add_right _ _))
  ordered := by
    refine List.pairwise_cons.2 ⟨fun place member => ?_, later.ordered⟩
    rw [here]
    exact (later.within place member).1
  gaps := fun position from_ before => by
    by_cases covered : position < start + span.length
    · exact .inl ⟨(token, span), List.mem_cons_self, by rw [here]; exact from_, by rwa [here]⟩
    · rcases later.gaps position (Nat.not_lt.1 covered) before with ⟨place, member, found⟩ | gap
      · exact .inl ⟨place, List.mem_cons_of_mem _ member, found⟩
      · exact .inr gap

end TokensCover

/-- A token that a scan finds stands over characters of the text. -/
theorem Token.standsOver_of_found {before rest span : List Char} {tokenClass : TokenClass}
    {kind : TokenKind} (found : IsLongest tokenClass span kind rest) :
    (Token.mk kind before.length (1 + before.count '\n')).StandsOver span (before ++ rest) where
  longest := ⟨tokenClass, by rwa [List.drop_left]⟩
  lambda_iff := found.lexeme.ofWord_iff isWord_lambda
  define_iff := found.lexeme.ofWord_iff isWord_define
  line := by rw [List.take_left]

/-! ### The scan of a text -/

namespace Scan

/-- How a scan ends that has covered a text up to some place: at the end of the text, or where
neither a lexeme nor a blank starts. -/
def EndsAt (text : List Char) (stop : Nat) : ScanEnd → Prop
  | .finished => stop = text.length
  | .illegal rest position => position = stop ∧ rest = text.drop stop ∧ StartsNothing rest

/-- The scan of the rest of a text covers it up to the place where it ends. -/
theorem exists_covers_scanFrom (position line : Nat) (rest : List Char) :
    ∀ before : List Char, position = before.length → line = 1 + before.count '\n' →
      ∃ placed stop, placed.map Prod.fst = (scanFrom position line rest).tokens ∧
        position ≤ stop ∧ TokensCover (before ++ rest) position stop placed ∧
          EndsAt (before ++ rest) stop (scanFrom position line rest).ending := by
  fun_induction scanFrom position line rest with
  | case1 position line =>
    rintro before rfl rfl
    exact ⟨[], _, rfl, Nat.le_refl _, .nil _ _, by rw [List.append_nil]; rfl⟩
  | case2 position line first rest feed hypothesis =>
    rintro before rfl rfl
    obtain rfl := beq_iff_eq.1 feed
    obtain ⟨placed, stop, tokens, further, covers, ends⟩ :=
      hypothesis (before ++ ['\n']) (by rw [List.length_append]; rfl)
        (by rw [List.count_append]; rfl)
    rw [List.append_assoc] at covers ends
    exact ⟨placed, stop, tokens, Nat.le_of_succ_le further,
      covers.gap (by rw [List.getElem?_append_right (Nat.le_refl _), Nat.sub_self]; rfl)
        (.inr (.inr rfl)), ends⟩
  | case3 position line first rest noFeed blank hypothesis =>
    rintro before rfl rfl
    have counted : (before ++ [first]).count '\n' = before.count '\n' := by
      rw [List.count_append, List.count_singleton, if_neg noFeed, Nat.add_zero]
    obtain ⟨placed, stop, tokens, further, covers, ends⟩ :=
      hypothesis (before ++ [first]) (by rw [List.length_append]; rfl) (by rw [counted])
    rw [List.append_assoc] at covers ends
    have gap : IsGap first := by
      rw [Bool.or_eq_true, beq_iff_eq, beq_iff_eq] at blank
      exact blank.elim .inl fun tab => .inr (.inl tab)
    exact ⟨placed, stop, tokens, Nat.le_of_succ_le further,
      covers.gap (by rw [List.getElem?_append_right (Nat.le_refl _), Nat.sub_self]; rfl) gap, ends⟩
  | case4 position line first rest noFeed noBlank stopped =>
    rintro before rfl rfl
    refine ⟨[], _, rfl, Nat.le_refl _, .nil _ _, rfl, by rw [List.drop_left], ?_, ?_⟩
    · refine ⟨first, rest, rfl, ?_⟩
      rw [Bool.or_eq_true, beq_iff_eq, beq_iff_eq, not_or] at noBlank
      rintro (space | tab | newline)
      · exact noBlank.1 space
      · exact noBlank.2 tab
      · exact noFeed (beq_iff_eq.2 newline)
    · exact fun lexeme found => token?_ne_none lexeme found stopped
  | case5 position line first rest noFeed noBlank kind size found later hypothesis =>
    rintro before rfl rfl
    obtain ⟨tokenClass, span, rfl, longest⟩ := exists_isLongest found
    have whole : span ++ rest.drop (span.length - 1) = first :: rest := by
      obtain ⟨others, split⟩ := longest.found
      have positive := List.length_pos_iff.2 longest.lexeme.ne_nil
      rw [← List.drop_succ_cons (a := first), Nat.sub_add_cancel positive, ← split, List.drop_left]
    have feeds : span.count '\n' = 0 :=
      List.count_eq_zero.2 fun member => longest.lexeme.not_isGap _ member (.inr (.inr rfl))
    obtain ⟨placed, stop, tokens, further, covers, ends⟩ :=
      hypothesis (before ++ span) List.length_append.symm
        (by rw [List.count_append, feeds, Nat.add_zero])
    rw [List.append_assoc, whole] at covers ends
    exact ⟨(_, span) :: placed, stop, congrArg (_ :: ·) tokens,
      Nat.le_trans (Nat.le_add_right _ _) further,
      covers.cons (Token.standsOver_of_found longest) rfl further, ends⟩

/-- A text is cut into tokens that cover it, or it is refused at the first place behind covering
tokens where neither a lexeme nor a blank starts, and the failure shows the whole rest from there
on. Every token stands over the longest lexeme of its class; the tokens stand in order and do not
overlap, only blanks are left out between them, and each one knows its line. -/
theorem tokens?_covers (code : String) :
    match tokens? code with
    | .ok tokens => ∃ placed, placed.map Prod.fst = tokens ∧
        TokensCover code.toList 0 code.toList.length placed
    | .error failure => ∃ placed stop, TokensCover code.toList 0 stop placed ∧
        StartsNothing (code.toList.drop stop) ∧
          failure = .illegalCharacter (String.ofList (code.toList.drop stop)) stop := by
  obtain ⟨placed, stop, tokens, -, covers, ends⟩ :=
    exists_covers_scanFrom 0 1 code.toList [] rfl rfl
  rw [List.nil_append] at covers ends
  cases ending : (scanFrom 0 1 code.toList).ending with
  | finished =>
    simp only [tokens?, ofText, ending]
    rw [ending] at ends
    obtain rfl : stop = code.toList.length := ends
    exact ⟨placed, tokens, covers⟩
  | illegal rest position =>
    simp only [tokens?, ofText, ending]
    rw [ending] at ends
    obtain ⟨rfl, rfl, nothing⟩ := ends
    exact ⟨placed, position, covers, nothing, rfl⟩

/-- An arrow without its head starts nothing, and neither does a point without a digit before
it. -/
example : tokens? "x =>= 2" = .error (.illegalCharacter "= 2" 4) ∧
    tokens? "x\n.5" = .error (.illegalCharacter ".5" 2) := by
  constructor <;> cbv

end Scan

end WordArithmetic
