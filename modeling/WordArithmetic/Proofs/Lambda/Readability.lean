/-
This file shows that the parts of a printed term can be read back.

Every part ends where it must: a name before a character that no name holds, an index and a number
before a blank or a closing parenthesis, and a type with the parenthesis that belongs to its first
one. So two parts of a kind in front of whatever may follow them are the same part, and the same
characters are left. Of numbers the texts are found this way, not the numbers.
-/

import WordArithmetic.Proofs.Lambda.Legible
import WordArithmetic.Proofs.Number.Shortest

namespace WordArithmetic

/-- Two texts in front of the first character that fails a test are the same if they go on to the
same text. -/
theorem append_inj_of_stop {test : Char → Bool} {left right rest otherRest : List Char}
    (leftPasses : ∀ character ∈ left, test character = true)
    (rightPasses : ∀ character ∈ right, test character = true)
    (stops : ∀ character ∈ rest.head?, test character = false)
    (otherStops : ∀ character ∈ otherRest.head?, test character = false)
    (same : left ++ rest = right ++ otherRest) : left = right ∧ rest = otherRest := by
  induction left generalizing right with
  | nil =>
    cases right with
    | nil => exact ⟨rfl, same⟩
    | cons first right =>
      obtain rfl : rest = first :: (right ++ otherRest) := same
      have fails := stops first rfl
      rw [rightPasses first List.mem_cons_self] at fails
      cases fails
  | cons first left hypothesis =>
    obtain ⟨firstPasses, restPasses⟩ := List.forall_mem_cons.1 leftPasses
    cases right with
    | nil =>
      obtain rfl : first :: (left ++ rest) = otherRest := same
      have fails := otherStops first rfl
      rw [firstPasses] at fails
      cases fails
    | cons other right =>
      obtain ⟨rfl, later⟩ := List.cons.inj same
      obtain ⟨rfl, rests⟩ := hypothesis restPasses (List.forall_mem_cons.1 rightPasses).2 later
      exact ⟨rfl, rests⟩

/-! ### Names -/

/-- A character of a name. -/
def isNameCharacter (character : Char) : Bool :=
  Scan.isWordCharacter character || Scan.isSign character

theorem IsName.passes {name : String} (named : IsName name) :
    ∀ character ∈ name.toList, isNameCharacter character = true := by
  rcases named with word | ⟨operator, rfl⟩
  · intro character member
    rw [isNameCharacter, word.passes character member, Bool.true_or]
  · cases operator <;> exact List.all_eq_true.1 rfl

/-- What is no character of names is different from all that are. -/
theorem ne_of_isNameCharacter {character other : Char} (named : isNameCharacter character = true)
    (unnamed : isNameCharacter other = false) : character ≠ other := by
  rintro rfl
  rw [named] at unnamed
  cases unnamed

/-- Words in front of a character that goes on with no word. -/
theorem IsWord.eq_of_append {left right : String} {rest otherRest : List Char}
    (leftWord : IsWord left) (rightWord : IsWord right)
    (stops : ∀ character ∈ rest.head?, Scan.isWordCharacter character = false)
    (otherStops : ∀ character ∈ otherRest.head?, Scan.isWordCharacter character = false)
    (same : left.toList ++ rest = right.toList ++ otherRest) : left = right ∧ rest = otherRest := by
  obtain ⟨names, rests⟩ :=
    append_inj_of_stop leftWord.passes rightWord.passes stops otherStops same
  exact ⟨String.toList_injective names, rests⟩

/-- Names in front of a character of no name. -/
theorem IsName.eq_of_append {left right : String} {stop : Char} {rest otherRest : List Char}
    (leftNamed : IsName left) (rightNamed : IsName right) (stops : isNameCharacter stop = false)
    (same : left.toList ++ stop :: rest = right.toList ++ stop :: otherRest) :
    left = right ∧ rest = otherRest := by
  have ends : ∀ text, ∀ character ∈ (stop :: text).head?, isNameCharacter character = false := by
    rintro text character ⟨⟩
    exact stops
  obtain ⟨names, rests⟩ :=
    append_inj_of_stop leftNamed.passes rightNamed.passes (ends rest) (ends otherRest) same
  exact ⟨String.toList_injective names, (List.cons.inj rests).2⟩

/-! ### Names between quotes -/

/-- The characters of names are printable. -/
theorem isPrintable_of_isNameCharacter {character : Char}
    (named : isNameCharacter character = true) : Text.isPrintable character = true := by
  have range : 42 ≤ character.toNat ∧ character.toNat ≤ 122 := by
    have codes : '0'.toNat = 48 ∧ '9'.toNat = 57 ∧ 'A'.toNat = 65 ∧ 'Z'.toNat = 90 ∧
        'a'.toNat = 97 ∧ 'z'.toNat = 122 := ⟨rfl, rfl, rfl, rfl, rfl, rfl⟩
    simp only [isNameCharacter, Scan.isWordCharacter, Scan.isSign, Bool.or_eq_true,
      beq_iff_eq] at named
    rcases named with (letter | digit) | ((rfl | rfl) | rfl) | rfl
    · have code := isLetter_iff_toNat.1 letter
      omega
    · have code := Char.isDigit_iff_toNat.1 digit
      omega
    all_goals decide
  rw [Text.isPrintable_ascii (by omega)]
  exact decide_eq_true (by omega)

/-- A name is put between single quotes as it is. -/
theorem IsName.toList_quoted {name : String} (named : IsName name) :
    (Text.quoted name).toList = '\'' :: (name.toList ++ ['\'']) := by
  have quote : Text.quoteFor name.toList = '\'' := by
    have absent : name.toList.contains '\'' = false := by
      rw [List.contains_eq_mem, decide_eq_false_iff_not]
      exact fun member => ne_of_isNameCharacter (named.passes _ member) (by decide) rfl
    rw [Text.quoteFor, absent]
    rfl
  have each : ∀ character ∈ name.toList, Text.quoteChar '\'' character = [character] := by
    intro character member
    have passes := named.passes character member
    have different : ∀ other, isNameCharacter other = false → (character == other) = false :=
      fun other unnamed => beq_eq_false_iff_ne.2 (ne_of_isNameCharacter passes unnamed)
    rw [Text.quoteChar, different '\'' (by decide), different '\\' (by decide),
      different '\n' (by decide), different '\r' (by decide), different '\t' (by decide),
      isPrintable_of_isNameCharacter passes]
    rfl
  simp only [Text.quoted, String.toList_ofList, quote]
  rw [List.flatMap_congr each, List.flatMap_singleton', List.cons_append]

/-! ### Types -/

namespace Symbol

/-- The characters of the parts of a tuple, each behind a comma, and of its end. -/
def laterText : List Symbol → List Char
  | [] => [')']
  | part :: rest => ',' :: ' ' :: (part.quotedText.toList ++ laterText rest)

/-- The characters of a tuple after its first part. -/
def endText : List Symbol → List Char
  | [] => [',', ')']
  | rest => laterText rest

/-- The characters of a tuple after the parenthesis. -/
def innerText : List Symbol → List Char
  | [] => [')']
  | first :: rest => first.quotedText.toList ++ endText rest

theorem toList_quotedTexts (first : Symbol) (rest : List Symbol) :
    (String.intercalate ", " (quotedTexts (first :: rest))).toList ++ [')'] =
      first.quotedText.toList ++ laterText rest := by
  induction rest generalizing first with
  | nil => rfl
  | cons second rest hypothesis =>
    rw [quotedTexts, quotedTexts, String.intercalate_cons_cons, ← quotedTexts]
    simp only [String.toList_append, List.append_assoc, hypothesis second]
    rfl

theorem toList_quotedText_tuple (parts : List Symbol) :
    (tuple parts).quotedText.toList = '(' :: innerText parts := by
  match parts with
  | [] => rfl
  | [first] =>
    rw [quotedText]
    simp only [String.toList_append, List.append_assoc]
    rfl
  | first :: second :: rest =>
    rw [quotedText]
    · simp only [String.toList_append, List.append_assoc]
      rw [show ")".toList = [')'] from rfl, toList_quotedTexts]
      rfl
    · rintro part ⟨⟩

/-- The text of a type begins with a quote or a parenthesis. -/
theorem IsNamed.exists_quotedText {symbol : Symbol} (named : symbol.IsNamed) :
    ∃ first rest, symbol.quotedText.toList = first :: rest ∧ first ≠ ')' := by
  cases named with
  | name named => exact ⟨'\'', _, named.toList_quoted, by decide⟩
  | tuple each => exact ⟨'(', _, toList_quotedText_tuple _, by decide⟩

/-- A symbol that is found again from the characters that begin with its text. -/
def IsReadable (symbol : Symbol) : Prop :=
  ∀ {other : Symbol} {rest otherRest : List Char}, other.IsNamed →
    symbol.quotedText.toList ++ rest = other.quotedText.toList ++ otherRest →
      symbol = other ∧ rest = otherRest

section

variable {parts others : List Symbol} {rest otherRest : List Char}
  (readable : ∀ part ∈ parts, part.IsReadable) (named : ∀ other ∈ others, other.IsNamed)

include readable named

theorem eq_of_laterText (same : laterText parts ++ rest = laterText others ++ otherRest) :
    parts = others ∧ rest = otherRest := by
  induction parts generalizing others with
  | nil =>
    cases others with
    | nil => exact ⟨rfl, (List.cons.inj same).2⟩
    | cons other others => cases (List.cons.inj same).1
  | cons part parts hypothesis =>
    obtain ⟨partReadable, partsReadable⟩ := List.forall_mem_cons.1 readable
    cases others with
    | nil => cases (List.cons.inj same).1
    | cons other others =>
      obtain ⟨otherNamed, othersNamed⟩ := List.forall_mem_cons.1 named
      simp only [laterText, List.cons_append, List.append_assoc, List.cons.injEq, true_and] at same
      obtain ⟨rfl, later⟩ := partReadable otherNamed same
      obtain ⟨rfl, rests⟩ := hypothesis partsReadable othersNamed later
      exact ⟨rfl, rests⟩

theorem eq_of_endText (same : endText parts ++ rest = endText others ++ otherRest) :
    parts = others ∧ rest = otherRest := by
  cases parts with
  | nil =>
    cases others with
    | nil => exact ⟨rfl, (List.cons.inj (List.cons.inj same).2).2⟩
    | cons other others => cases (List.cons.inj (List.cons.inj same).2).1
  | cons part parts =>
    cases others with
    | nil => cases (List.cons.inj (List.cons.inj same).2).1
    | cons other others => exact eq_of_laterText readable named same

theorem eq_of_innerText (partsNamed : ∀ part ∈ parts, part.IsNamed)
    (same : innerText parts ++ rest = innerText others ++ otherRest) :
    parts = others ∧ rest = otherRest := by
  cases parts with
  | nil =>
    cases others with
    | nil => exact ⟨rfl, (List.cons.inj same).2⟩
    | cons other others =>
      obtain ⟨first, text, begins, different⟩ :=
        (named other List.mem_cons_self).exists_quotedText
      rw [innerText, innerText, begins] at same
      exact absurd (List.cons.inj same).1.symm different
  | cons part parts =>
    cases others with
    | nil =>
      obtain ⟨first, text, begins, different⟩ :=
        (partsNamed part List.mem_cons_self).exists_quotedText
      rw [innerText, innerText, begins] at same
      exact absurd (List.cons.inj same).1 different
    | cons other others =>
      obtain ⟨partReadable, partsReadable⟩ := List.forall_mem_cons.1 readable
      obtain ⟨otherNamed, othersNamed⟩ := List.forall_mem_cons.1 named
      rw [innerText, innerText, List.append_assoc, List.append_assoc] at same
      obtain ⟨rfl, later⟩ := partReadable otherNamed same
      obtain ⟨rfl, rests⟩ := eq_of_endText partsReadable othersNamed later
      exact ⟨rfl, rests⟩

end

/-- Types are found again from their texts. -/
theorem IsNamed.isReadable {symbol : Symbol} (named : symbol.IsNamed) : symbol.IsReadable := by
  induction named with
  | @name text named =>
    intro other rest otherRest otherNamed same
    rw [quotedText, named.toList_quoted] at same
    cases otherNamed with
    | @name otherText otherNamed =>
      rw [quotedText, otherNamed.toList_quoted] at same
      simp only [List.cons_append, List.append_assoc, List.nil_append, List.cons.injEq,
        true_and] at same
      obtain ⟨rfl, rests⟩ := named.eq_of_append otherNamed (by decide) same
      exact ⟨rfl, rests⟩
    | @tuple others each =>
      rw [toList_quotedText_tuple] at same
      cases (List.cons.inj same).1
  | @tuple parts each readable =>
    intro other rest otherRest otherNamed same
    rw [toList_quotedText_tuple] at same
    cases otherNamed with
    | @name otherText otherNamed =>
      rw [quotedText, otherNamed.toList_quoted] at same
      cases (List.cons.inj same).1
    | @tuple others othersNamed =>
      rw [toList_quotedText_tuple] at same
      obtain ⟨rfl, rests⟩ :=
        eq_of_innerText readable othersNamed each (List.cons.inj same).2
      exact ⟨rfl, rests⟩

end Symbol

/-! ### Indexes and numbers -/

/-- What may follow a part of a term: nothing, a blank or a closing parenthesis. -/
def Stops (rest : List Char) : Prop :=
  ∀ character ∈ rest.head?, character = ' ' ∨ character = ')'

namespace Stops

theorem nil : Stops [] :=
  nofun

theorem blank (rest : List Char) : Stops (' ' :: rest) := by
  rintro character ⟨⟩
  exact .inl rfl

theorem closing (rest : List Char) : Stops (')' :: rest) := by
  rintro character ⟨⟩
  exact .inr rfl

/-- What stops fails every test that a blank and a closing parenthesis fail. -/
theorem fails {test : Char → Bool} (blank : test ' ' = false) (closing : test ')' = false)
    {rest : List Char} (stops : Stops rest) :
    ∀ character ∈ rest.head?, test character = false := by
  intro character first
  rcases stops character first with rfl | rfl
  · exact blank
  · exact closing

end Stops

theorem toList_index (place : Nat) : (toString (place : Int)).toList = Nat.toDigits 10 place := by
  rw [Int.toString_eq_repr]
  exact Nat.toList_repr

/-- Indexes are found again from their digits. -/
theorem eq_of_index {left right : Nat} {rest otherRest : List Char} (stops : Stops rest)
    (otherStops : Stops otherRest)
    (same : (toString (left : Int)).toList ++ rest = (toString (right : Int)).toList ++ otherRest) :
    left = right ∧ rest = otherRest := by
  have digits : ∀ value : Nat, ∀ character ∈ Nat.toDigits 10 value, character.isDigit = true :=
    fun value character member => Nat.isDigit_of_mem_toDigits (by decide) (by decide) member
  rw [toList_index, toList_index] at same
  obtain ⟨texts, rests⟩ := append_inj_of_stop (digits left) (digits right)
    (stops.fails rfl rfl) (otherStops.fails rfl rfl) same
  refine ⟨?_, rests⟩
  calc
    left = Nat.ofDigitChars 10 (Nat.toDigits 10 left) 0 := Nat.ofDigitChars_ten_toDigits.symm
    _ = Nat.ofDigitChars 10 (Nat.toDigits 10 right) 0 := by rw [texts]
    _ = right := Nat.ofDigitChars_ten_toDigits

/-- A character of the text of a number. -/
def isNumberCharacter (character : Char) : Bool :=
  isFigure character || Scan.isLetter character

theorem isNumberCharacter_of_mem_floatText (value : Float) :
    ∀ character ∈ (floatText value).toList, isNumberCharacter character = true := by
  rcases floatText_cases value with ⟨text, -⟩ | text | text | numeral
  · rw [text]
    exact List.all_eq_true.1 rfl
  · rw [text]
    exact List.all_eq_true.1 rfl
  · rw [text]
    exact List.all_eq_true.1 rfl
  · intro character member
    rw [isNumberCharacter, numeral.figures character member, Bool.true_or]

/-- The texts of numbers are found again. -/
theorem eq_of_floatText_append {left right : Float} {rest otherRest : List Char}
    (stops : Stops rest) (otherStops : Stops otherRest)
    (same : (floatText left).toList ++ rest = (floatText right).toList ++ otherRest) :
    floatText left = floatText right ∧ rest = otherRest := by
  obtain ⟨texts, rests⟩ := append_inj_of_stop (isNumberCharacter_of_mem_floatText left)
    (isNumberCharacter_of_mem_floatText right) (stops.fails rfl rfl) (otherStops.fails rfl rfl) same
  exact ⟨String.toList_injective texts, rests⟩

end WordArithmetic
