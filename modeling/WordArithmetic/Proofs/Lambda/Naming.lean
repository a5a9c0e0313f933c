/-
This file says what the names in a text can be.

An identifier is a word, that is a letter with letters and digits behind it, or the sign of an
operator. So no name holds a blank, a parenthesis or a quote, and none is the bottom symbol.
-/

import WordArithmetic.Lambda.Term
import WordArithmetic.Lambda.Token

namespace WordArithmetic

/-- A word: a letter, and then letters and digits. -/
def IsWord (name : String) : Prop :=
  ∃ first rest, name.toList = first :: rest ∧ Scan.isLetter first = true ∧
    ∀ character ∈ rest, Scan.isWordCharacter character = true

/-- A name in a program: a word or the sign of an operator. -/
def IsName (name : String) : Prop :=
  IsWord name ∨ ∃ operator : Operator, name = operator.sign

theorem isWordCharacter_of_isLetter {character : Char} (letter : Scan.isLetter character = true) :
    Scan.isWordCharacter character = true := by
  rw [Scan.isWordCharacter, Bool.or_eq_true]
  exact .inl letter

theorem isLetter_iff_toNat {character : Char} : Scan.isLetter character = true ↔
    ('A'.toNat ≤ character.toNat ∧ character.toNat ≤ 'Z'.toNat) ∨
      'a'.toNat ≤ character.toNat ∧ character.toNat ≤ 'z'.toNat := by
  have ranges : Scan.isLetter character =
      (decide ('A'.val ≤ character.val ∧ character.val ≤ 'Z'.val) ||
        (decide ('a'.val ≤ character.val) && decide (character.val ≤ 'z'.val))) := rfl
  rw [ranges]
  simp only [Bool.or_eq_true, Bool.and_eq_true, decide_eq_true_eq, UInt32.le_iff_toNat_le]
  exact Iff.rfl

theorem isLetter_eq_false_of_isDigit {character : Char} (digit : character.isDigit = true) :
    Scan.isLetter character = false := by
  refine Bool.eq_false_iff.2 fun letter => ?_
  rw [Char.isDigit_iff_toNat] at digit
  rw [isLetter_iff_toNat] at letter
  have codes : '9'.toNat = 57 ∧ 'A'.toNat = 65 ∧ 'a'.toNat = 97 := ⟨rfl, rfl, rfl⟩
  omega

theorem IsWord.passes {name : String} (word : IsWord name) :
    ∀ character ∈ name.toList, Scan.isWordCharacter character = true := by
  obtain ⟨first, rest, characters, letter, others⟩ := word
  rw [characters]
  exact List.forall_mem_cons.2 ⟨isWordCharacter_of_isLetter letter, others⟩

/-- Whether a token that is an identifier has a name. -/
def TokenKind.IsNamed : TokenKind → Prop
  | .identifier name => IsName name
  | _ => True

namespace Scan

theorem isNamed_ofWord {first : Char} (letter : isLetter first = true) (rest : List Char) :
    (TokenKind.ofWord (String.ofList (first :: rest.takeWhile isWordCharacter))).IsNamed := by
  unfold TokenKind.ofWord
  split
  · exact trivial
  · split
    · exact trivial
    · exact .inl ⟨first, _, String.toList_ofList, letter,
        List.all_eq_true.1 List.all_takeWhile⟩

theorem exists_operator_of_isSign {first : Char} (sign : isSign first = true) :
    ∃ operator : Operator, first.toString = operator.sign := by
  simp only [isSign, Bool.or_eq_true, beq_iff_eq] at sign
  rcases sign with ((rfl | rfl) | rfl) | rfl
  · exact ⟨.addition, rfl⟩
  · exact ⟨.subtraction, rfl⟩
  · exact ⟨.multiplication, rfl⟩
  · exact ⟨.division, rfl⟩

theorem isNamed_token? {text : List Char} {kind : TokenKind} {size : Nat}
    (found : token? text = some (kind, size)) : kind.IsNamed := by
  match text with
  | [] => cases found
  | first :: rest =>
    rw [token?] at found
    split at found
    · cases found
      exact trivial
    · split at found
      · rename_i letter
        cases found
        exact isNamed_ofWord letter rest
      · split at found
        · rename_i sign
          cases found
          exact .inr (exists_operator_of_isSign sign)
        · repeat' split at found
          all_goals cases found
          all_goals exact trivial

/-- The identifiers of a text have names. -/
theorem isNamed_of_mem_scanFrom (position line : Nat) (text : List Char) :
    ∀ token ∈ (scanFrom position line text).tokens, token.kind.IsNamed := by
  fun_induction scanFrom position line text with
  | case1 position line => exact List.forall_mem_nil _
  | case2 position line first rest feed hypothesis => exact hypothesis
  | case3 position line first rest _ blank hypothesis => exact hypothesis
  | case4 position line first rest _ _ stopped => exact List.forall_mem_nil _
  | case5 position line first rest _ _ kind size found later hypothesis =>
    exact List.forall_mem_cons.2 ⟨isNamed_token? found, hypothesis⟩

/-- Tokens that a text begins with have names. -/
theorem isNamed_of_prefix {code : String} {kinds : List TokenKind}
    (begins : kinds <+: (ofText code).tokens.map Token.kind) : ∀ kind ∈ kinds, kind.IsNamed := by
  intro kind member
  obtain ⟨token, inside, rfl⟩ := List.mem_map.1 (begins.subset member)
  exact isNamed_of_mem_scanFrom 0 1 code.toList token inside

end Scan

end WordArithmetic
