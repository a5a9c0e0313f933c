/-
This file says what the text of a float can be.

The text of a finite float begins with a digit or a minus sign and consists of digits, a point, the
mark of an exponent and signs. The two infinities and the undefined number are words. So the
undefined number can be told from all others by its text, and since there is only one, floats have
different texts as soon as those that are numbers do.
-/

import WordArithmetic.Number.Shortest

namespace WordArithmetic

/-- A character of the text of a finite float. -/
def isFigure (character : Char) : Bool :=
  character.isDigit || character == '.' || character == 'e' || character == '+' || character == '-'

theorem isFigure_of_isDigit {character : Char} (digit : character.isDigit = true) :
    isFigure character = true := by
  simp only [isFigure, digit, Bool.true_or]

/-- The text of a finite float: figures, the first of them a digit or a minus sign. -/
structure IsNumeral (text : List Char) : Prop where
  figures : ∀ character ∈ text, isFigure character = true
  begins : ∃ first rest, text = first :: rest ∧ (first.isDigit = true ∨ first = '-')

/-! ### Digits -/

theorem isDigit_of_mem_decimalDigits (value : Nat) {character : Char}
    (member : character ∈ decimalDigits value) : character.isDigit = true :=
  Nat.isDigit_of_mem_toDigits (by decide) (by decide) member

theorem isFigure_of_mem_decimalDigits (value : Nat) :
    ∀ character ∈ decimalDigits value, isFigure character = true :=
  fun _ member => isFigure_of_isDigit (isDigit_of_mem_decimalDigits value member)

/-- Digits are not empty, and the first is one. -/
theorem exists_decimalDigits (value : Nat) :
    ∃ first rest, decimalDigits value = first :: rest ∧ first.isDigit = true := by
  cases digits : decimalDigits value with
  | nil => exact absurd digits Nat.toDigits_ne_nil
  | cons first rest =>
    refine ⟨first, rest, rfl, isDigit_of_mem_decimalDigits value ?_⟩
    rw [digits]
    exact List.mem_cons_self

/-! ### The two notations -/

section

variable {digits : List Char} (each : ∀ character ∈ digits, isFigure character = true)

include each

theorem figures_positional (point : Int) :
    ∀ character ∈ positional digits point, isFigure character = true := by
  have zeros : ∀ count, ∀ character ∈ List.replicate count '0', isFigure character = true := by
    rintro count character member
    obtain rfl := List.eq_of_mem_replicate member
    rfl
  unfold positional
  split
  · refine List.forall_mem_cons.2 ⟨rfl, List.forall_mem_cons.2 ⟨rfl, ?_⟩⟩
    exact List.forall_mem_append.2 ⟨zeros _, each⟩
  · have padded := List.forall_mem_append.2 ⟨each, zeros (point.toNat - digits.length)⟩
    refine List.forall_mem_append.2
      ⟨fun character member => padded character (List.mem_of_mem_take member),
        List.forall_mem_cons.2 ⟨rfl, ?_⟩⟩
    split
    · exact List.forall_mem_singleton.2 rfl
    · exact fun character member => padded character (List.mem_of_mem_drop member)

theorem figures_scientific (point : Int) :
    ∀ character ∈ scientific digits point, isFigure character = true := by
  unfold scientific
  refine List.forall_mem_append.2
    ⟨?_, List.forall_mem_cons.2 ⟨rfl, List.forall_mem_cons.2 ⟨?_, ?_⟩⟩⟩
  · split
    · exact List.forall_mem_nil _
    · exact each
    · obtain ⟨first, rest⟩ := List.forall_mem_cons.1 each
      exact List.forall_mem_cons.2 ⟨first, List.forall_mem_cons.2 ⟨rfl, rest⟩⟩
  · split <;> rfl
  · split
    · exact List.forall_mem_cons.2 ⟨rfl, isFigure_of_mem_decimalDigits _⟩
    · exact isFigure_of_mem_decimalDigits _

end

section

variable {first : Char} (digit : first.isDigit = true) (rest : List Char)

include digit

theorem begins_positional (point : Int) :
    ∃ head tail, positional (first :: rest) point = head :: tail ∧ head.isDigit = true := by
  unfold positional
  split
  · exact ⟨'0', _, rfl, rfl⟩
  · rename_i above
    obtain ⟨count, same⟩ : ∃ count, point.toNat = count + 1 := ⟨point.toNat - 1, by omega⟩
    simp only [same]
    exact ⟨first, _, rfl, digit⟩

theorem begins_scientific (point : Int) :
    ∃ head tail, scientific (first :: rest) point = head :: tail ∧ head.isDigit = true := by
  unfold scientific
  cases rest with
  | nil => exact ⟨first, _, rfl, digit⟩
  | cons second others => exact ⟨first, _, rfl, digit⟩

end

/-! ### Texts -/

theorem isNumeral_of_digit {text : List Char}
    (figures : ∀ character ∈ text, isFigure character = true)
    (begins : ∃ first rest, text = first :: rest ∧ first.isDigit = true) : IsNumeral text := by
  obtain ⟨first, rest, same, digit⟩ := begins
  exact ⟨figures, first, rest, same, .inl digit⟩

/-- The text of a finite float is a numeral. -/
theorem isNumeral_floatText {number : Float} {parts : Binary}
    (finite : FloatShape.ofFloat number = .finite parts) : IsNumeral (floatText number).toList := by
  have signed : ∀ unsigned, IsNumeral unsigned →
      IsNumeral (if parts.negative then '-' :: unsigned else unsigned) := by
    intro unsigned numeral
    split
    · exact ⟨List.forall_mem_cons.2 ⟨rfl, numeral.figures⟩, '-', unsigned, rfl, .inr rfl⟩
    · exact numeral
  rw [floatText, finite]
  simp only [String.toList_ofList]
  refine signed _ ?_
  split
  · exact isNumeral_of_digit (List.all_eq_true.1 rfl) ⟨'0', _, rfl, rfl⟩
  · obtain ⟨first, rest, same, digit⟩ :=
      exists_decimalDigits (shortestDecimal parts.significand parts.exponent).digits
    have each := isFigure_of_mem_decimalDigits
      (shortestDecimal parts.significand parts.exponent).digits
    rw [same] at each ⊢
    split
    · exact isNumeral_of_digit (figures_positional each _) (begins_positional digit rest _)
    · exact isNumeral_of_digit (figures_scientific each _) (begins_scientific digit rest _)

/-- The text of a float is that of the undefined number, of an infinity, or a numeral. -/
theorem floatText_cases (number : Float) :
    (floatText number = "nan" ∧ FloatShape.ofFloat number = .undefined) ∨
      floatText number = "inf" ∨ floatText number = "-inf" ∨
      IsNumeral (floatText number).toList := by
  cases shape : FloatShape.ofFloat number with
  | undefined => exact .inl ⟨by rw [floatText, shape], rfl⟩
  | infinite negative =>
    have text : floatText number = if negative then "-inf" else "inf" := by rw [floatText, shape]
    cases negative with
    | false => exact .inr (.inl text)
    | true => exact .inr (.inr (.inl text))
  | finite parts => exact .inr (.inr (.inr (isNumeral_floatText shape)))

/-! ### The undefined number -/

open Float.Model in
/-- The bits of an undefined number are the ones that are reserved for it. -/
theorem FloatShape.toBitVec_of_undefined {number : Float}
    (undefined : ofFloat number = .undefined) :
    number.toBits.toBitVec = UnpackedFloat.packedNaN Format.binary64 := by
  have special : number.toBits.toNat / Nat.pow 2 52 % Nat.pow 2 11 = 2047 ∧
      number.toBits.toNat % Nat.pow 2 52 ≠ 0 := by
    rw [ofFloat, ofBits] at undefined
    split at undefined
    · rename_i field
      split at undefined
      · cases undefined
      · rename_i fraction
        exact ⟨beq_iff_eq.1 field, fun zero => fraction (beq_iff_eq.2 zero)⟩
    · split at undefined <;> cases undefined
  obtain ⟨field, fraction⟩ := special
  refine number.toModel.valid.eq_packedNaN (BitVec.eq_of_toNat_eq ?_) fun zero => fraction ?_
  · rw [UnpackedFloat.unpackExponent, BitVec.toNat_cast, BitVec.extractLsb_toNat,
      Nat.shiftRight_eq_div_pow]
    exact field
  · have bits := congrArg BitVec.toNat zero
    rw [UnpackedFloat.unpackMantissa, BitVec.toNat_cast, BitVec.extractLsb_toNat] at bits
    exact bits

/-- Floats are told apart by their bits. -/
theorem eq_of_toBits_eq : {left right : Float} → left.toBits = right.toBits → left = right
  | ⟨⟨_, _⟩⟩, ⟨⟨_, _⟩⟩, rfl => rfl

/-- There is one undefined number only. -/
theorem FloatShape.eq_of_undefined {left right : Float} (leftUndefined : ofFloat left = .undefined)
    (rightUndefined : ofFloat right = .undefined) : left = right :=
  eq_of_toBits_eq (UInt64.toBitVec_inj.1
    ((toBitVec_of_undefined leftUndefined).trans (toBitVec_of_undefined rightUndefined).symm))

/-- Only the undefined number has its text. -/
theorem undefined_of_floatText {number : Float} (text : floatText number = "nan") :
    FloatShape.ofFloat number = .undefined := by
  rcases floatText_cases number with ⟨-, undefined⟩ | positive | negative | numeral
  · exact undefined
  · rw [positive] at text
    exact absurd text (by decide)
  · rw [negative] at text
    exact absurd text (by decide)
  · rw [text] at numeral
    obtain ⟨first, rest, same, begins⟩ := numeral.begins
    obtain ⟨rfl, -⟩ := List.cons.inj same
    exact absurd begins (by decide)

/-- Two floats have different texts if that is so of numbers. -/
theorem eq_of_floatText_eq {left right : Float}
    (distinct : left ≠ right → FloatShape.ofFloat left ≠ .undefined →
      FloatShape.ofFloat right ≠ .undefined → floatText left ≠ floatText right)
    (same : floatText left = floatText right) : left = right := by
  refine Classical.byContradiction fun different => ?_
  by_cases leftUndefined : FloatShape.ofFloat left = .undefined
  · have text : floatText left = "nan" := by rw [floatText, leftUndefined]
    exact different (FloatShape.eq_of_undefined leftUndefined
      (undefined_of_floatText (same.symm.trans text)))
  by_cases rightUndefined : FloatShape.ofFloat right = .undefined
  · have text : floatText right = "nan" := by rw [floatText, rightUndefined]
    exact leftUndefined (undefined_of_floatText (same.trans text))
  · exact distinct different leftUndefined rightUndefined same

end WordArithmetic
