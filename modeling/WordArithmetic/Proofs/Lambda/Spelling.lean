/-
This file shows that legible terms can be read back from their printed form.

The kind of a term shows in its first characters: only an abstraction begins with the reserved word
in a parenthesis, only an operator has a parenthesis behind its first character, and a word with a
dash behind it begins a variable, as no number does. So two legible terms in one scope that are
printed alike up to some character are of one kind, and then their parts are printed alike, one
after the other. The type of a variable is not printed, but the parameter that its index points to
has it, and a free variable has none.
-/

import WordArithmetic.Lambda.Evaluation
import WordArithmetic.Proofs.Lambda.Readability

namespace WordArithmetic

/-- How an abstraction begins. -/
def abstractionOpening : List Char := ['(', 'l', 'a', 'm', 'b', 'd', 'a', ' ', '(']

/-- The characters that a term is printed with. -/
def Term.spelling : Term → List Char
  | .variable name _ index => name.toList ++ '-' :: (toString index).toList
  | .abstraction name type body =>
    abstractionOpening ++ (name.toList ++ ':' ::
      (type.text.toList ++ ')' :: ' ' :: (body.spelling ++ [')'])))
  | .application function argument =>
    '(' :: (function.spelling ++ ' ' :: (argument.spelling ++ [')']))
  | .external function missing arguments =>
    (LatentForm.ofTerm (.external function missing arguments)).printed.toList

/-- The numbers in a term. -/
def Term.numbers : Term → List Float
  | .variable .. => []
  | .abstraction _ _ body => body.numbers
  | .application function argument => function.numbers ++ argument.numbers
  | .external function _ _ =>
    match function.rule with
    | .fixed (.float value) => [value]
    | _ => []

/-- A legible term is printed as it is spelled. -/
theorem Legible.print_eq {scope : Scope} {term : Term} (legible : Legible scope term) :
    term.print = .ok (String.ofList term.spelling) := by
  have own : ∀ text : String, toString text = text := fun _ => rfl
  have ofVariable : ∀ (name : String) (type : TypeCode) (index : Int),
      (Term.variable name type index).print =
        .ok (String.ofList (Term.variable name type index).spelling) := by
    intro name type index
    rw [Term.print, Term.spelling]
    refine congrArg Except.ok (String.toList_injective ?_)
    simp only [String.toList_append, String.toList_ofList, List.append_assoc, own name]
    rfl
  have ofExternal : ∀ {term : Term} {printed : String}, term.print = .ok printed →
      term.spelling = (LatentForm.ofTerm term).printed.toList →
        term.print = .ok (String.ofList term.spelling) := by
    intro term printed shown same
    rw [same, LatentForm.ofTerm, shown, String.ofList_toList]
  induction legible with
  | free word absent => exact ofVariable _ _ _
  | bound word binder => exact ofVariable _ _ _
  | abstraction named typed inside hypothesis =>
    rw [Term.print, Term.spelling, hypothesis]
    refine congrArg Except.ok (String.toList_injective ?_)
    simp only [String.toList_append, String.toList_ofList, List.append_assoc, own]
    rfl
  | application applied supplied functionHypothesis argumentHypothesis =>
    rw [Term.print, Term.spelling, functionHypothesis, argumentHypothesis]
    refine congrArg Except.ok (String.toList_injective ?_)
    simp only [String.toList_append, String.toList_ofList, List.append_assoc, own]
    rfl
  | number value =>
    have shown : (Term.number value).print = .ok (floatText value) := rfl
    exact ofExternal shown rfl
  | operator operator => cases operator <;> exact ofExternal rfl rfl

theorem Term.spelling_number (value : Float) :
    (Term.number value).spelling = (floatText value).toList := rfl

/-- How an operator without arguments goes on after its sign. -/
def placeholdersText : List Char := "(__x__-2,__x__-1)".toList

theorem Term.spelling_operator (operator : Operator) :
    operator.external.term.spelling = operator.sign.toList ++ placeholdersText := by
  cases operator <;> decide

/-! ### Kinds -/

/-- The operator of a sign. -/
def Operator.ofSign (sign : Char) : Operator :=
  if sign == '+' then .addition
  else if sign == '-' then .subtraction
  else if sign == '*' then .multiplication
  else .division

/-- The kind of the term that a text begins with. -/
def kindOf : List Char → Term.Kind
  | [] => .fixed
  | first :: rest =>
    if first == '(' then
      if "lambda ".toList.isPrefixOf rest then .abstraction else .application
    else if rest.head? == some '(' then .arithmetic (Operator.ofSign first)
    else if Scan.isLetter first && (rest.dropWhile Scan.isWordCharacter).head? == some '-' then
      .variable
    else .fixed

/-- A word with a dash behind it begins a variable. -/
theorem kindOf_word {name : String} (word : IsWord name) (rest : List Char) :
    kindOf (name.toList ++ '-' :: rest) = .variable := by
  obtain ⟨first, later, characters, letter, others⟩ := word
  rw [characters, List.cons_append, kindOf]
  have notOpening : (first == '(') = false := by
    refine beq_eq_false_iff_ne.2 ?_
    rintro rfl
    exact absurd letter (by decide)
  have notCalled : ((later ++ '-' :: rest).head? == some '(') = false := by
    cases later with
    | nil => rfl
    | cons second later =>
      refine beq_eq_false_iff_ne.2 fun same => ?_
      obtain rfl := Option.some.inj same
      exact absurd (others '(' List.mem_cons_self) (by decide)
  have dropped : (later ++ '-' :: rest).dropWhile Scan.isWordCharacter = '-' :: rest :=
    List.dropWhile_append_of_pos others
  rw [notOpening, notCalled, letter, dropped]
  rfl

/-- Behind the first character of a number stands no parenthesis that opens. -/
theorem head?_ne_opening {later rest : List Char}
    (number : ∀ character ∈ later, isNumberCharacter character = true) (stops : Stops rest) :
    ((later ++ rest).head? == some '(') = false := by
  refine beq_eq_false_iff_ne.2 fun same => ?_
  cases later with
  | nil => rcases stops '(' same with impossible | impossible <;> cases impossible
  | cons second later =>
    obtain rfl := Option.some.inj same
    exact absurd (number '(' List.mem_cons_self) (by decide)

/-- What begins with a digit or a sign and has no parenthesis behind it is a number. -/
theorem kindOf_numeral {first : Char} {later rest : List Char}
    (begins : first.isDigit = true ∨ first = '-')
    (number : ∀ character ∈ later, isNumberCharacter character = true) (stops : Stops rest) :
    kindOf (first :: later ++ rest) = .fixed := by
  have notOpening : (first == '(') = false := by
    refine beq_eq_false_iff_ne.2 ?_
    rintro rfl
    exact absurd begins (by decide)
  have noLetter : Scan.isLetter first = false := by
    rcases begins with digit | rfl
    · exact isLetter_eq_false_of_isDigit digit
    · rfl
  rw [List.cons_append, kindOf, notOpening, head?_ne_opening number stops, noLetter]
  rfl

/-- A word that ends where a term may end is a number. -/
theorem kindOf_numberWord {first : Char} {later rest : List Char}
    (notOpening : (first == '(') = false)
    (number : ∀ character ∈ later, isNumberCharacter character = true)
    (word : ∀ character ∈ later, Scan.isWordCharacter character = true) (stops : Stops rest) :
    kindOf (first :: later ++ rest) = .fixed := by
  have noDash : ((later ++ rest).dropWhile Scan.isWordCharacter).head? ≠ some '-' := by
    rw [List.dropWhile_append_of_pos word]
    cases rest with
    | nil => exact nofun
    | cons stop rest =>
      rcases stops stop rfl with rfl | rfl <;> exact nofun
  rw [List.cons_append, kindOf, notOpening, head?_ne_opening number stops,
    beq_eq_false_iff_ne.2 noDash, Bool.and_false]
  rfl

/-- A number begins no text of another kind. -/
theorem kindOf_number (value : Float) {rest : List Char} (stops : Stops rest) :
    kindOf ((floatText value).toList ++ rest) = .fixed := by
  rcases floatText_cases value with ⟨text, -⟩ | text | text | numeral
  · rw [text]
    exact kindOf_numberWord (by decide) (List.all_eq_true.1 rfl) (List.all_eq_true.1 rfl) stops
  · rw [text]
    exact kindOf_numberWord (by decide) (List.all_eq_true.1 rfl) (List.all_eq_true.1 rfl) stops
  · rw [text]
    exact kindOf_numeral (.inr rfl) (List.all_eq_true.1 rfl) stops
  · obtain ⟨first, later, same, begins⟩ := numeral.begins
    have number := isNumberCharacter_of_mem_floatText value
    rw [same] at number ⊢
    exact kindOf_numeral begins (List.forall_mem_cons.1 number).2 stops

theorem floatText_ne_lambda {value : Float} : floatText value ≠ "lambda" := by
  intro same
  rcases floatText_cases value with ⟨text, -⟩ | text | text | numeral
  · exact absurd (text.symm.trans same) (by decide)
  · exact absurd (text.symm.trans same) (by decide)
  · exact absurd (text.symm.trans same) (by decide)
  · rw [same] at numeral
    obtain ⟨first, later, letters, begins⟩ := numeral.begins
    obtain ⟨rfl, -⟩ := List.cons.inj letters
    exact absurd begins (by decide)

/-- No term begins as an abstraction does inside its parenthesis. -/
theorem Legible.not_lambda {scope : Scope} {term : Term} (legible : Legible scope term)
    (rest : List Char) : "lambda ".toList.isPrefixOf (term.spelling ++ ' ' :: rest) = false := by
  have ofVariable : ∀ {name : String} {type : TypeCode} {index : Int}, IsWord name →
      "lambda ".toList.isPrefixOf
        ((Term.variable name type index).spelling ++ ' ' :: rest) = false := by
    intro name type index word
    refine Bool.eq_false_iff.2 fun begins => ?_
    obtain ⟨text, same⟩ := List.isPrefixOf_iff_prefix.1 begins
    rw [Term.spelling, List.append_assoc] at same
    have reserved : ∀ character ∈ "lambda".toList, Scan.isWordCharacter character = true :=
      List.all_eq_true.1 rfl
    have stopped : ("lambda".toList ++ ' ' :: text) = name.toList ++ _ := same
    cases (append_inj_of_stop reserved word.passes (by rintro _ ⟨⟩; rfl) (by rintro _ ⟨⟩; rfl)
      stopped).2
  cases legible with
  | free word absent => exact ofVariable word
  | bound word binder => exact ofVariable word
  | abstraction named typed inside => rfl
  | application applied supplied => rfl
  | number value =>
    refine Bool.eq_false_iff.2 fun begins => ?_
    obtain ⟨text, same⟩ := List.isPrefixOf_iff_prefix.1 begins
    rw [Term.spelling_number] at same
    have reserved : ∀ character ∈ "lambda".toList, isNumberCharacter character = true :=
      List.all_eq_true.1 rfl
    have stopped : ("lambda".toList ++ ' ' :: text) =
        (floatText value).toList ++ ' ' :: rest := same
    have word := (append_inj_of_stop reserved (isNumberCharacter_of_mem_floatText value)
      (by rintro _ ⟨⟩; rfl) (by rintro _ ⟨⟩; rfl) stopped).1
    exact floatText_ne_lambda (String.toList_injective word).symm
  | operator operator => cases operator <;> rfl

/-- The kind of a legible term can be told from its printed form. -/
theorem Legible.kindOf_spelling {scope : Scope} {term : Term} (legible : Legible scope term)
    {rest : List Char} (stops : Stops rest) : kindOf (term.spelling ++ rest) = term.kind := by
  cases legible with
  | free word absent =>
    rw [Term.free, Term.spelling, List.append_assoc]
    exact kindOf_word word _
  | bound word binder =>
    rw [Term.spelling, List.append_assoc]
    exact kindOf_word word _
  | abstraction named typed inside => rfl
  | @application _ function argument applied supplied =>
    have inside := applied.not_lambda (argument.spelling ++ [')'] ++ rest)
    rw [Term.spelling, List.cons_append, List.append_assoc, List.cons_append, kindOf, inside]
    rfl
  | number value =>
    rw [Term.spelling_number]
    exact kindOf_number value stops
  | operator operator =>
    rw [Term.spelling_operator, List.append_assoc]
    cases operator <;> rfl

/-- Legible terms that begin the same text are of the same kind. -/
theorem Legible.kind_eq {scope otherScope : Scope} {left right : Term} {rest otherRest : List Char}
    (leftLegible : Legible scope left) (rightLegible : Legible otherScope right)
    (stops : Stops rest) (otherStops : Stops otherRest)
    (same : left.spelling ++ rest = right.spelling ++ otherRest) : left.kind = right.kind := by
  rw [← leftLegible.kindOf_spelling stops, ← rightLegible.kindOf_spelling otherStops, same]

/-! ### Reading back -/

/-- A term that is found again, among the legible terms of a scope, from the characters that begin
with its spelling, if its numbers can be told from theirs. -/
def Term.IsReadable (scope : Scope) (term : Term) : Prop :=
  ∀ {other : Term} {rest otherRest : List Char}, Legible scope other →
    (∀ first ∈ term.numbers, ∀ second ∈ other.numbers,
      floatText first = floatText second → first = second) →
    Stops rest → Stops otherRest → term.spelling ++ rest = other.spelling ++ otherRest →
      term = other ∧ rest = otherRest

namespace Legible

variable {scope : Scope}

/-- A legible variable is named by a word and has a natural number as index. -/
theorem exists_index {name : String} {type : TypeCode} {index : Int}
    (legible : Legible scope (.variable name type index)) :
    IsWord name ∧ ∃ place : Nat, index = place := by
  cases legible with
  | free word absent => exact ⟨word, 100000, rfl⟩
  | @bound _ _ _ index word binder => exact ⟨word, index + 1, rfl⟩

/-- The type of a legible variable follows from its name and its index: if it is bound, then by a
parameter of its name, and no variable of that name is free. -/
theorem type_eq {name : String} {type otherType : TypeCode} {index : Int}
    (legible : Legible scope (.variable name type index))
    (otherLegible : Legible scope (.variable name otherType index)) : type = otherType := by
  cases legible with
  | free word absent =>
    cases otherLegible with
    | free otherWord otherAbsent => rfl
    | bound otherWord binder =>
      exact absurd (List.mem_map_of_mem (List.mem_of_getElem? binder)) absent
  | bound word binder =>
    cases otherLegible with
    | free otherWord absent =>
      exact absurd (List.mem_map_of_mem (List.mem_of_getElem? binder)) absent
    | bound otherWord otherBinder =>
      have parameters := Option.some.inj (binder.symm.trans otherBinder)
      rw [(Prod.mk.inj parameters).2]

/-- Legible variables that begin the same text are the same variable. -/
theorem eq_of_variable_spelling {name otherName : String} {type otherType : TypeCode}
    {index otherIndex : Int} {rest otherRest : List Char}
    (legible : Legible scope (.variable name type index))
    (otherLegible : Legible scope (.variable otherName otherType otherIndex))
    (stops : Stops rest) (otherStops : Stops otherRest)
    (same : (Term.variable name type index).spelling ++ rest =
      (Term.variable otherName otherType otherIndex).spelling ++ otherRest) :
    Term.variable name type index = .variable otherName otherType otherIndex ∧
      rest = otherRest := by
  obtain ⟨word, place, rfl⟩ := legible.exists_index
  obtain ⟨otherWord, otherPlace, rfl⟩ := otherLegible.exists_index
  rw [Term.spelling, Term.spelling, List.append_assoc, List.append_assoc] at same
  obtain ⟨rfl, later⟩ := word.eq_of_append otherWord (by rintro _ ⟨⟩; rfl)
    (by rintro _ ⟨⟩; rfl) same
  obtain ⟨rfl, rests⟩ := eq_of_index stops otherStops (List.cons.inj later).2
  rw [legible.type_eq otherLegible]
  exact ⟨rfl, rests⟩

theorem isReadable_variable {name : String} {type : TypeCode} {index : Int}
    (legible : Legible scope (.variable name type index)) :
    (Term.variable name type index).IsReadable scope := by
  intro other rest otherRest otherLegible _ stops otherStops same
  have kinds := legible.kind_eq otherLegible stops otherStops same
  cases otherLegible with
  | free word absent =>
    exact legible.eq_of_variable_spelling (free word absent) stops otherStops same
  | bound word binder =>
    exact legible.eq_of_variable_spelling (bound word binder) stops otherStops same
  | _ => cases kinds

theorem isReadable_abstraction {name : String} {parts : List Symbol} {body : Term}
    (named : IsName name) (typed : (Symbol.tuple parts).IsNamed)
    (inside : Legible ((name, parts) :: scope) body)
    (readable : body.IsReadable ((name, parts) :: scope)) :
    (Term.abstraction name (.tuple parts) body).IsReadable scope := by
  intro other rest otherRest otherLegible distinct stops otherStops same
  have kinds := (abstraction named typed inside).kind_eq otherLegible stops otherStops same
  cases otherLegible with
  | @abstraction _ otherName otherParts otherBody otherNamed otherTyped otherInside =>
    rw [Term.spelling, Term.spelling] at same
    simp only [List.append_assoc, List.cons_append, List.append_cancel_left_eq] at same
    obtain ⟨rfl, afterName⟩ := named.eq_of_append otherNamed (by decide) same
    obtain ⟨types, afterType⟩ := typed.isReadable otherTyped afterName
    obtain rfl := Symbol.tuple.inj types
    have bodies := (List.cons.inj (List.cons.inj afterType).2).2
    obtain ⟨rfl, rests⟩ :=
      readable otherInside distinct (Stops.closing _) (Stops.closing _) bodies
    exact ⟨rfl, (List.cons.inj rests).2⟩
  | _ => cases kinds

theorem isReadable_application {function argument : Term} (applied : Legible scope function)
    (supplied : Legible scope argument) (functionReadable : function.IsReadable scope)
    (argumentReadable : argument.IsReadable scope) :
    (Term.application function argument).IsReadable scope := by
  intro other rest otherRest otherLegible distinct stops otherStops same
  have kinds := (application applied supplied).kind_eq otherLegible stops otherStops same
  cases otherLegible with
  | @application _ otherFunction otherArgument otherApplied otherSupplied =>
    rw [Term.numbers, Term.numbers] at distinct
    rw [Term.spelling, Term.spelling] at same
    simp only [List.append_assoc, List.cons_append, List.cons.injEq, true_and] at same
    obtain ⟨rfl, afterFunction⟩ := functionReadable otherApplied
      (fun first member second otherMember => distinct first (List.mem_append_left _ member)
        second (List.mem_append_left _ otherMember))
      (Stops.blank _) (Stops.blank _) same
    obtain ⟨rfl, rests⟩ := argumentReadable otherSupplied
      (fun first member second otherMember => distinct first (List.mem_append_right _ member)
        second (List.mem_append_right _ otherMember))
      (Stops.closing _) (Stops.closing _) (List.cons.inj afterFunction).2
    exact ⟨rfl, (List.cons.inj rests).2⟩
  | _ => cases kinds

theorem isReadable_number (value : Float) : (Term.number value).IsReadable scope := by
  intro other rest otherRest otherLegible distinct stops otherStops same
  have kinds := (number value : Legible scope _).kind_eq otherLegible stops otherStops same
  cases otherLegible with
  | number otherValue =>
    obtain ⟨texts, rests⟩ := eq_of_floatText_append stops otherStops same
    obtain rfl :=
      distinct value (List.mem_singleton_self _) otherValue (List.mem_singleton_self _) texts
    exact ⟨rfl, rests⟩
  | _ => cases kinds

theorem isReadable_operator (operator : Operator) : operator.external.term.IsReadable scope := by
  intro other rest otherRest otherLegible distinct stops otherStops same
  have kinds :=
    (Legible.operator operator : Legible scope _).kind_eq otherLegible stops otherStops same
  cases otherLegible with
  | operator otherOperator =>
    obtain rfl : operator = otherOperator := Term.Kind.arithmetic.inj kinds
    exact ⟨rfl, List.append_cancel_left same⟩
  | _ => cases kinds

/-- Legible terms are found again from their spellings. -/
theorem isReadable {term : Term} (legible : Legible scope term) : term.IsReadable scope := by
  induction legible with
  | free word absent => exact isReadable_variable (free word absent)
  | bound word binder => exact isReadable_variable (bound word binder)
  | abstraction named typed inside readable =>
    exact isReadable_abstraction named typed inside readable
  | application applied supplied functionReadable argumentReadable =>
    exact isReadable_application applied supplied functionReadable argumentReadable
  | number value => exact isReadable_number value
  | operator operator => exact isReadable_operator operator

end Legible

end WordArithmetic
