/-
This file reads terms as plain terms and shows that moving indexes is renaming and substitution.

A term is read below binders with given names, the nearest first, and every variable has to carry
the name of the binder that its index counts to, since substitution looks for both. An operator that
has received one argument holds it below one placeholder, and one that has received both holds them
below none, so what stands below a placeholder is read in view of it. All three states of an
operator are read as applications of one constant.
-/

import WordArithmetic.Proofs.Lambda.Indexes
import WordArithmetic.Proofs.Lambda.Plain

namespace WordArithmetic

namespace PlainTerm

/-! ### Renamings and substitutions some binders below -/

/-- The renaming that makes room for `amount` binders outside the nearest `inner` ones. -/
def insertion (inner amount : Nat) (index : Nat) : Nat :=
  if index < inner then index else index + amount

theorem liftRenaming_insertion (inner amount : Nat) :
    liftRenaming (insertion inner amount) = insertion (inner + 1) amount := by
  funext index
  cases index with
  | zero => rfl
  | succ index =>
    by_cases near : index < inner
    · rw [liftRenaming, insertion, insertion, if_pos near, if_pos (Nat.succ_lt_succ near)]
    · rw [liftRenaming, insertion, insertion, if_neg near,
        if_neg fun nearer => near (Nat.lt_of_succ_lt_succ nearer), Nat.add_right_comm]

/-- Making room outside a binder commutes with moving below it. -/
theorem rename_insertion_succ (inner amount : Nat) (term : PlainTerm) :
    (term.rename Nat.succ).rename (insertion (inner + 1) amount) =
      (term.rename (insertion inner amount)).rename Nat.succ := by
  rw [rename_rename, rename_rename, ← liftRenaming_insertion]
  rfl

/-- The substitution that puts a term in the place of the variable `inner` binders above. -/
def replacing : (inner : Nat) → (argument : PlainTerm) → Nat → PlainTerm
  | 0, argument => instantiation argument
  | inner + 1, argument => liftSubstitution (replacing inner argument)

theorem replacing_of_lt {inner index : Nat} (argument : PlainTerm) (near : index < inner) :
    replacing inner argument index = occurrence index := by
  induction inner generalizing index with
  | zero => exact absurd near (Nat.not_lt_zero _)
  | succ inner hypothesis =>
    cases index with
    | zero => rfl
    | succ index =>
      rw [replacing, liftSubstitution, hypothesis (Nat.lt_of_succ_lt_succ near), rename]

theorem replacing_self (inner : Nat) (argument : PlainTerm) :
    replacing inner argument inner = argument.rename (insertion 0 inner) := by
  induction inner with
  | zero =>
    have nothing : insertion 0 0 = id := rfl
    rw [nothing, rename_id]
    rfl
  | succ inner hypothesis =>
    rw [replacing, liftSubstitution, hypothesis, rename_rename]
    rfl

theorem replacing_of_gt {inner index : Nat} (argument : PlainTerm) (far : inner < index) :
    replacing inner argument index = occurrence (index - 1) := by
  induction inner generalizing index with
  | zero =>
    cases index with
    | zero => exact absurd far (Nat.lt_irrefl 0)
    | succ index => rfl
  | succ inner hypothesis =>
    cases index with
    | zero => exact absurd far (Nat.not_lt_zero _)
    | succ index =>
      have further := Nat.lt_of_succ_lt_succ far
      rw [replacing, liftSubstitution, hypothesis further, rename]
      congr 1
      omega

/-- Substituting outside a binder commutes with moving below it. -/
theorem substitute_replacing_succ (inner : Nat) (argument term : PlainTerm) :
    (term.rename Nat.succ).substitute (replacing (inner + 1) argument) =
      (term.substitute (replacing inner argument)).rename Nat.succ := by
  rw [substitute_rename, rename_substitute]
  rfl

end PlainTerm

/-! ### Entries around a place in a list -/

/-- The entries of the outer part are found further out when more entries come between. -/
theorem getElem?_append_between {Entry : Type} {inner outer : List Entry} {index : Nat}
    (between : List Entry) (far : inner.length ≤ index) :
    (inner ++ (between ++ outer))[index + between.length]? = (inner ++ outer)[index]? := by
  have same : index + between.length - inner.length - between.length = index - inner.length := by
    omega
  rw [List.getElem?_append_right (by omega), List.getElem?_append_right (by omega), same,
    List.getElem?_append_right far]

/-- The entries of the outer part are found one place further in when the entry before them goes. -/
theorem getElem?_append_without {Entry : Type} {inner outer : List Entry} {index : Nat}
    (middle : Entry) (far : inner.length < index) :
    (inner ++ outer)[index - 1]? = (inner ++ middle :: outer)[index]? := by
  have next : index - inner.length = index - 1 - inner.length + 1 := by omega
  rw [List.getElem?_append_right (by omega), List.getElem?_append_right (by omega), next,
    List.getElem?_cons_succ]

/-! ### Reading terms -/

/-- The placeholder that is waiting for the last argument of an operator. -/
def lastPlaceholder : Term :=
  .variable placeholderName TypeCode.numberName 1

/-- A term below binders with these names, the nearest first, is read as a plain term. -/
inductive Encodes : List String → Term → PlainTerm → Prop
  | occurrence {names : List String} {name : String} {type : TypeCode} {index : Nat}
      (found : names[index]? = some name) (typed : type ≠ TypeCode.untyped) :
      Encodes names (.variable name type (index + 1)) (.occurrence index)
  | abstraction {names : List String} {name : String} {type : TypeCode} {body : Term}
      {plain : PlainTerm} (inside : Encodes (name :: names) body plain) :
      Encodes names (.abstraction name type body) (.abstraction plain)
  | application {names : List String} {function argument : Term}
      {plainFunction plainArgument : PlainTerm} (applied : Encodes names function plainFunction)
      (supplied : Encodes names argument plainArgument) :
      Encodes names (.application function argument) (.application plainFunction plainArgument)
  | number {names : List String} (value : Float) :
      Encodes names (Term.number value) (.number value)
  | operator {names : List String} (operator : Operator) :
      Encodes names operator.external.term (.operator operator)
  | half {names : List String} {operator : Operator} {first : Term} {plain : PlainTerm}
      (supplied : Encodes (placeholderName :: names) first (plain.rename Nat.succ)) :
      Encodes names (.external operator.external 1 [first, lastPlaceholder])
        (.application (.operator operator) plain)
  | full {names : List String} {operator : Operator} {first second : Term}
      {left right : PlainTerm} (leftSupplied : Encodes names first left)
      (rightSupplied : Encodes names second right) :
      Encodes names (.external operator.external 0 [first, second])
        (.application (.application (.operator operator) left) right)

/-- A term is read as a plain term in the same way, except that an external function, whatever its
arguments are, may be read as any plain term that counts as lost. -/
inductive EncodesUpTo (lost : PlainTerm → Prop) : List String → Term → PlainTerm → Prop
  | occurrence {names : List String} {name : String} {type : TypeCode} {index : Nat}
      (found : names[index]? = some name) (typed : type ≠ TypeCode.untyped) :
      EncodesUpTo lost names (.variable name type (index + 1)) (.occurrence index)
  | abstraction {names : List String} {name : String} {type : TypeCode} {body : Term}
      {plain : PlainTerm} (inside : EncodesUpTo lost (name :: names) body plain) :
      EncodesUpTo lost names (.abstraction name type body) (.abstraction plain)
  | application {names : List String} {function argument : Term}
      {plainFunction plainArgument : PlainTerm}
      (applied : EncodesUpTo lost names function plainFunction)
      (supplied : EncodesUpTo lost names argument plainArgument) :
      EncodesUpTo lost names (.application function argument)
        (.application plainFunction plainArgument)
  | number {names : List String} (value : Float) :
      EncodesUpTo lost names (Term.number value) (.number value)
  | operator {names : List String} (operator : Operator) :
      EncodesUpTo lost names operator.external.term (.operator operator)
  | half {names : List String} {operator : Operator} {first : Term} {plain : PlainTerm}
      (supplied : EncodesUpTo lost (placeholderName :: names) first (plain.rename Nat.succ)) :
      EncodesUpTo lost names (.external operator.external 1 [first, lastPlaceholder])
        (.application (.operator operator) plain)
  | full {names : List String} {operator : Operator} {first second : Term}
      {left right : PlainTerm} (leftSupplied : EncodesUpTo lost names first left)
      (rightSupplied : EncodesUpTo lost names second right) :
      EncodesUpTo lost names (.external operator.external 0 [first, second])
        (.application (.application (.operator operator) left) right)
  | external {names : List String} {function : External} {missing : Int} {arguments : List Term}
      {plain : PlainTerm} (isLost : lost plain) :
      EncodesUpTo lost names (.external function missing arguments) plain

/-- What is lost stays lost when variables are renamed and substituted for. -/
structure StaysLost (lost : PlainTerm → Prop) : Prop where
  rename : ∀ {plain : PlainTerm} (change : Nat → Nat), lost plain → lost (plain.rename change)
  substitute : ∀ {plain : PlainTerm} (substitution : Nat → PlainTerm),
    lost plain → lost (plain.substitute substitution)

namespace Term

theorem operator_term (operator : Operator) :
    operator.external.term = .external operator.external 2
      [.variable placeholderName TypeCode.numberName 2, lastPlaceholder] := rfl

theorem number_eq (value : Float) :
    number value = .external (External.constant (.float value) TypeCode.numberName) 0 [] := rfl

/-! ### Placeholders stay in place -/

theorem raise_lastPlaceholder (amount : Int) {depth : Int} (low : 1 ≤ depth) :
    lastPlaceholder.raise amount depth = lastPlaceholder := by
  rw [lastPlaceholder, raise, if_neg (by omega)]

theorem raise_operator (amount : Int) {depth : Int} (low : 0 ≤ depth) (operator : Operator) :
    operator.external.term.raise amount depth = operator.external.term := by
  rw [operator_term, raise, raiseAll, raiseAll, raiseAll, raise_lastPlaceholder _ (by omega), raise,
    if_neg (by omega)]

/-- A variable whose binder lies further in than the one that is removed stays as it is. -/
theorem fill_variable_of_lt (name : Option String) (replacement : Term) (other : String)
    (type : TypeCode) {index depth : Int} (low : index < depth) :
    fill name replacement depth (.variable other type index) = .variable other type index := by
  rw [fill, if_neg (by omega), if_neg (by omega)]

theorem fill_lastPlaceholder (name : Option String) (replacement : Term) {depth : Int}
    (low : 1 < depth) : fill name replacement depth lastPlaceholder = lastPlaceholder :=
  fill_variable_of_lt _ _ _ _ low

theorem fill_operator (name : String) (replacement : Term) {depth : Int} (low : 1 ≤ depth)
    (operator : Operator) :
    fill (some name) replacement depth operator.external.term = operator.external.term := by
  have none : ∀ sought : Option String, List.countP (isVariable sought (depth + 2))
      [.variable placeholderName TypeCode.numberName 2, lastPlaceholder] = 0 := by
    intro sought
    have second : (2 : Int) ≠ depth + 2 := by omega
    have first : (1 : Int) ≠ depth + 2 := by omega
    simp [isVariable, lastPlaceholder, first, second]
  rw [operator_term, fill]
  simp only [none, fillAll]
  rw [fill_lastPlaceholder _ _ (by omega), fill_variable_of_lt _ _ _ _ (by omega)]
  simp

theorem fill_number (name : Option String) (replacement : Term) (depth : Int) (value : Float) :
    fill name replacement depth (number value) = number value := by
  rw [number_eq, fill]
  simp [fillAll]

/-- Substitution for a variable of an abstraction goes on in the argument that an operator has
received. -/
theorem fill_half (name : String) (replacement : Term) {depth : Int} (low : 1 ≤ depth)
    (operator : Operator) (first : Term) :
    fill (some name) replacement depth (.external operator.external 1 [first, lastPlaceholder]) =
      .external operator.external 1
        [fill (some name) replacement (depth + 1) first, lastPlaceholder] := by
  have foreign : decide (depth < 1) = false := decide_eq_false (by omega)
  rw [fill]
  simp only [foreign, Bool.false_eq_true, if_false, fillAll]
  rw [fill_lastPlaceholder _ _ (by omega)]

theorem fill_full (name : Option String) (replacement : Term) {depth : Int} (low : 0 ≤ depth)
    (operator : Operator) (first second : Term) :
    fill name replacement depth (.external operator.external 0 [first, second]) =
      .external operator.external 0
        [fill name replacement depth first, fill name replacement depth second] := by
  have foreign : decide (depth < 0) = false := decide_eq_false (by omega)
  rw [fill]
  simp only [foreign, Bool.false_eq_true, if_false, fillAll, Int.add_zero]

/-- An operator that holds one argument, which is not the placeholder above it, puts the second one
in the place of the other placeholder. -/
theorem contractPlainly?_half (operator : Operator) {first : Term} (argument : Term)
    (apart : first.isVariable (some placeholderName) 1 = false) :
    (external operator.external 1 [first, lastPlaceholder]).contractPlainly? argument =
      some (.external operator.external 0
        [fill (some placeholderName) argument 1 first, argument]) := by
  have one : List.countP (isVariable (some placeholderName) 1) [first, lastPlaceholder] = 1 := by
    rw [List.countP_cons, apart]
    rfl
  have own : decide ((0 : Int) < 1) = true := rfl
  have last : fill (some placeholderName) argument 1 lastPlaceholder = argument := by
    rw [lastPlaceholder, fill, if_pos ⟨rfl, rfl⟩]
    exact raise_zero 0 argument
  rw [contractPlainly?, fill]
  simp only [own, if_true, Option.none_or, Int.zero_add, one, fillAll, last]
  rfl

end Term

namespace EncodesUpTo

variable {lost : PlainTerm → Prop} {names : List String} {term : Term} {plain : PlainTerm}

/-! ### Raising is renaming -/

section Moves

variable (stays : StaysLost lost)

include stays

/-- A term that is put below more binders, outside some that it stands below already, is read as a
renamed plain term. -/
theorem raise (encodes : EncodesUpTo lost names term plain) (inner : List String)
    {outer : List String} (split : names = inner ++ outer) (between : List String) :
    EncodesUpTo lost (inner ++ (between ++ outer)) (term.raise between.length inner.length)
      (plain.rename (PlainTerm.insertion inner.length between.length)) := by
  induction encodes generalizing inner with
  | @occurrence names name type index found typed =>
    subst split
    rw [Term.raise, PlainTerm.rename, PlainTerm.insertion]
    by_cases near : index < inner.length
    · rw [List.getElem?_append_left near] at found
      rw [if_neg (by omega), if_pos near]
      exact .occurrence (by rw [List.getElem?_append_left near]; exact found) typed
    · have place : (index : Int) + 1 + between.length =
          ((index + between.length : Nat) : Int) + 1 := by omega
      rw [if_pos (by omega), if_neg near, place]
      exact .occurrence
        ((getElem?_append_between between (Nat.le_of_not_lt near)).trans found) typed
  | @abstraction names name type body plain inside hypothesis =>
    have below := hypothesis (name :: inner) (by rw [split]; rfl)
    rw [Term.raise, PlainTerm.rename, PlainTerm.liftRenaming_insertion]
    exact .abstraction below
  | application _ _ functionHypothesis argumentHypothesis =>
    exact .application (functionHypothesis inner split) (argumentHypothesis inner split)
  | number value => exact .number value
  | operator operator =>
    rw [Term.raise_operator _ (Int.natCast_nonneg _)]
    exact .operator operator
  | @half names operator first plain supplied hypothesis =>
    have below := hypothesis (placeholderName :: inner) (by rw [split]; rfl)
    rw [List.length_cons, PlainTerm.rename_insertion_succ] at below
    rw [Term.raise, Term.raiseAll, Term.raiseAll, Term.raiseAll,
      Term.raise_lastPlaceholder _ (by omega)]
    exact .half below
  | full _ _ leftHypothesis rightHypothesis =>
    rw [Term.raise, Term.raiseAll, Term.raiseAll, Term.raiseAll, Int.add_zero]
    exact .full (leftHypothesis inner split) (rightHypothesis inner split)
  | external isLost =>
    rw [Term.raise]
    exact .external (stays.rename _ isLost)

/-- A term that is put below more binders is read as a renamed plain term. -/
theorem raise_outside (encodes : EncodesUpTo lost names term plain) (between : List String) :
    EncodesUpTo lost (between ++ names) (term.raise between.length 0)
      (plain.rename (PlainTerm.insertion 0 between.length)) :=
  encodes.raise stays [] rfl between

/-! ### Filling is substitution -/

/-- A term in which a binder is removed is read as a plain term with a substitution. -/
theorem fill (encodes : EncodesUpTo lost names term plain) (inner : List String) {name : String}
    {outer : List String} (split : names = inner ++ name :: outer) {replacement : Term}
    {argument : PlainTerm} (supplied : EncodesUpTo lost outer replacement argument) :
    EncodesUpTo lost (inner ++ outer) (Term.fill (some name) replacement (inner.length + 1) term)
      (plain.substitute (PlainTerm.replacing inner.length argument)) := by
  induction encodes generalizing inner with
  | @occurrence names other type index found typed =>
    subst split
    rw [PlainTerm.substitute]
    rcases Nat.lt_trichotomy index inner.length with near | here | far
    · rw [PlainTerm.replacing_of_lt _ near, Term.fill_variable_of_lt _ _ _ _ (by omega)]
      rw [List.getElem?_append_left near] at found
      exact .occurrence (by rw [List.getElem?_append_left near]; exact found) typed
    · subst here
      rw [List.getElem?_append_right (Nat.le_refl _), Nat.sub_self,
        List.getElem?_cons_zero] at found
      rw [PlainTerm.replacing_self, Term.fill, if_pos ⟨found, rfl⟩, Int.add_sub_cancel]
      exact supplied.raise_outside stays inner
    · have place : (index : Int) + 1 - 1 = ((index - 1 : Nat) : Int) + 1 := by omega
      rw [PlainTerm.replacing_of_gt _ far, Term.fill, if_neg (by omega), if_pos (by omega), place]
      exact .occurrence ((getElem?_append_without name far).trans found) typed
  | @abstraction names other type body plain inside hypothesis =>
    have below := hypothesis (other :: inner) (by rw [split]; rfl)
    rw [List.length_cons, Int.natCast_succ] at below
    rw [Term.fill]
    exact .abstraction below
  | application _ _ functionHypothesis argumentHypothesis =>
    rw [Term.fill]
    exact .application (functionHypothesis inner split) (argumentHypothesis inner split)
  | number value =>
    rw [Term.fill_number]
    exact .number value
  | operator operator =>
    rw [Term.fill_operator _ _ (by omega)]
    exact .operator operator
  | @half names operator first plain supplied hypothesis =>
    have below := hypothesis (placeholderName :: inner) (by rw [split]; rfl)
    rw [List.length_cons, Int.natCast_succ, PlainTerm.substitute_replacing_succ] at below
    rw [Term.fill_half _ _ (by omega)]
    exact .half below
  | full _ _ leftHypothesis rightHypothesis =>
    rw [Term.fill_full _ _ (by omega)]
    exact .full (leftHypothesis inner split) (rightHypothesis inner split)
  | external isLost =>
    rw [Term.fill]
    exact .external (stays.substitute _ isLost)

/-- A term in which the nearest binder is removed is read as the plain term with the argument in the
place of its variable. -/
theorem fill_nearest {name : String} {body replacement : Term} {argument : PlainTerm}
    (encodes : EncodesUpTo lost (name :: names) body plain)
    (supplied : EncodesUpTo lost names replacement argument) :
    EncodesUpTo lost names (Term.fill (some name) replacement 1 body)
      (plain.instantiate argument) :=
  encodes.fill stays [] rfl supplied

end Moves

/-! ### Below a placeholder -/

/-- What stands below a placeholder that nothing refers to is not the placeholder itself. -/
theorem isVariable_one_of_succ {first : Term} (name : Option String)
    (encodes : EncodesUpTo lost names first (plain.rename Nat.succ)) :
    first.isVariable name 1 = false := by
  generalize moved : plain.rename Nat.succ = renamed at encodes
  cases encodes with
  | @occurrence _ other type index found typed =>
    cases plain with
    | occurrence place =>
      obtain rfl := PlainTerm.occurrence.inj moved
      have different : ((place.succ : Nat) : Int) + 1 ≠ 1 := by omega
      rw [Term.isVariable, decide_eq_false different, Bool.and_false]
    | _ => cases moved
  | _ => rfl

/-- An operator receives its second argument. -/
theorem contract_half (stays : StaysLost lost) {operator : Operator} {first argument : Term}
    {plainArgument : PlainTerm}
    (inside : EncodesUpTo lost (placeholderName :: names) first (plain.rename Nat.succ))
    (supplied : EncodesUpTo lost names argument plainArgument) :
    ∃ moved,
      (Term.external operator.external 1 [first, lastPlaceholder]).contractPlainly? argument =
        some (.external operator.external 0 [moved, argument]) ∧
      EncodesUpTo lost names moved plain := by
  refine ⟨Term.fill (some placeholderName) argument 1 first,
    Term.contractPlainly?_half operator argument (inside.isVariable_one_of_succ _), ?_⟩
  have filled := inside.fill_nearest stays supplied
  rw [PlainTerm.instantiate_rename_succ] at filled
  exact filled

end EncodesUpTo

/-! ### Nothing lost -/

namespace Encodes

variable {names : List String} {term : Term} {plain : PlainTerm}

theorem upTo (encodes : Encodes names term plain) (lost : PlainTerm → Prop) :
    EncodesUpTo lost names term plain := by
  induction encodes with
  | occurrence found typed => exact .occurrence found typed
  | abstraction _ hypothesis => exact .abstraction hypothesis
  | application _ _ functionHypothesis argumentHypothesis =>
    exact .application functionHypothesis argumentHypothesis
  | number value => exact .number value
  | operator operator => exact .operator operator
  | half _ hypothesis => exact .half hypothesis
  | full _ _ leftHypothesis rightHypothesis => exact .full leftHypothesis rightHypothesis

/-- A term is read in the same way if no plain term counts as lost. -/
theorem of_upTo (encodes : EncodesUpTo (fun _ => False) names term plain) :
    Encodes names term plain := by
  induction encodes with
  | occurrence found typed => exact .occurrence found typed
  | abstraction _ hypothesis => exact .abstraction hypothesis
  | application _ _ functionHypothesis argumentHypothesis =>
    exact .application functionHypothesis argumentHypothesis
  | number value => exact .number value
  | operator operator => exact .operator operator
  | half _ hypothesis => exact .half hypothesis
  | full _ _ leftHypothesis rightHypothesis => exact .full leftHypothesis rightHypothesis
  | external isLost => exact isLost.elim

theorem staysLost_nothing : StaysLost fun _ => False :=
  ⟨fun _ isLost => isLost, fun _ isLost => isLost⟩

/-- A term that is put below more binders is read as a renamed plain term. -/
theorem raise_outside (encodes : Encodes names term plain) (between : List String) :
    Encodes (between ++ names) (term.raise between.length 0)
      (plain.rename (PlainTerm.insertion 0 between.length)) :=
  of_upTo ((encodes.upTo _).raise_outside staysLost_nothing between)

/-- A term in which the nearest binder is removed is read as the plain term with the argument in the
place of its variable. -/
theorem fill_nearest {name : String} {body replacement : Term} {argument : PlainTerm}
    (encodes : Encodes (name :: names) body plain)
    (supplied : Encodes names replacement argument) :
    Encodes names (Term.fill (some name) replacement 1 body) (plain.instantiate argument) :=
  of_upTo ((encodes.upTo _).fill_nearest staysLost_nothing (supplied.upTo _))

/-- Every variable of a term that is read has a type. -/
theorem isTyped (encodes : Encodes names term plain) : term.isTyped = true := by
  induction encodes with
  | occurrence found typed => exact bne_iff_ne.2 typed
  | abstraction _ hypothesis => exact hypothesis
  | application _ _ functionHypothesis argumentHypothesis =>
    exact (Bool.and_eq_true _ _).mpr ⟨functionHypothesis, argumentHypothesis⟩
  | number value => rfl
  | operator operator => rfl
  | half _ hypothesis => exact (Bool.and_eq_true _ _).mpr ⟨hypothesis, rfl⟩
  | full _ _ leftHypothesis rightHypothesis =>
    exact (Bool.and_eq_true _ _).mpr
      ⟨leftHypothesis, (Bool.and_eq_true _ _).mpr ⟨rightHypothesis, rfl⟩⟩

/-! ### Contractions -/

/-- An abstraction receives its argument. -/
theorem contract_abstraction {name : String} {type : TypeCode} {body argument : Term}
    {plainArgument : PlainTerm} (inside : Encodes (name :: names) body plain)
    (supplied : Encodes names argument plainArgument) :
    ∃ result, (Term.abstraction name type body).contractPlainly? argument = some result ∧
      Encodes names result (plain.instantiate plainArgument) :=
  ⟨_, rfl, inside.fill_nearest supplied⟩

/-- An operator receives its first argument. -/
theorem contract_operator (operator : Operator) (argument : Term) :
    operator.external.term.contractPlainly? argument =
      some (.external operator.external 1 [argument.raise 1 0, lastPlaceholder]) := by
  rfl

/-- An operator receives its second argument. -/
theorem contract_half {operator : Operator} {first argument : Term} {plainArgument : PlainTerm}
    (inside : Encodes (placeholderName :: names) first (plain.rename Nat.succ))
    (supplied : Encodes names argument plainArgument) :
    ∃ moved,
      (Term.external operator.external 1 [first, lastPlaceholder]).contractPlainly? argument =
        some (.external operator.external 0 [moved, argument]) ∧
      Encodes names moved plain := by
  obtain ⟨moved, contracted, encodes⟩ :=
    (inside.upTo _).contract_half staysLost_nothing (supplied.upTo _)
  exact ⟨moved, contracted, of_upTo encodes⟩

end Encodes

end WordArithmetic
