/-
This file shows that terms are equal exactly if they are the same tree.

Terms are compared by their kind and their printed form, and tables of latent forms are keyed by
both. Composed terms can be printed and read back, so their equality is that of trees, up to the
types of variables, which follow from the rest. The derivations that a parse collects and the pairs
whose masses make an outside score therefore have the tree of the form they are counted for, and
with it its denotation: no mass goes from one meaning to another.
-/

import WordArithmetic.Proofs.Forest.Best
import WordArithmetic.Proofs.Forest.Enumeration
import WordArithmetic.Proofs.Lambda.Spelling

namespace WordArithmetic

/-- The same tree: the same constructors, with the same names and indexes of variables, names and
types of parameters, operators and constants. The types of variables are left out. -/
inductive SameTree : Term → Term → Prop
  | occurrence (name : String) (type otherType : TypeCode) (index : Int) :
      SameTree (.variable name type index) (.variable name otherType index)
  | abstraction (name : String) (type : TypeCode) {body other : Term}
      (bodies : SameTree body other) :
      SameTree (.abstraction name type body) (.abstraction name type other)
  | application {function otherFunction argument otherArgument : Term}
      (functions : SameTree function otherFunction) (arguments : SameTree argument otherArgument) :
      SameTree (.application function argument) (.application otherFunction otherArgument)
  | external (function : External) (missing : Int) (arguments : List Term) :
      SameTree (.external function missing arguments) (.external function missing arguments)

namespace SameTree

theorem refl (term : Term) : SameTree term term := by
  induction term using Term.induction with
  | occurrence name type index => exact .occurrence name type type index
  | abstraction name type body hypothesis => exact .abstraction name type hypothesis
  | application function argument functionHypothesis argumentHypothesis =>
    exact .application functionHypothesis argumentHypothesis
  | external function missing arguments => exact .external function missing arguments

variable {left right : Term}

theorem spelling_eq (same : SameTree left right) : left.spelling = right.spelling := by
  induction same with
  | occurrence name type otherType index => rfl
  | abstraction name type _ hypothesis => rw [Term.spelling, Term.spelling, hypothesis]
  | application _ _ functions arguments =>
    rw [Term.spelling, Term.spelling, functions, arguments]
  | external function missing arguments => rfl

theorem kind_eq (same : SameTree left right) : left.kind = right.kind := by
  cases same <;> rfl

end SameTree

/-- Terms in which different numbers have different texts. The undefined number is left out: there
is only one. -/
def HaveDistinctTexts (terms : Term → Prop) : Prop :=
  ∀ left right, terms left → terms right → ∀ first ∈ left.numbers, ∀ second ∈ right.numbers,
    first ≠ second → FloatShape.ofFloat first ≠ .undefined →
      FloatShape.ofFloat second ≠ .undefined → floatText first ≠ floatText second

/-- Whether the texts of different numbers of a list are different. -/
def areDistinctTexts (numbers : List Float) : Bool :=
  numbers.all fun first => numbers.all fun second =>
    first.toBits == second.toBits || floatText first != floatText second

theorem HaveDistinctTexts.of_areDistinctTexts {terms : Term → Prop} {numbers : List Float}
    (known : ∀ term, terms term → ∀ number ∈ term.numbers, number ∈ numbers)
    (distinct : areDistinctTexts numbers = true) : HaveDistinctTexts terms := by
  intro left right leftIn rightIn first firstMember second secondMember different _ _
  have others := List.all_eq_true.1 distinct first (known left leftIn first firstMember)
  have each := List.all_eq_true.1 others second (known right rightIn second secondMember)
  rcases (Bool.or_eq_true _ _).mp each with bits | texts
  · exact absurd (eq_of_toBits_eq (beq_iff_eq.1 bits)) different
  · exact bne_iff_ne.1 texts

/-- The latent form of a term of a collection. -/
def LatentForm.IsOf (terms : Term → Prop) (form : LatentForm) : Prop :=
  ∃ term, terms term ∧ form = LatentForm.ofTerm term

/-! ### Equality of composed terms -/

namespace Term.Composed

theorem print_eq {term : Term} (composed : term.Composed) :
    term.print = .ok (String.ofList term.spelling) :=
  composed.legible.print_eq

theorem printed_eq {term : Term} (composed : term.Composed) :
    (LatentForm.ofTerm term).printed = String.ofList term.spelling := by
  rw [LatentForm.ofTerm, composed.print_eq]

end Term.Composed

section Equality

variable {terms : Term → Prop} (composed : ∀ term, terms term → term.Composed)
  (distinct : HaveDistinctTexts terms) {left right : Term} (leftIn : terms left)
  (rightIn : terms right)

include composed distinct leftIn rightIn

/-- Composed terms with the same printed form are the same term. -/
theorem HaveDistinctTexts.eq_of_spelling (same : left.spelling = right.spelling) :
    left = right := by
  have texts : ∀ first ∈ left.numbers, ∀ second ∈ right.numbers,
      floatText first = floatText second → first = second :=
    fun first member second otherMember => eq_of_floatText_eq
      (distinct left right leftIn rightIn first member second otherMember)
  have appended : left.spelling ++ [] = right.spelling ++ [] := congrArg (· ++ []) same
  exact ((composed left leftIn).legible.isReadable (composed right rightIn).legible texts
    Stops.nil Stops.nil appended).1

theorem HaveDistinctTexts.eq_of_sameTree (same : SameTree left right) : left = right :=
  distinct.eq_of_spelling composed leftIn rightIn same.spelling_eq

theorem HaveDistinctTexts.sameTree_iff :
    left.kind = right.kind ∧ left.spelling = right.spelling ↔ SameTree left right := by
  refine ⟨fun same => ?_, fun same => ⟨same.kind_eq, same.spelling_eq⟩⟩
  rw [distinct.eq_of_spelling composed leftIn rightIn same.2]
  exact SameTree.refl right

/-- Composed terms can be compared, and they are equal exactly if they are the same tree. -/
theorem HaveDistinctTexts.sameForm_eq :
    ∃ equal, left.sameForm right = .ok equal ∧ (equal = true ↔ SameTree left right) := by
  rw [← distinct.sameTree_iff composed leftIn rightIn, Term.sameForm,
    (composed left leftIn).print_eq, (composed right rightIn).print_eq]
  split
  · rename_i kinds
    refine ⟨String.ofList left.spelling == String.ofList right.spelling, rfl, ?_⟩
    rw [beq_iff_eq, String.ofList_inj]
    exact ⟨fun same => ⟨kinds, same⟩, And.right⟩
  · rename_i different
    exact ⟨false, rfl, nofun, fun same => absurd same.1 different⟩

/-- The keys of composed terms are equal exactly if the terms are the same tree. -/
theorem HaveDistinctTexts.beq_iff :
    (LatentForm.ofTerm left == LatentForm.ofTerm right) = true ↔ SameTree left right := by
  have keys : (LatentForm.ofTerm left == LatentForm.ofTerm right) =
      (left.kind == right.kind && String.ofList left.spelling == String.ofList right.spelling) := by
    rw [← (composed left leftIn).printed_eq, ← (composed right rightIn).printed_eq]
    rfl
  rw [keys, Bool.and_eq_true, beq_iff_eq, beq_iff_eq, String.ofList_inj,
    distinct.sameTree_iff composed leftIn rightIn]

end Equality

/-! ### Tables -/

section Tables

variable {terms : Term → Prop} (composed : ∀ term, terms term → term.Composed)
  (distinct : HaveDistinctTexts terms) {Number : Type} [Zero Number] [Add Number]
  [LogScore Number]

include composed distinct

/-- The forms of a collection are keyed by their trees. -/
theorem LatentForm.IsOf.beq_iff {left right : LatentForm} (leftIn : left.IsOf terms)
    (rightIn : right.IsOf terms) : (left == right) = true ↔ SameTree left.term right.term := by
  obtain ⟨leftTerm, leftKnown, rfl⟩ := leftIn
  obtain ⟨rightTerm, rightKnown, rfl⟩ := rightIn
  exact distinct.beq_iff composed leftKnown rightKnown

open Classical in
/-- A list filtered by the key of a form is filtered by its tree. -/
theorem LatentForm.filter_eq {Element : Type} {elements : List Element} {key : Element → LatentForm}
    (known : ∀ element ∈ elements, (key element).IsOf terms) {form : LatentForm}
    (formIn : form.IsOf terms) :
    (elements.filter fun element => key element == form) =
      elements.filter fun element => SameTree (key element).term form.term := by
  refine List.filter_congr fun element member => ?_
  rw [Bool.eq_iff_iff, decide_eq_true_eq]
  exact (known element member).beq_iff composed distinct formIn

open Classical in
/-- A parse collects the derivations of its tree, and no others. -/
theorem ParseForest.parse_eq_foldl [LT Number] [DecidableLT Number]
    {forest : ParseForest LatentForm Number}
    (known : ∀ derivation ∈ forest.derivations, derivation.form.IsOf terms)
    {parse : Parse LatentForm Number} (member : parse ∈ forest.parses) :
    parse =
      (forest.derivations.filter fun derivation =>
        SameTree derivation.form.term parse.form.term).foldl
          (fun parse derivation => parse.add derivation.score derivation.features)
          (Parse.start parse.form) := by
  obtain ⟨derivation, derivationMember, same⟩ := ParseForest.exists_form_eq member
  have formIn : parse.form.IsOf terms := same ▸ known derivation derivationMember
  rw [← LatentForm.filter_eq composed distinct known formIn]
  exact ParseForest.eq_collected member

open Classical in
/-- The outside score of a form is that of the pairs of its tree. -/
theorem JointForest.outside_eq_total {groups : List (Group LatentForm Number)}
    (known : ∀ pair ∈ groups.flatMap Group.members, pair.parse.form.IsOf terms)
    {form : LatentForm} (formIn : form.IsOf terms) :
    outside groups form =
      total (((groups.flatMap Group.members).filter fun pair =>
        SameTree pair.parse.form.term form.term).map fun pair =>
          LogScore.exp pair.evaluation.score) := by
  rw [outside, LatentForm.filter_eq composed distinct known formIn]

end Tables

open Classical in
/-- Composed terms can be printed, and they are equal exactly if they are the same tree; then they
denote the same. So a parse is made of the derivations of one tree, and so is an outside score. -/
theorem Term.Composed.sameForm_iff_sameTree {terms : Term → Prop}
    (composed : ∀ term, terms term → term.Composed) (distinct : HaveDistinctTexts terms)
    {Number : Type} [Zero Number] [Add Number] [LT Number] [DecidableLT Number]
    [LogScore Number] :
    (∀ term, terms term → ∃ printed, term.print = .ok printed) ∧
    (∀ left right, terms left → terms right →
      (∃ equal, left.sameForm right = .ok equal ∧ (equal = true ↔ SameTree left right)) ∧
        (SameTree left right → ∀ depth, left.denote depth = right.denote depth)) ∧
    (∀ forest : ParseForest LatentForm Number,
      (∀ derivation ∈ forest.derivations, derivation.form.IsOf terms) →
        ∀ parse ∈ forest.parses,
          parse =
            (forest.derivations.filter fun derivation =>
              SameTree derivation.form.term parse.form.term).foldl
                (fun parse derivation => parse.add derivation.score derivation.features)
                (Parse.start parse.form)) ∧
    ∀ groups : List (Group LatentForm Number),
      (∀ pair ∈ groups.flatMap Group.members, pair.parse.form.IsOf terms) →
        ∀ form : LatentForm, form.IsOf terms →
          JointForest.outside groups form =
            total (((groups.flatMap Group.members).filter fun pair =>
              SameTree pair.parse.form.term form.term).map fun pair =>
                LogScore.exp pair.evaluation.score) := by
  refine ⟨fun term known => ⟨_, (composed term known).print_eq⟩,
    fun left right leftIn rightIn => ⟨distinct.sameForm_eq composed leftIn rightIn, ?_⟩,
    fun forest known parse member => ParseForest.parse_eq_foldl composed distinct known member,
    fun groups known form formIn => JointForest.outside_eq_total composed distinct known formIn⟩
  intro same depth
  rw [distinct.eq_of_sameTree composed leftIn rightIn same]

/-- A function that has been written out and one that uses a name for its number. -/
theorem Term.Composed.sameForm_iff_sameTree_half :
    ∃ left right : Term,
      (Session.arithmetic.read "((lambda (x:num) (+ x 0.5)) y)").2 = .ok (some left) ∧
      ((Session.arithmetic.read "(define half 0.50)").1.read
        "((lambda (x:num) (+ x half)) y)").2 = .ok (some right) ∧
      HaveDistinctTexts (fun term => term = left ∨ term = right) ∧ SameTree left right ∧
      ∀ depth, left.denote depth = right.denote depth := by
  have checked : (Session.arithmetic.term? "((lambda (x:num) (+ x 0.5)) y)").any (fun left =>
      ((Session.arithmetic.read "(define half 0.50)").1.term?
        "((lambda (x:num) (+ x half)) y)").any fun right =>
          areDistinctTexts (left.numbers ++ right.numbers) &&
            (left.sameForm right).toOption == some true) = true := by
    decide +kernel
  obtain ⟨left, leftFound, others⟩ := (Option.any_eq_true _ _).1 checked
  obtain ⟨right, rightFound, both⟩ := (Option.any_eq_true _ _).1 others
  obtain ⟨texts, equal⟩ := (Bool.and_eq_true _ _).mp both
  have leftRead := Session.read_of_term? leftFound
  have rightRead := Session.read_of_term? rightFound
  have distinct : HaveDistinctTexts (fun term => term = left ∨ term = right) := by
    refine HaveDistinctTexts.of_areDistinctTexts ?_ texts
    rintro term (rfl | rfl) number member
    · exact List.mem_append_left _ member
    · exact List.mem_append_right _ member
  have composed : ∀ term, term = left ∨ term = right → term.Composed := by
    rintro term (rfl | rfl)
    · exact .read .arithmetic leftRead
    · exact .read (.read .arithmetic _) rightRead
  obtain ⟨-, pairs, -⟩ :=
    @Term.Composed.sameForm_iff_sameTree _ composed distinct Scalar _ _ _ _ _
  obtain ⟨⟨answer, compared, tree⟩, denotations⟩ := pairs left right (.inl rfl) (.inr rfl)
  rw [compared] at equal
  have same := tree.1 (Option.some.inj (beq_iff_eq.1 equal))
  exact ⟨left, right, leftRead, rightRead, distinct, same, denotations same⟩

end WordArithmetic
