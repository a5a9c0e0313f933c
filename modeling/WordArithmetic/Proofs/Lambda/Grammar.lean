/-
This file holds the grammar of the meaning language as trees of derivations.

There is one type of trees for each kind of phrase, with one constructor for each rule; a rule that
only renames a phrase has none of its own. A tree spells tokens and has a meaning, which is read off
the tree from the leaves to the root: application nests to the left, and of the parameters of an
abstraction the last one is the innermost. The rule of the arrow is ambiguous and is meant to
associate to the right. Every derivation can be regrouped so that it does without a change to the
tokens, and then it is the only one with these tokens.
-/

import Mathlib.Data.List.Basic
import WordArithmetic.Lambda.Reader

namespace WordArithmetic

/-! ### Trees -/

/-- A derivation of the type of a parameter. -/
inductive TypeTree where
  | atom (name : String)
  | brackets (inner : TypeTree)
  | arrow (argument result : TypeTree)

/-- A derivation of a list of parameters, each a name with a type. -/
inductive ParametersTree where
  | one (name : String) (type : TypeTree)
  | more (name : String) (type : TypeTree) (rest : ParametersTree)

mutual

/-- A derivation of a term. -/
inductive TermTree where
  | occurrence (name : String)
  | number (value : Float)
  | abstraction (parameters : ParametersTree) (body : TermTree)
  | brackets (terms : TermsTree)

/-- A derivation of a list of terms. -/
inductive TermsTree where
  | one (term : TermTree)
  | more (before : TermsTree) (term : TermTree)

end

/-- A derivation of a program: a definition before a program, a term, or a definition. -/
inductive ProgramTree where
  | more (name : String) (value : TermTree) (rest : ProgramTree)
  | last (term : TermTree)
  | definition (name : String) (value : TermTree)

/-! ### Tokens -/

/-- The tokens of a definition. -/
def definitionTokens (name : String) (value : List TokenKind) : List TokenKind :=
  [.opening, .define, .identifier name] ++ value ++ [.closing]

/-- The tokens of a type. -/
def TypeTree.tokens : TypeTree → List TokenKind
  | .atom name => [.identifier name]
  | .brackets inner => .opening :: (inner.tokens ++ [.closing])
  | .arrow argument result => argument.tokens ++ .arrow :: result.tokens

/-- The tokens of a parameter. -/
def parameterTokens (name : String) (type : TypeTree) : List TokenKind :=
  .identifier name :: .colon :: type.tokens

/-- The tokens of a list of parameters. -/
def ParametersTree.tokens : ParametersTree → List TokenKind
  | .one name type => parameterTokens name type
  | .more name type rest => parameterTokens name type ++ rest.tokens

mutual

/-- The tokens of a term. -/
def TermTree.tokens : TermTree → List TokenKind
  | .occurrence name => [.identifier name]
  | .number value => [.number value]
  | .abstraction parameters body =>
    [.opening, .lambda, .opening] ++ parameters.tokens ++ .closing :: (body.tokens ++ [.closing])
  | .brackets terms => .opening :: (terms.tokens ++ [.closing])

/-- The tokens of a list of terms. -/
def TermsTree.tokens : TermsTree → List TokenKind
  | .one term => term.tokens
  | .more before term => before.tokens ++ term.tokens

end

/-- The tokens of a program. -/
def ProgramTree.tokens : ProgramTree → List TokenKind
  | .more name value rest => definitionTokens name value.tokens ++ rest.tokens
  | .last term => term.tokens
  | .definition name value => definitionTokens name value.tokens

/-! ### Meanings -/

/-- The parts of a type: brackets around it do not count. -/
def TypeTree.parts : TypeTree → List Symbol
  | .atom name => [.name name]
  | .brackets inner => inner.parts
  | .arrow argument result => TypeCode.arrow argument.parts result.parts

/-- The abstraction of a term over parameters, the last one innermost. -/
def ParametersTree.abstract (body : Term) : ParametersTree → Term
  | .one name type => Term.abstract name (.tuple type.parts) body
  | .more name type rest => Term.abstract name (.tuple type.parts) (rest.abstract body)

mutual

/-- The term of a derivation. -/
def TermTree.term (session : Session) : TermTree → Term
  | .occurrence name => session.resolve name
  | .number value => .number value
  | .abstraction parameters body => parameters.abstract (body.term session)
  | .brackets terms => terms.term session

/-- The term of a list of terms: the first one is applied to the second, the outcome to the third,
and so on. -/
def TermsTree.term (session : Session) : TermsTree → Term
  | .one term => term.term session
  | .more before term => .application (before.term session) (term.term session)

end

/-- Runs a program: the session after its definitions, and its term if it has one. -/
def ProgramTree.run (session : Session) : ProgramTree → Session × Option Term
  | .more name value rest => rest.run (session.define name (value.term session))
  | .last term => (session, some (term.term session))
  | .definition name value => (session.define name (value.term session), none)

/-! ### Lists -/

/-- The terms of a list. -/
def TermsTree.list : TermsTree → List TermTree
  | .one term => [term]
  | .more before term => before.list ++ [term]

/-- Induction on derivations of terms: what holds of all terms of a list holds of the list in
parentheses. -/
@[elab_as_elim, induction_eliminator]
theorem TermTree.induction {motive : TermTree → Prop}
    (occurrence : ∀ name, motive (.occurrence name))
    (number : ∀ value, motive (.number value))
    (abstraction : ∀ parameters body, motive body → motive (.abstraction parameters body))
    (brackets : ∀ terms : TermsTree, (∀ term ∈ terms.list, motive term) → motive (.brackets terms))
    (term : TermTree) : motive term := by
  refine @TermTree.rec motive (fun terms => ∀ term ∈ terms.list, motive term)
    occurrence number abstraction brackets (fun term holds => ?_)
    (fun before term earlier holds => ?_) term
  · exact List.forall_mem_singleton.2 holds
  · exact List.forall_mem_append.2 ⟨earlier, List.forall_mem_singleton.2 holds⟩

namespace TermsTree

/-- Induction on lists of terms alone. -/
@[elab_as_elim, induction_eliminator]
theorem induction {motive : TermsTree → Prop} (one : ∀ term, motive (.one term))
    (more : ∀ before term, motive before → motive (.more before term)) (terms : TermsTree) :
    motive terms :=
  @TermsTree.rec (fun _ => True) motive (fun _ => trivial) (fun _ => trivial)
    (fun _ _ _ => trivial) (fun _ _ => trivial) (fun term _ => one term)
    (fun before term earlier _ => more before term earlier) terms

theorem list_ne_nil (terms : TermsTree) : terms.list ≠ [] := by
  cases terms with
  | one term => exact List.cons_ne_nil _ _
  | more before term => exact List.append_ne_nil_of_right_ne_nil _ (List.cons_ne_nil _ _)

theorem tokens_eq (terms : TermsTree) : terms.tokens = terms.list.flatMap TermTree.tokens := by
  induction terms with
  | one term => rw [tokens, list, List.flatMap_singleton]
  | more before term hypothesis =>
    rw [tokens, list, List.flatMap_append, List.flatMap_singleton, hypothesis]

end TermsTree

/-! ### Arrows to the right -/

/-- Whether a type is an arrow that stands outside of all brackets. -/
def TypeTree.isArrow : TypeTree → Bool
  | .arrow _ _ => true
  | _ => false

/-- All arrows of a type associate to the right: none stands to the left of another one. -/
def TypeTree.IsRightAssociative : TypeTree → Prop
  | .atom _ => True
  | .brackets inner => inner.IsRightAssociative
  | .arrow argument result =>
    argument.isArrow = false ∧ argument.IsRightAssociative ∧ result.IsRightAssociative

def ParametersTree.IsRightAssociative : ParametersTree → Prop
  | .one _ type => type.IsRightAssociative
  | .more _ type rest => type.IsRightAssociative ∧ rest.IsRightAssociative

mutual

def TermTree.IsRightAssociative : TermTree → Prop
  | .occurrence _ => True
  | .number _ => True
  | .abstraction parameters body => parameters.IsRightAssociative ∧ body.IsRightAssociative
  | .brackets terms => terms.IsRightAssociative

def TermsTree.IsRightAssociative : TermsTree → Prop
  | .one term => term.IsRightAssociative
  | .more before term => before.IsRightAssociative ∧ term.IsRightAssociative

end

/-- All arrows in a program associate to the right. -/
def ProgramTree.IsRightAssociative : ProgramTree → Prop
  | .more _ value rest => value.IsRightAssociative ∧ rest.IsRightAssociative
  | .last term => term.IsRightAssociative
  | .definition _ value => value.IsRightAssociative

theorem TermsTree.isRightAssociative_iff {terms : TermsTree} :
    terms.IsRightAssociative ↔ ∀ term ∈ terms.list, term.IsRightAssociative := by
  induction terms with
  | one term => rw [IsRightAssociative, list, List.forall_mem_singleton]
  | more before term hypothesis =>
    rw [IsRightAssociative, list, List.forall_mem_append, List.forall_mem_singleton, hypothesis]

/-! ### Regrouping -/

namespace TypeTree

/-- Puts an arrow behind a type that does not stand to the left of another arrow. -/
def join : TypeTree → TypeTree → TypeTree
  | .arrow argument rest, result => .arrow argument (rest.join result)
  | .atom name, result => .arrow (.atom name) result
  | .brackets inner, result => .arrow (.brackets inner) result

/-- The type with the same tokens whose arrows associate to the right. -/
def regroup : TypeTree → TypeTree
  | .atom name => .atom name
  | .brackets inner => .brackets inner.regroup
  | .arrow argument result => argument.regroup.join result.regroup

theorem tokens_join (type result : TypeTree) :
    (type.join result).tokens = type.tokens ++ .arrow :: result.tokens := by
  induction type with
  | atom name => rfl
  | brackets inner => rfl
  | arrow argument rest _ hypothesis =>
    simp only [join, tokens, hypothesis, List.append_assoc, List.cons_append]

theorem tokens_regroup (type : TypeTree) : type.regroup.tokens = type.tokens := by
  induction type with
  | atom name => rfl
  | brackets inner hypothesis => rw [regroup, tokens, tokens, hypothesis]
  | arrow argument result argumentHypothesis resultHypothesis =>
    rw [regroup, tokens_join, tokens, argumentHypothesis, resultHypothesis]

theorem isRightAssociative_join {type result : TypeTree} (right : type.IsRightAssociative)
    (resultRight : result.IsRightAssociative) : (type.join result).IsRightAssociative := by
  induction type with
  | atom name => exact ⟨rfl, right, resultRight⟩
  | brackets inner => exact ⟨rfl, right, resultRight⟩
  | arrow argument rest _ hypothesis => exact ⟨right.1, right.2.1, hypothesis right.2.2⟩

theorem isRightAssociative_regroup (type : TypeTree) : type.regroup.IsRightAssociative := by
  induction type with
  | atom name => exact trivial
  | brackets inner hypothesis => exact hypothesis
  | arrow argument result argumentHypothesis resultHypothesis =>
    exact isRightAssociative_join argumentHypothesis resultHypothesis

end TypeTree

namespace ParametersTree

def regroup : ParametersTree → ParametersTree
  | .one name type => .one name type.regroup
  | .more name type rest => .more name type.regroup rest.regroup

theorem tokens_regroup (parameters : ParametersTree) :
    parameters.regroup.tokens = parameters.tokens := by
  induction parameters with
  | one name type => simp only [regroup, tokens, parameterTokens, type.tokens_regroup]
  | more name type rest hypothesis =>
    simp only [regroup, tokens, parameterTokens, type.tokens_regroup, hypothesis]

theorem isRightAssociative_regroup (parameters : ParametersTree) :
    parameters.regroup.IsRightAssociative := by
  induction parameters with
  | one name type => exact type.isRightAssociative_regroup
  | more name type rest hypothesis => exact ⟨type.isRightAssociative_regroup, hypothesis⟩

end ParametersTree

mutual

def TermTree.regroup : TermTree → TermTree
  | .occurrence name => .occurrence name
  | .number value => .number value
  | .abstraction parameters body => .abstraction parameters.regroup body.regroup
  | .brackets terms => .brackets terms.regroup

def TermsTree.regroup : TermsTree → TermsTree
  | .one term => .one term.regroup
  | .more before term => .more before.regroup term.regroup

end

theorem TermsTree.list_regroup (terms : TermsTree) :
    terms.regroup.list = terms.list.map TermTree.regroup := by
  induction terms with
  | one term => rfl
  | more before term hypothesis =>
    rw [regroup, list, list, List.map_append, hypothesis, List.map_singleton]

namespace TermTree

theorem tokens_regroup (term : TermTree) : term.regroup.tokens = term.tokens := by
  induction term with
  | occurrence name => rfl
  | number value => rfl
  | abstraction parameters body hypothesis =>
    rw [regroup, tokens, tokens, parameters.tokens_regroup, hypothesis]
  | brackets terms hypothesis =>
    have each : terms.regroup.tokens = terms.tokens := by
      rw [terms.tokens_eq, TermsTree.tokens_eq, terms.list_regroup, List.flatMap_map]
      exact List.flatMap_congr hypothesis
    rw [regroup, tokens, tokens, each]

theorem isRightAssociative_regroup (term : TermTree) : term.regroup.IsRightAssociative := by
  induction term with
  | occurrence name => exact trivial
  | number value => exact trivial
  | abstraction parameters body hypothesis =>
    exact ⟨parameters.isRightAssociative_regroup, hypothesis⟩
  | brackets terms hypothesis =>
    rw [regroup, IsRightAssociative, TermsTree.isRightAssociative_iff, terms.list_regroup]
    exact List.forall_mem_map.2 hypothesis

end TermTree

namespace ProgramTree

def regroup : ProgramTree → ProgramTree
  | .more name value rest => .more name value.regroup rest.regroup
  | .last term => .last term.regroup
  | .definition name value => .definition name value.regroup

theorem tokens_regroup (program : ProgramTree) : program.regroup.tokens = program.tokens := by
  induction program with
  | more name value rest hypothesis =>
    rw [regroup, tokens, tokens, value.tokens_regroup, hypothesis]
  | last term => exact term.tokens_regroup
  | definition name value => rw [regroup, tokens, tokens, value.tokens_regroup]

theorem isRightAssociative_regroup (program : ProgramTree) :
    program.regroup.IsRightAssociative := by
  induction program with
  | more name value rest hypothesis => exact ⟨value.isRightAssociative_regroup, hypothesis⟩
  | last term => exact term.isRightAssociative_regroup
  | definition name value => exact value.isRightAssociative_regroup

end ProgramTree

/-! ### Beginnings -/

/-- Tokens that begin like a term. -/
def BeginsTerm (kinds : List TokenKind) : Prop :=
  ∃ first rest, kinds = first :: rest ∧ Reading.startsTerm first = true

theorem BeginsTerm.append {kinds : List TokenKind} (begins : BeginsTerm kinds)
    (more : List TokenKind) : BeginsTerm (kinds ++ more) := by
  obtain ⟨first, rest, rfl, starts⟩ := begins
  exact ⟨first, rest ++ more, rfl, starts⟩

theorem BeginsTerm.ne_cons {kinds more : List TokenKind} (begins : BeginsTerm kinds)
    {other : TokenKind} (different : Reading.startsTerm other = false) : kinds ≠ other :: more := by
  obtain ⟨first, rest, rfl, starts⟩ := begins
  intro same
  rw [(List.cons.inj same).1, different] at starts
  cases starts

theorem TermTree.beginsTerm (term : TermTree) : BeginsTerm term.tokens := by
  cases term with
  | occurrence name => exact ⟨_, _, rfl, rfl⟩
  | number value => exact ⟨_, _, rfl, rfl⟩
  | abstraction parameters body => exact ⟨_, _, rfl, rfl⟩
  | brackets terms => exact ⟨_, _, rfl, rfl⟩

theorem TermsTree.beginsTerm (terms : TermsTree) : BeginsTerm terms.tokens := by
  induction terms with
  | one term => exact term.beginsTerm
  | more before term hypothesis => exact hypothesis.append _

theorem ProgramTree.beginsTerm (program : ProgramTree) : BeginsTerm program.tokens := by
  cases program with
  | more name value rest => exact ⟨_, _, rfl, rfl⟩
  | last term => exact term.beginsTerm
  | definition name value => exact ⟨_, _, rfl, rfl⟩

/-! ### Only one derivation -/

theorem closing_ne_arrow (rest more : List TokenKind) :
    TokenKind.closing :: rest ≠ .arrow :: more := nofun

namespace TypeTree

/-- An operand of arrows is read off the front of tokens in one way. -/
def IsReadableOperand (type : TypeTree) : Prop :=
  ∀ ⦃other : TypeTree⦄ ⦃rest otherRest : List TokenKind⦄, other.isArrow = false →
    other.IsRightAssociative → type.tokens ++ rest = other.tokens ++ otherRest →
      type = other ∧ rest = otherRest

/-- A type is read off the front of tokens in one way if no arrow goes on with it. -/
def IsReadable (type : TypeTree) : Prop :=
  ∀ ⦃other : TypeTree⦄ ⦃rest otherRest : List TokenKind⦄, other.IsRightAssociative →
    (∀ more, rest ≠ .arrow :: more) → (∀ more, otherRest ≠ .arrow :: more) →
      type.tokens ++ rest = other.tokens ++ otherRest → type = other ∧ rest = otherRest

theorem isReadableOperand_atom (name : String) : (atom name).IsReadableOperand := by
  intro other rest otherRest operand _ same
  cases other with
  | atom otherName =>
    obtain ⟨rfl, rests⟩ := List.cons.inj same |>.imp_left TokenKind.identifier.inj
    exact ⟨rfl, rests⟩
  | brackets inner => cases (List.cons.inj same).1
  | arrow argument result => cases operand

theorem isReadableOperand_brackets {inner : TypeTree} (readable : inner.IsReadable) :
    (brackets inner).IsReadableOperand := by
  intro other rest otherRest operand right same
  cases other with
  | atom otherName => cases (List.cons.inj same).1
  | brackets otherInner =>
    simp only [tokens, List.cons_append, List.append_assoc, List.nil_append,
      List.cons.injEq, true_and] at same
    have innerRight : otherInner.IsRightAssociative := right
    obtain ⟨rfl, rests⟩ := readable innerRight (closing_ne_arrow _) (closing_ne_arrow _) same
    exact ⟨rfl, (List.cons.inj rests).2⟩
  | arrow argument result => cases operand

theorem IsReadableOperand.isReadable {type : TypeTree} (readable : type.IsReadableOperand) :
    type.IsReadable := by
  intro other rest otherRest right stops otherStops same
  cases other with
  | atom name => exact readable rfl right same
  | brackets inner => exact readable rfl right same
  | arrow argument result =>
    rw [tokens, List.append_assoc] at same
    exact absurd (readable right.1 right.2.1 same).2 (stops _)

theorem isReadable_arrow {argument result : TypeTree} (argumentReadable : argument.IsReadableOperand)
    (resultReadable : result.IsReadable) : (arrow argument result).IsReadable := by
  intro other rest otherRest right stops otherStops same
  rw [tokens, List.append_assoc] at same
  cases other with
  | atom name => exact absurd (argumentReadable rfl right same).2.symm (otherStops _)
  | brackets inner => exact absurd (argumentReadable rfl right same).2.symm (otherStops _)
  | arrow otherArgument otherResult =>
    rw [tokens, List.append_assoc] at same
    obtain ⟨rfl, later⟩ := argumentReadable right.1 right.2.1 same
    obtain ⟨rfl, rests⟩ := resultReadable right.2.2 stops otherStops (List.cons.inj later).2
    exact ⟨rfl, rests⟩

/-- Types whose arrows associate to the right are read in one way. -/
theorem isReadable (type : TypeTree) :
    type.IsRightAssociative → type.IsReadable ∧ (type.isArrow = false → type.IsReadableOperand) := by
  induction type with
  | atom name =>
    exact fun _ => ⟨(isReadableOperand_atom name).isReadable, fun _ => isReadableOperand_atom name⟩
  | brackets inner hypothesis =>
    intro right
    have operand := isReadableOperand_brackets (hypothesis right).1
    exact ⟨operand.isReadable, fun _ => operand⟩
  | arrow argument result argumentHypothesis resultHypothesis =>
    rintro ⟨operand, argumentRight, resultRight⟩
    exact ⟨isReadable_arrow ((argumentHypothesis argumentRight).2 operand)
      (resultHypothesis resultRight).1, nofun⟩

end TypeTree

/-- A parameter is read off the front of tokens in one way. -/
theorem parameterTokens_inj {name other : String} {type otherType : TypeTree}
    {rest otherRest : List TokenKind} (right : type.IsRightAssociative)
    (otherRight : otherType.IsRightAssociative) (stops : ∀ more, rest ≠ .arrow :: more)
    (otherStops : ∀ more, otherRest ≠ .arrow :: more)
    (same : parameterTokens name type ++ rest = parameterTokens other otherType ++ otherRest) :
    name = other ∧ type = otherType ∧ rest = otherRest := by
  obtain ⟨first, later⟩ := List.cons.inj same
  exact ⟨TokenKind.identifier.inj first,
    (type.isReadable right).1 otherRight stops otherStops (List.cons.inj later).2⟩

namespace ParametersTree

theorem exists_tokens (parameters : ParametersTree) :
    ∃ name rest, parameters.tokens = .identifier name :: rest := by
  cases parameters with
  | one name type => exact ⟨_, _, rfl⟩
  | more name type rest => exact ⟨_, _, rfl⟩

theorem tokens_append_ne_arrow (parameters : ParametersTree) (kinds more : List TokenKind) :
    parameters.tokens ++ kinds ≠ .arrow :: more := by
  obtain ⟨name, rest, same⟩ := parameters.exists_tokens
  rw [same]
  exact nofun

/-- A list of parameters is read off the front of tokens in one way, up to the parenthesis that
closes it. -/
theorem eq_of_tokens_append_eq {parameters other : ParametersTree}
    {rest otherRest : List TokenKind} (right : parameters.IsRightAssociative)
    (otherRight : other.IsRightAssociative)
    (same : parameters.tokens ++ .closing :: rest = other.tokens ++ .closing :: otherRest) :
    parameters = other ∧ rest = otherRest := by
  induction parameters generalizing other with
  | one name type =>
    cases other with
    | one otherName otherType =>
      obtain ⟨rfl, rfl, rests⟩ := parameterTokens_inj right otherRight (closing_ne_arrow _)
        (closing_ne_arrow _) same
      exact ⟨rfl, (List.cons.inj rests).2⟩
    | more otherName otherType otherMore =>
      rw [tokens, tokens, List.append_assoc] at same
      obtain ⟨-, -, rests⟩ := parameterTokens_inj right otherRight.1 (closing_ne_arrow _)
        (otherMore.tokens_append_ne_arrow _) same
      obtain ⟨_, _, first⟩ := otherMore.exists_tokens
      rw [first] at rests
      cases (List.cons.inj rests).1
  | more name type later hypothesis =>
    rw [tokens, List.append_assoc] at same
    cases other with
    | one otherName otherType =>
      obtain ⟨-, -, rests⟩ := parameterTokens_inj right.1 otherRight
        (later.tokens_append_ne_arrow _) (closing_ne_arrow _) same
      obtain ⟨_, _, first⟩ := later.exists_tokens
      rw [first] at rests
      cases (List.cons.inj rests).1
    | more otherName otherType otherLater =>
      rw [tokens, List.append_assoc] at same
      obtain ⟨rfl, rfl, laters⟩ := parameterTokens_inj right.1 otherRight.1
        (later.tokens_append_ne_arrow _) (otherLater.tokens_append_ne_arrow _) same
      obtain ⟨rfl, rests⟩ := hypothesis right.2 otherRight.2 laters
      exact ⟨rfl, rests⟩

end ParametersTree

namespace TermTree

/-- A term is read off the front of tokens in one way. -/
def IsReadable (term : TermTree) : Prop :=
  ∀ ⦃other : TermTree⦄ ⦃rest otherRest : List TokenKind⦄, other.IsRightAssociative →
    term.tokens ++ rest = other.tokens ++ otherRest → term = other ∧ rest = otherRest

end TermTree

namespace TermsTree

theorem eq_of_list_eq {terms other : TermsTree} (same : terms.list = other.list) :
    terms = other := by
  induction terms generalizing other with
  | one term =>
    cases other with
    | one otherTerm => rw [List.singleton_inj.1 same]
    | more before otherTerm =>
      exact absurd (List.append_eq_singleton_iff.1 same.symm) (by simp [before.list_ne_nil])
  | more before term hypothesis =>
    cases other with
    | one otherTerm =>
      exact absurd (List.append_eq_singleton_iff.1 same) (by simp [before.list_ne_nil])
    | more otherBefore otherTerm =>
      obtain ⟨earlier, last⟩ := List.append_inj' same rfl
      rw [hypothesis earlier, List.singleton_inj.1 last]

/-- Terms that are each read in one way are read in one way up to the parenthesis that closes
them. -/
theorem eq_of_flatMap_eq {terms others : List TermTree} {rest otherRest : List TokenKind}
    (readable : ∀ term ∈ terms, term.IsReadable) (right : ∀ term ∈ others, term.IsRightAssociative)
    (same : terms.flatMap TermTree.tokens ++ .closing :: rest =
      others.flatMap TermTree.tokens ++ .closing :: otherRest) :
    terms = others ∧ rest = otherRest := by
  induction terms generalizing others with
  | nil =>
    cases others with
    | nil => exact ⟨rfl, (List.cons.inj same).2⟩
    | cons other more =>
      rw [List.flatMap_cons, List.append_assoc] at same
      exact absurd same.symm ((other.beginsTerm.append _).ne_cons rfl)
  | cons term later hypothesis =>
    rw [List.flatMap_cons, List.append_assoc] at same
    cases others with
    | nil => exact absurd same ((term.beginsTerm.append _).ne_cons rfl)
    | cons other more =>
      rw [List.flatMap_cons, List.append_assoc] at same
      obtain ⟨termReadable, laterReadable⟩ := List.forall_mem_cons.1 readable
      obtain ⟨otherRight, moreRight⟩ := List.forall_mem_cons.1 right
      obtain ⟨rfl, laters⟩ := termReadable otherRight same
      obtain ⟨rfl, rests⟩ := hypothesis laterReadable moreRight laters
      exact ⟨rfl, rests⟩

end TermsTree

namespace TermTree

/-- Terms in which arrows associate to the right are read in one way. -/
theorem isReadable (term : TermTree) : term.IsRightAssociative → term.IsReadable := by
  induction term with
  | occurrence name =>
    intro _ other rest otherRest _ same
    cases other with
    | occurrence otherName =>
      obtain ⟨rfl, rests⟩ := List.cons.inj same |>.imp_left TokenKind.identifier.inj
      exact ⟨rfl, rests⟩
    | number value => cases (List.cons.inj same).1
    | abstraction parameters body => cases (List.cons.inj same).1
    | brackets terms => cases (List.cons.inj same).1
  | number value =>
    intro _ other rest otherRest _ same
    cases other with
    | occurrence name => cases (List.cons.inj same).1
    | number otherValue =>
      obtain ⟨rfl, rests⟩ := List.cons.inj same |>.imp_left TokenKind.number.inj
      exact ⟨rfl, rests⟩
    | abstraction parameters body => cases (List.cons.inj same).1
    | brackets terms => cases (List.cons.inj same).1
  | abstraction parameters body hypothesis =>
    intro right other rest otherRest otherRight same
    cases other with
    | occurrence name => cases (List.cons.inj same).1
    | number value => cases (List.cons.inj same).1
    | abstraction otherParameters otherBody =>
      simp only [tokens, List.cons_append, List.append_assoc, List.nil_append, List.cons.injEq,
        true_and] at same
      obtain ⟨rfl, bodies⟩ :=
        ParametersTree.eq_of_tokens_append_eq right.1 otherRight.1 same
      obtain ⟨rfl, rests⟩ := hypothesis right.2 otherRight.2 bodies
      exact ⟨rfl, (List.cons.inj rests).2⟩
    | brackets terms =>
      simp only [tokens, List.cons_append, List.append_assoc, List.cons.injEq, true_and] at same
      exact absurd same.symm ((terms.beginsTerm.append _).ne_cons rfl)
  | brackets terms hypothesis =>
    intro right other rest otherRest otherRight same
    cases other with
    | occurrence name => cases (List.cons.inj same).1
    | number value => cases (List.cons.inj same).1
    | abstraction parameters body =>
      simp only [tokens, List.cons_append, List.append_assoc, List.cons.injEq, true_and] at same
      exact absurd same ((terms.beginsTerm.append _).ne_cons rfl)
    | brackets otherTerms =>
      simp only [tokens, List.cons_append, List.append_assoc, List.nil_append, List.cons.injEq,
        true_and, TermsTree.tokens_eq] at same
      have rights := TermsTree.isRightAssociative_iff.1 right
      obtain ⟨lists, rests⟩ := TermsTree.eq_of_flatMap_eq
        (fun term member => hypothesis term member (rights term member))
        (TermsTree.isRightAssociative_iff.1 otherRight) same
      rw [TermsTree.eq_of_list_eq lists]
      exact ⟨rfl, rests⟩

end TermTree

theorem definitionTokens_inj {name otherName : String} {value other : TermTree}
    {rest otherRest : List TokenKind} (right : value.IsRightAssociative)
    (otherRight : other.IsRightAssociative)
    (same : definitionTokens name value.tokens ++ rest =
      definitionTokens otherName other.tokens ++ otherRest) :
    name = otherName ∧ value = other ∧ rest = otherRest := by
  simp only [definitionTokens, List.cons_append, List.append_assoc, List.nil_append,
    List.cons.injEq, TokenKind.identifier.injEq, true_and] at same
  obtain ⟨rfl, values⟩ := same
  obtain ⟨rfl, rests⟩ := value.isReadable right otherRight values
  exact ⟨rfl, rfl, (List.cons.inj rests).2⟩

/-- A term does not begin like a definition. -/
theorem TermTree.tokens_ne_definitionTokens (term : TermTree) (name : String)
    (value rest : List TokenKind) : term.tokens ≠ definitionTokens name value ++ rest := by
  intro same
  cases term with
  | occurrence name => cases (List.cons.inj same).1
  | number value => cases (List.cons.inj same).1
  | abstraction parameters body => cases (List.cons.inj (List.cons.inj same).2).1
  | brackets terms =>
    simp only [tokens, definitionTokens, List.cons_append, List.append_assoc, List.cons.injEq,
      true_and] at same
    exact absurd same ((terms.beginsTerm.append _).ne_cons rfl)

/-- A program is the only one with its tokens if arrows associate to the right. -/
theorem ProgramTree.eq_of_tokens_eq {program other : ProgramTree}
    (right : program.IsRightAssociative) (otherRight : other.IsRightAssociative)
    (same : program.tokens = other.tokens) : program = other := by
  have nonempty : ∀ tree : ProgramTree, [] ≠ tree.tokens := fun tree empty => by
    obtain ⟨_, _, begins, _⟩ := tree.beginsTerm
    rw [begins] at empty
    cases empty
  have bare : ∀ name value, definitionTokens name value = definitionTokens name value ++ [] :=
    fun _ _ => (List.append_nil _).symm
  induction program generalizing other with
  | more name value rest hypothesis =>
    cases other with
    | more otherName otherValue otherRest =>
      obtain ⟨rfl, rfl, rests⟩ := definitionTokens_inj right.1 otherRight.1 same
      rw [hypothesis right.2 otherRight.2 rests]
    | last term => exact absurd same.symm (term.tokens_ne_definitionTokens _ _ _)
    | definition otherName otherValue =>
      rw [tokens, tokens, bare otherName] at same
      exact absurd (definitionTokens_inj right.1 otherRight same).2.2.symm (nonempty rest)
  | last term =>
    cases other with
    | more otherName otherValue otherRest =>
      exact absurd same (term.tokens_ne_definitionTokens _ _ _)
    | last otherTerm =>
      obtain ⟨rfl, -⟩ := term.isReadable right otherRight (congrArg (· ++ []) same)
      rfl
    | definition otherName otherValue =>
      rw [tokens, tokens, bare] at same
      exact absurd same (term.tokens_ne_definitionTokens _ _ _)
  | definition name value =>
    cases other with
    | more otherName otherValue otherRest =>
      rw [tokens, tokens, bare name] at same
      exact absurd (definitionTokens_inj right otherRight.1 same).2.2 (nonempty otherRest)
    | last term =>
      rw [tokens, tokens, bare] at same
      exact absurd same.symm (term.tokens_ne_definitionTokens _ _ _)
    | definition otherName otherValue =>
      rw [tokens, tokens, bare name, bare otherName] at same
      obtain ⟨rfl, rfl, -⟩ := definitionTokens_inj right otherRight same
      rfl

end WordArithmetic
