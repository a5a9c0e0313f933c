/-
This file shows what the types of parameters come to.

The type of a parameter denotes a simple type: the arrow associates to the right, and brackets only
group. What the reader keeps of it is the written form of that type, and it gets past the type of a
parameter in no other way. Different types are written differently, so that the operations on
written types are those on simple types: an application has the type that is left of a function
type when the argument is what it takes, and no type in any other case.
-/

import WordArithmetic.Proofs.Lambda.SimpleType
import WordArithmetic.Proofs.Lambda.Viability

namespace WordArithmetic

/-! ### What a type denotes -/

namespace TypeTree

/-- The simple type that a derivation of a type denotes. -/
def simpleType : TypeTree → SimpleType
  | atom name => .atom name
  | brackets inner => inner.simpleType
  | arrow argument result => .arrow argument.simpleType result.simpleType

theorem parts_eq (tree : TypeTree) : tree.parts = tree.simpleType.parts := by
  induction tree with
  | atom name => rfl
  | brackets inner hypothesis => exact hypothesis
  | arrow argument result argumentHypothesis resultHypothesis =>
    rw [parts, argumentHypothesis, resultHypothesis]
    rfl

/-- A derivation of tokens whose arrows associate to the right, and the only one of these. -/
structure IsDerivationOf (tree : TypeTree) (kinds : List TokenKind) : Prop where
  right : tree.IsRightAssociative
  tokens : tree.tokens = kinds
  unique : ∀ other : TypeTree, other.IsRightAssociative → other.tokens = kinds → other = tree

/-- The tokens of a type have one derivation. -/
theorem isDerivationOf_regroup (tree : TypeTree) : tree.regroup.IsDerivationOf tree.tokens where
  right := tree.isRightAssociative_regroup
  tokens := tree.tokens_regroup
  unique other right same := by
    have front : other.tokens ++ [] = tree.regroup.tokens ++ [] := by rw [same, tree.tokens_regroup]
    have stops : ∀ more : List TokenKind, [] ≠ .arrow :: more := fun _ => nofun
    exact ((other.isReadable right).1 tree.isRightAssociative_regroup stops stops front).1

end TypeTree

/-! ### What is read -/

namespace Reading

/-- The reader behind the type of a parameter, which the parenthesis behind the parameters or the
name of the next one ends. -/
def behindType (known : List Parameter) (around : List Construct) (session : Session) :
    TokenKind → Option Reading
  | .closing => some ⟨.body known, around, session⟩
  | .identifier next => some ⟨.parameter known next, around, session⟩
  | _ => none

/-- A type is read as the written form of what it denotes. -/
theorem feedAll_annotation {tree : TypeTree} (right : tree.IsRightAssociative)
    (known : List Parameter) (name : String) (around : List Construct) (session : Session)
    {ending : TokenKind} (ends : ending ≠ .arrow) :
    feedAll ⟨.operand known name [] [], around, session⟩ (tree.tokens ++ [ending]) =
      behindType (known ++ [(name, tree.simpleType.parts)]) around session ending := by
  obtain ⟨operands, last, fed, joined, -⟩ := feedAll_type known around session right name [] []
  have parts : joinArrows last operands = tree.simpleType.parts := joined.trans tree.parts_eq
  rw [feedAll_append_of_eq fed, feedAll_singleton, ← parts]
  cases ending with
  | arrow => exact absurd rfl ends
  | _ => rfl

/-- The reader is in the type of a parameter, of which it has read these tokens. -/
inductive IsInType (known : List Parameter) (name : String) (around : List Construct)
    (session : Session) : Reading → List TokenKind → Prop
  | operand {inner : List (List Symbol)} {outer : List (List (List Symbol))}
      {kinds : List TokenKind} (opens : OpensType outer.length kinds) :
      IsInType known name around session ⟨.operand known name inner outer, around, session⟩ kinds
  | typed {inner : List (List Symbol)} {outer : List (List (List Symbol))} {type : List Symbol}
      {kinds : List TokenKind} (opens : OpensType outer.length kinds) (last : TypeTree) :
      IsInType known name around session ⟨.typed known name inner outer type, around, session⟩
        (kinds ++ last.tokens)

section Inside

variable {known : List Parameter} {name : String} {around : List Construct} {session : Session}
  {reading next : Reading} {before kinds : List TokenKind}

/-- A token inside of the type of a parameter goes on with it, or ends it. -/
theorem IsInType.feed (inside : IsInType known name around session reading kinds) {kind : TokenKind}
    (fed : reading.feed kind = some next) :
    IsInType known name around session next (kinds ++ [kind]) ∨
      kind ≠ .arrow ∧ ∃ tree : TypeTree, tree.tokens = kinds := by
  cases inside with
  | operand opens =>
    cases kind with
    | identifier atom =>
      obtain rfl := Option.some.inj fed
      exact .inl (.typed opens (.atom atom))
    | opening =>
      obtain rfl := Option.some.inj fed
      exact .inl (.operand opens.opening)
    | _ => cases fed
  | @typed inner outer type kinds opens last =>
    cases kind with
    | arrow =>
      obtain rfl := Option.some.inj fed
      exact .inl (.operand (opens.arrow last))
    | closing =>
      cases outer with
      | nil => exact .inr ⟨nofun, opens.exists_type last⟩
      | cons following outer =>
        obtain rfl := Option.some.inj fed
        obtain ⟨before, outside, operand, closed⟩ := opens.exists_operand last
        rw [← closed]
        exact .inl (.typed outside operand)
    | identifier following =>
      cases outer with
      | nil => exact .inr ⟨nofun, opens.exists_type last⟩
      | cons following outer => cases fed
    | _ => cases fed

/-- A reader that has got past the type of a parameter has read one. -/
theorem IsInType.feedAll (inside : IsInType known name around session reading before)
    (fed : reading.feedAll kinds = some next) :
    IsInType known name around session next (before ++ kinds) ∨
      ∃ (tree : TypeTree) (ending : TokenKind) (rest : List TokenKind),
        before ++ kinds = tree.tokens ++ ending :: rest ∧ ending ≠ .arrow := by
  induction kinds generalizing reading before with
  | nil =>
    obtain rfl := Option.some.inj fed
    rw [List.append_nil]
    exact .inl inside
  | cons kind kinds hypothesis =>
    rw [feedAll_cons, Option.bind_eq_some_iff] at fed
    obtain ⟨between, first, later⟩ := fed
    rcases inside.feed first with further | ⟨ends, tree, rfl⟩
    · rw [List.append_cons]
      exact hypothesis further later
    · exact .inr ⟨tree, kind, kinds, rfl, ends⟩

end Inside

end Reading

/-! ### Applications -/

namespace SimpleType

/-- Brackets around a written type are dropped. -/
theorem stripBrackets_brackets (type : SimpleType) :
    TypeCode.stripBrackets (.tuple [type.code]) = type.code := rfl

/-- Whatever is no function of the argument has no type when it is applied to it. -/
theorem application_eq_untyped {function argument : SimpleType}
    (other : ∀ result, function ≠ arrow argument result) :
    TypeCode.application function.code argument.code = TypeCode.untyped := by
  by_contra typed
  obtain ⟨result, same, -⟩ := application_eq rfl typed
  exact other result same

/-- Types are read, written and applied as simple types. The tokens of a type are read, whatever
ends it, as the written form of what their one derivation with arrows to the right denotes; and the
reader does not get past the type of a parameter unless it has read the tokens of a type. Arrows and
brackets are written as they are read, and no two types alike. Of two written types the application
leaves the result if the first is a function that takes the second, and else no type, nor does it
leave one if either has none. -/
theorem written_faithfully (known : List Parameter) (name : String) (around : List Construct)
    (session : Session) :
    (∀ tree : TypeTree, ∃ derivation : TypeTree, derivation.IsDerivationOf tree.tokens ∧
      ∀ ending, ending ≠ .arrow →
        Reading.feedAll ⟨.operand known name [] [], around, session⟩ (tree.tokens ++ [ending]) =
          Reading.behindType (known ++ [(name, derivation.simpleType.parts)]) around session
            ending) ∧
    (∀ kinds reading,
      Reading.feedAll ⟨.operand known name [] [], around, session⟩ kinds = some reading →
        Reading.IsInType known name around session reading kinds ∨
          ∃ (tree : TypeTree) (ending : TokenKind) (rest : List TokenKind),
            kinds = tree.tokens ++ ending :: rest ∧ ending ≠ .arrow) ∧
    (∀ argument result : SimpleType,
      TypeCode.concat argument.code result.code = .ok (arrow argument result).code ∧
        TypeCode.stripBrackets (.tuple [result.code]) = result.code) ∧
    (∀ left right : SimpleType, left.code = right.code ↔ left = right) ∧
    (∀ function argument : SimpleType,
      (∀ result, function = arrow argument result →
        TypeCode.application function.code argument.code = result.code) ∧
      ((∀ result, function ≠ arrow argument result) →
        TypeCode.application function.code argument.code = TypeCode.untyped)) ∧
    ∀ code : TypeCode, TypeCode.application TypeCode.untyped code = TypeCode.untyped ∧
      TypeCode.application code TypeCode.untyped = TypeCode.untyped := by
  refine ⟨fun tree => ?_, fun kinds reading fed => ?_, fun argument result => ?_,
    fun left right => ?_, fun function argument => ⟨?_, application_eq_untyped⟩, fun code => ?_⟩
  · refine ⟨tree.regroup, tree.isDerivationOf_regroup, fun ending ends => ?_⟩
    rw [← tree.tokens_regroup]
    exact Reading.feedAll_annotation tree.isRightAssociative_regroup known name around session ends
  · have inside : Reading.IsInType known name around session
        ⟨.operand known name [] [], around, session⟩ [] := .operand OpensType.start
    exact inside.feedAll fed
  · exact ⟨concat_code argument result, stripBrackets_brackets result⟩
  · exact ⟨code_injective, congrArg code⟩
  · rintro result rfl
    exact application_code argument result
  · exact ⟨application_untyped_left code, application_untyped_right code⟩

end SimpleType

end WordArithmetic
