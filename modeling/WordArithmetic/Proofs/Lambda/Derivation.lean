/-
This file says what comes of reading a text.

A text is read as the one derivation of its tokens in which arrows associate to the right. If it has
none, the reader reports what is wrong at the first place where it is: a token with which no program
goes on, a character that starts no token, or the end of the text.
-/

import WordArithmetic.Proofs.Lambda.Definitions

namespace WordArithmetic

namespace ProgramTree

/-- A derivation of tokens whose arrows associate to the right, and the only one of these. -/
structure IsDerivationOf (program : ProgramTree) (kinds : List TokenKind) : Prop where
  right : program.IsRightAssociative
  tokens : program.tokens = kinds
  unique : ∀ other : ProgramTree, other.IsRightAssociative → other.tokens = kinds → other = program

/-- A program that has the tokens can be regrouped to their derivation. -/
theorem isDerivationOf_regroup {program : ProgramTree} {kinds : List TokenKind}
    (tokens : program.tokens = kinds) : program.regroup.IsDerivationOf kinds where
  right := program.isRightAssociative_regroup
  tokens := by rw [program.tokens_regroup, tokens]
  unique other right same :=
    eq_of_tokens_eq right program.isRightAssociative_regroup
      (by rw [same, program.tokens_regroup, tokens])

end ProgramTree

namespace Session

/-! ### What the outcome says about the tokens -/

section Outcomes

variable {session : Session} {code : String}

/-- A text is read as its derivation says. -/
theorem read_of_isDerivationOf {program : ProgramTree}
    (derivation : program.IsDerivationOf ((Scan.ofText code).tokens.map Token.kind))
    (finished : (Scan.ofText code).ending = .finished) :
    session.read code = ((program.run session).1, .ok (program.run session).2) := by
  obtain ⟨next, fed, ran, ended⟩ := Reading.exists_feedAll_start derivation.right session
  rw [derivation.tokens] at fed
  rw [Session.read, Reading.advance_of_feedAll fed, finished]
  exact Prod.ext ran ended

/-- If all tokens are read and the text then has a term or ends with a definition, they are the
tokens of a program. -/
theorem exists_program_of_feedAll {kinds : List TokenKind} {next : Reading}
    (fed : (Reading.start session).feedAll kinds = some next) {result : Option Term}
    (finished : next.settle.finish = .ok result) :
    ∃ program : ProgramTree, program.tokens = kinds :=
  ((Reading.hasRead_start session).feedAll fed).settle.exists_program finished

/-- The first token with which no program goes on is reported. -/
theorem read_eq_unexpectedToken
    (stopped : (Reading.start session).feedAll ((Scan.ofText code).tokens.map Token.kind) = none) :
    ∃ before token after, (Scan.ofText code).tokens = before ++ token :: after ∧
      IsViable (before.map Token.kind) ∧ ¬IsViable ((before ++ [token]).map Token.kind) ∧
        (session.read code).2 = .error (.unexpectedToken token.kind.shown token.position) := by
  obtain ⟨before, token, after, next, split, fed, stops⟩ :=
    Reading.exists_of_feedAll_eq_none stopped
  have advanced := Reading.advance_of_feed_eq_none after fed stops
  refine ⟨before, token, after, split, (Reading.exists_feedAll_iff session).1 ⟨next, fed⟩,
    fun viable => ?_, ?_⟩
  · obtain ⟨last, fedAll⟩ := (Reading.exists_feedAll_iff session).2 viable
    rw [List.map_append, Reading.feedAll_append_of_eq fed, List.map_singleton,
      Reading.feedAll_singleton, stops] at fedAll
    cases fedAll
  · rw [Session.read, split, advanced]

/-- A text that is accepted has a derivation, and is read as it says. -/
theorem exists_isDerivationOf {result : Option Term} (ok : (session.read code).2 = .ok result) :
    (Scan.ofText code).ending = .finished ∧
      ∃ program : ProgramTree,
        program.IsDerivationOf ((Scan.ofText code).tokens.map Token.kind) ∧
          session.read code = ((program.run session).1, .ok (program.run session).2) := by
  cases fed : (Reading.start session).feedAll ((Scan.ofText code).tokens.map Token.kind) with
  | none =>
    obtain ⟨_, _, _, _, _, _, failed⟩ := read_eq_unexpectedToken fed
    rw [failed] at ok
    cases ok
  | some next =>
    rw [Session.read, Reading.advance_of_feedAll fed] at ok
    cases ending : (Scan.ofText code).ending with
    | illegal rest position =>
      rw [ending] at ok
      cases ok
    | finished =>
      rw [ending] at ok
      obtain ⟨program, same⟩ := exists_program_of_feedAll fed ok
      have derivation := ProgramTree.isDerivationOf_regroup same
      exact ⟨rfl, _, derivation, read_of_isDerivationOf derivation ending⟩

/-- A text whose tokens are all read, but which is not accepted, ends at a character that starts no
token or too early. -/
theorem read_eq_error {next : Reading}
    (fed : (Reading.start session).feedAll ((Scan.ofText code).tokens.map Token.kind) = some next) :
    (∃ result, (session.read code).2 = .ok result) ∨
      (∃ rest position, (Scan.ofText code).ending = .illegal rest position ∧
        (session.read code).2 = .error (.illegalCharacter (String.ofList rest) position)) ∨
      (Scan.ofText code).ending = .finished ∧ (session.read code).2 = .error .unexpectedEnd := by
  rw [Session.read, Reading.advance_of_feedAll fed]
  cases (Scan.ofText code).ending with
  | illegal rest position => exact .inr (.inl ⟨rest, position, rfl, rfl⟩)
  | finished =>
    rcases Reading.finish_eq_ok_or next.settle with ok | early
    · exact .inl ok
    · exact .inr (.inr ⟨rfl, early⟩)

end Outcomes

/-- The reader accepts exactly the texts whose tokens are those of a program, and reads them as the
only derivation whose arrows associate to the right. Of any other text it reports the first
character that starts no token if a program may begin with the tokens before it, the first token
with which no program begins any more, or that the text ends although a program would go on. -/
theorem read_eq_derivation (session : Session) (code : String) :
    let scan := Scan.ofText code
    let kinds := scan.tokens.map Token.kind
    ((∃ result, (session.read code).2 = .ok result) ↔
      scan.ending = .finished ∧ ∃ program : ProgramTree, program.tokens = kinds) ∧
    ((∃ program : ProgramTree, program.IsDerivationOf kinds ∧ scan.ending = .finished ∧
        session.read code = ((program.run session).1, .ok (program.run session).2)) ∨
      (∃ rest position, scan.ending = .illegal rest position ∧ IsViable kinds ∧
        (session.read code).2 = .error (.illegalCharacter (String.ofList rest) position)) ∨
      (∃ before token after, scan.tokens = before ++ token :: after ∧
        IsViable (before.map Token.kind) ∧ ¬IsViable ((before ++ [token]).map Token.kind) ∧
          (session.read code).2 = .error (.unexpectedToken token.kind.shown token.position)) ∨
      scan.ending = .finished ∧ IsViable kinds ∧
        (∀ program : ProgramTree, program.tokens ≠ kinds) ∧
          (session.read code).2 = .error .unexpectedEnd) := by
  intro scan kinds
  have accepted : ∀ program : ProgramTree, scan.ending = .finished → program.tokens = kinds →
      ∃ result, (session.read code).2 = .ok result := fun program ending same =>
    ⟨_, congrArg Prod.snd (read_of_isDerivationOf (ProgramTree.isDerivationOf_regroup same) ending)⟩
  refine ⟨⟨?_, fun ⟨ending, program, same⟩ => accepted program ending same⟩, ?_⟩
  · rintro ⟨result, ok⟩
    obtain ⟨ending, program, derivation, -⟩ := exists_isDerivationOf ok
    exact ⟨ending, program, derivation.tokens⟩
  · cases fed : (Reading.start session).feedAll kinds with
    | none => exact .inr (.inr (.inl (read_eq_unexpectedToken fed)))
    | some next =>
      have viable : IsViable kinds := (Reading.exists_feedAll_iff session).1 ⟨next, fed⟩
      rcases read_eq_error fed with ⟨result, ok⟩ | ⟨rest, position, ending, failed⟩ | ⟨ending, failed⟩
      · obtain ⟨ending, program, derivation, read⟩ := exists_isDerivationOf ok
        exact .inl ⟨program, derivation, ending, read⟩
      · exact .inr (.inl ⟨rest, position, ending, viable, failed⟩)
      · refine .inr (.inr (.inr ⟨ending, viable, fun program same => ?_, failed⟩))
        obtain ⟨result, ok⟩ := accepted program ending same
        rw [failed] at ok
        cases ok

end Session

end WordArithmetic
