/-
This file shows that whatever is read is a written term.

The reader keeps terms in every construct that is open and in the session, and operands of types
while it reads one. The invariant says that all of them can be written, and each step of the reader
keeps it. It asks of the text only that no name of a type is the bottom symbol, which is so because
a name starts with a letter or is an operator sign. Sessions that come about by reading programs,
one after the other and to their end or not, therefore know written terms only.
-/

import WordArithmetic.Lambda.Reader
import WordArithmetic.Proofs.Failure
import WordArithmetic.Proofs.Lambda.Naming
import WordArithmetic.Proofs.Lambda.Written
import WordArithmetic.Proofs.Table

namespace WordArithmetic

/-! ### Tokens -/

/-- Whether a token can name a type. -/
def TokenKind.IsWritten : TokenKind → Prop
  | .identifier name => name ≠ SimpleType.bottomName
  | _ => True

/-- No name in a text is the bottom symbol. -/
theorem TokenKind.IsNamed.isWritten {kind : TokenKind} (named : kind.IsNamed) : kind.IsWritten := by
  cases kind with
  | identifier name =>
    rintro rfl
    rcases named with ⟨first, rest, characters, letter, -⟩ | ⟨operator, same⟩
    · obtain rfl : '⊥' = first := (List.cons.inj characters).1
      exact absurd letter (by decide)
    · cases operator <;> exact absurd same (by decide)
  | _ => exact trivial

/-- No token of a text is the bottom symbol. -/
theorem Scan.isWritten_of_mem_scanFrom (position line : Nat) (text : List Char) :
    ∀ token ∈ (scanFrom position line text).tokens, token.kind.IsWritten :=
  fun token member => (isNamed_of_mem_scanFrom position line text token member).isWritten

/-! ### What the reader keeps -/

/-- The parts of a type that a program can write. -/
def AreWritten (parts : List Symbol) : Prop :=
  ∃ type : SimpleType, type.isWritten = true ∧ parts = type.parts

/-- A session knows written terms only. -/
def Session.IsWritten (session : Session) : Prop :=
  ∀ name term, session.names.get? name = some term → term.Written

/-- The types of parameters can be written. -/
def ParametersAreWritten (known : List Parameter) : Prop :=
  ∀ parameter ∈ known, AreWritten parameter.2

/-- What a construct has so far can be written. -/
def Construct.IsWritten : Construct → Prop
  | .complete term => term.Written
  | .terms function => function.Written
  | .parameter known _ => ParametersAreWritten known
  | .operand known _ inner outer =>
    ParametersAreWritten known ∧ (∀ parts ∈ inner, AreWritten parts) ∧
      ∀ operands ∈ outer, ∀ parts ∈ operands, AreWritten parts
  | .typed known _ inner outer type =>
    ParametersAreWritten known ∧ (∀ parts ∈ inner, AreWritten parts) ∧
      (∀ operands ∈ outer, ∀ parts ∈ operands, AreWritten parts) ∧ AreWritten type
  | .body known => ParametersAreWritten known
  | .bodyRead known term => ParametersAreWritten known ∧ term.Written
  | .definedRead _ term => term.Written
  | .definitionClosed _ term => term.Written
  | _ => True

/-- All that the reader has so far can be written. -/
structure Reading.IsWritten (reading : Reading) : Prop where
  current : reading.current.IsWritten
  around : ∀ construct ∈ reading.around, construct.IsWritten
  session : reading.session.IsWritten

namespace Session.IsWritten

variable {session : Session}

theorem resolve (written : session.IsWritten) (name : String) : (session.resolve name).Written := by
  unfold Session.resolve
  cases found : session.names.get? name with
  | none => exact Term.Written.free name
  | some term =>
    have known := written name term found
    show term.copy.Written
    rw [known.copy]
    exact known

theorem define (written : session.IsWritten) {term : Term} (termWritten : term.Written)
    (name : String) : (session.define name term).IsWritten := by
  intro other known found
  rw [Session.define, Table.get?_insert] at found
  split at found
  · obtain rfl := Option.some.inj found
    exact termWritten
  · exact written other known found

/-- The operators are written. -/
theorem arithmetic : Session.arithmetic.IsWritten := by
  intro name term found
  have distinct : ((Operator.all.map fun operator =>
      (operator.sign, operator.external.term)).map Prod.fst).Nodup := by decide
  rw [Session.arithmetic, Table.ofList, Table.get?_insertAll _ distinct, Table.get?_empty,
    Option.or_none] at found
  obtain ⟨operator, _, same⟩ := List.mem_map.1 (mem_of_entryOf? found)
  obtain rfl := congrArg Prod.snd same
  exact Term.Written.operator operator

end Session.IsWritten

namespace Reading

theorem areWritten_name {name : String} (token : (TokenKind.identifier name).IsWritten) :
    AreWritten [.name name] :=
  ⟨.atom name, bne_iff_ne.2 token, rfl⟩

theorem areWritten_joinArrows {last : List Symbol} {before : List (List Symbol)}
    (lastWritten : AreWritten last) (beforeWritten : ∀ parts ∈ before, AreWritten parts) :
    AreWritten (joinArrows last before) := by
  induction before generalizing last with
  | nil => exact lastWritten
  | cons first rest hypothesis =>
    obtain ⟨firstWritten, restWritten⟩ := List.forall_mem_cons.1 beforeWritten
    obtain ⟨result, resultWritten, rfl⟩ := lastWritten
    obtain ⟨argument, argumentWritten, rfl⟩ := firstWritten
    have joined : AreWritten (TypeCode.arrow argument.parts result.parts) :=
      ⟨.arrow argument result, (Bool.and_eq_true _ _).mpr ⟨argumentWritten, resultWritten⟩, rfl⟩
    exact hypothesis joined restWritten

theorem written_abstractAll {known : List Parameter} {term : Term}
    (knownWritten : ParametersAreWritten known) (written : term.Written) :
    (abstractAll known term).Written := by
  induction known with
  | nil => exact written
  | cons first rest hypothesis =>
    obtain ⟨firstWritten, restWritten⟩ := List.forall_mem_cons.1 knownWritten
    obtain ⟨name, parts⟩ := first
    obtain ⟨type, typeWritten, same⟩ := firstWritten
    obtain rfl : parts = type.parts := same
    exact Term.Written.abstract name typeWritten (hypothesis restWritten)

theorem isWritten_deliver {term : Term} {construct next : Construct}
    (delivered : deliver term construct = some next) (written : term.Written)
    (constructWritten : construct.IsWritten) : next.IsWritten := by
  unfold deliver at delivered
  split at delivered
  · cases delivered
    exact written
  · cases delivered
    exact written
  · cases delivered
    exact Term.Written.application constructWritten written
  · cases delivered
    exact ⟨constructWritten, written⟩
  · cases delivered
    exact written
  · cases delivered

namespace IsWritten

variable {reading next : Reading}

theorem put (written : reading.IsWritten) {term : Term} (termWritten : term.Written)
    (taken : reading.put term = some next) : next.IsWritten := by
  rw [Reading.put, Option.map_eq_some_iff] at taken
  obtain ⟨current, delivered, rfl⟩ := taken
  exact ⟨isWritten_deliver delivered termWritten written.current, written.around,
    written.session⟩

theorem close (written : reading.IsWritten) {term : Term} (termWritten : term.Written)
    (closed : reading.close term = some next) : next.IsWritten := by
  unfold Reading.close at closed
  split at closed
  · rename_i outer around split
    have aroundWritten := written.around
    rw [split] at aroundWritten
    obtain ⟨outerWritten, restWritten⟩ := List.forall_mem_cons.1 aroundWritten
    rw [Option.map_eq_some_iff] at closed
    obtain ⟨current, delivered, rfl⟩ := closed
    exact ⟨isWritten_deliver delivered termWritten outerWritten, restWritten, written.session⟩
  · cases closed

theorem parametersAreWritten_append {known : List Parameter} {name : String} {parts : List Symbol}
    (knownWritten : ParametersAreWritten known) (partsWritten : AreWritten parts) :
    ParametersAreWritten (known ++ [(name, parts)]) :=
  List.forall_mem_append.2 ⟨knownWritten, List.forall_mem_singleton.2 partsWritten⟩

/-- Every step of the reader keeps what it has written. -/
theorem step (written : reading.IsWritten) {token : TokenKind} (tokenWritten : token.IsWritten)
    (stepped : reading.step token = some next) : next.IsWritten := by
  obtain ⟨current, around, session⟩ := reading
  have same := written
  obtain ⟨currentWritten, aroundWritten, sessionWritten⟩ := written
  unfold Reading.step at stepped
  simp only at stepped aroundWritten
  split at stepped
  -- a parenthesis opens a construct
  case h_1 | h_2 | h_3 | h_4 | h_5 =>
    cases stepped
    exact ⟨trivial, List.forall_mem_cons.2 ⟨currentWritten, aroundWritten⟩, sessionWritten⟩
  case h_6 | h_9 | h_19 =>
    cases stepped
    exact ⟨trivial, aroundWritten, sessionWritten⟩
  case h_7 =>
    split at stepped
    · cases stepped
      exact ⟨trivial, aroundWritten, sessionWritten⟩
    · cases stepped
  case h_8 => exact same.close currentWritten stepped
  -- parameters and their types
  case h_10 =>
    cases stepped
    exact ⟨List.forall_mem_nil _, aroundWritten, sessionWritten⟩
  case h_11 =>
    cases stepped
    exact ⟨⟨currentWritten, List.forall_mem_nil _, List.forall_mem_nil _⟩, aroundWritten,
      sessionWritten⟩
  case h_12 =>
    cases stepped
    obtain ⟨known, inner, outer⟩ := currentWritten
    exact ⟨⟨known, inner, outer, areWritten_name tokenWritten⟩, aroundWritten, sessionWritten⟩
  case h_13 =>
    cases stepped
    obtain ⟨known, inner, outer⟩ := currentWritten
    exact ⟨⟨known, List.forall_mem_nil _, List.forall_mem_cons.2 ⟨inner, outer⟩⟩, aroundWritten,
      sessionWritten⟩
  case h_14 =>
    cases stepped
    obtain ⟨known, inner, outer, type⟩ := currentWritten
    exact ⟨⟨known, List.forall_mem_cons.2 ⟨type, inner⟩, outer⟩, aroundWritten, sessionWritten⟩
  case h_15 =>
    cases stepped
    obtain ⟨known, inner, outer, type⟩ := currentWritten
    obtain ⟨nearest, others⟩ := List.forall_mem_cons.1 outer
    exact ⟨⟨known, nearest, others, areWritten_joinArrows type inner⟩, aroundWritten,
      sessionWritten⟩
  case h_16 | h_17 =>
    cases stepped
    obtain ⟨known, inner, outer, type⟩ := currentWritten
    exact ⟨parametersAreWritten_append known (areWritten_joinArrows type inner), aroundWritten,
      sessionWritten⟩
  case h_18 =>
    exact same.close (written_abstractAll currentWritten.1 currentWritten.2) stepped
  case h_20 =>
    cases stepped
    exact ⟨currentWritten, List.forall_mem_nil _, sessionWritten⟩
  -- names and numbers where a term is waited for
  case h_21 =>
    split at stepped
    · exact same.put (Session.IsWritten.resolve sessionWritten _) stepped
    · cases stepped
  case h_22 =>
    split at stepped
    · exact same.put (Term.Written.number _) stepped
    · cases stepped
  case h_23 => cases stepped

theorem settle (written : reading.IsWritten) : reading.settle.IsWritten := by
  unfold Reading.settle
  split
  · rename_i name term closed
    have termWritten := written.current
    rw [closed] at termWritten
    exact ⟨trivial, written.around, Session.IsWritten.define written.session termWritten name⟩
  · exact written

/-- Reading tokens keeps what has been written. -/
theorem advance {tokens : List Token} (tokensWritten : ∀ token ∈ tokens, token.kind.IsWritten)
    (written : reading.IsWritten) : (reading.advance tokens).1.IsWritten := by
  induction tokens generalizing reading with
  | nil => exact written
  | cons token rest hypothesis =>
    obtain ⟨tokenWritten, restWritten⟩ := List.forall_mem_cons.1 tokensWritten
    have ready : (if startsTerm token.kind then reading.settle else reading).IsWritten := by
      split
      · exact written.settle
      · exact written
    rw [Reading.advance]
    split
    · rename_i next stepped
      exact hypothesis restWritten (ready.step tokenWritten stepped)
    · exact ready

/-- The term of a program is written. -/
theorem finish (written : reading.IsWritten) {term : Term}
    (finished : reading.finish = .ok (some term)) : term.Written := by
  unfold Reading.finish at finished
  split at finished
  · cases finished
  · rename_i known complete
    have knownWritten := written.current
    rw [complete] at knownWritten
    cases finished
    exact knownWritten
  · cases finished

end IsWritten

theorem isWritten_start {session : Session} (written : session.IsWritten) :
    (start session).IsWritten :=
  ⟨trivial, List.forall_mem_nil _, written⟩

end Reading

namespace Session.IsWritten

variable {session : Session}

/-- Reading a program keeps the session written, whether or not it comes to its end, and a program
that has a term has a written one. -/
theorem read (written : session.IsWritten) (code : String) :
    (session.read code).1.IsWritten ∧
      ∀ term, (session.read code).2 = .ok (some term) → term.Written := by
  have tokens : ∀ token ∈ (Scan.ofText code).tokens, token.kind.IsWritten :=
    Scan.isWritten_of_mem_scanFrom 0 1 code.toList
  have advanced := Reading.IsWritten.advance tokens (Reading.isWritten_start written)
  unfold Session.read
  simp only
  split
  · rename_i stopped
    rw [stopped] at advanced
    exact ⟨advanced.session, fun term failed => by cases failed⟩
  · rename_i reading rest position stopped ending
    rw [stopped] at advanced
    exact ⟨advanced.session, fun term failed => by cases failed⟩
  · rename_i reading stopped ending
    rw [stopped] at advanced
    exact ⟨advanced.settle.session, fun term finished => advanced.settle.finish finished⟩

end Session.IsWritten

/-! ### Terms that can come about -/

/-- A session that comes about by reading programs, the first of them in the session of
arithmetic. -/
inductive Session.Reachable : Session → Prop
  | arithmetic : Reachable Session.arithmetic
  | read {session : Session} (reachable : Reachable session) (code : String) :
      Reachable (session.read code).1

theorem Session.Reachable.isWritten {session : Session} (reachable : session.Reachable) :
    session.IsWritten := by
  induction reachable with
  | arithmetic => exact Session.IsWritten.arithmetic
  | read _ code hypothesis => exact (hypothesis.read code).1

/-- What a text is read as, if it has a term. -/
def Session.term? (session : Session) (code : String) : Option Term :=
  (session.read code).2.toOption.join

theorem Session.read_of_term? {session : Session} {code : String} {term : Term}
    (found : session.term? code = some term) : (session.read code).2 = .ok (some term) := by
  rw [Session.term?, Option.join_eq_some_iff] at found
  exact eq_ok_of_toOption found

/-- A term that is read in such a session, or applied to another one. -/
inductive Term.Composed : Term → Prop
  | read {session : Session} (reachable : session.Reachable) {code : String} {term : Term}
      (result : (session.read code).2 = .ok (some term)) : Composed term
  | application {function argument : Term} (applied : Composed function)
      (supplied : Composed argument) : Composed (.application function argument)

theorem Term.Composed.written {term : Term} (composed : term.Composed) : term.Written := by
  induction composed with
  | read reachable result => exact (reachable.isWritten.read _).2 _ result
  | application _ _ functionHypothesis argumentHypothesis =>
    exact Term.Written.application functionHypothesis argumentHypothesis

end WordArithmetic
