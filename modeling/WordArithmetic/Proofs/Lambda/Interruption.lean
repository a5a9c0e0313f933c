/-
This file says what a text leaves behind that is not read to its end.

Definitions take effect while the text behind them is still unread, each with the token that follows
it. So a reader that fails leaves the session that the definitions in front of the failure make. A
definition that nothing but the failure follows is not among them: a token or a character with which
no program goes on does not take it into effect.

Nothing else is left of a text. What the next one is read as, or why it is not, depends only on what
the names mean in the session.
-/

import WordArithmetic.Proofs.Lambda.Scoping

namespace WordArithmetic

/-! ### The place of a failure -/

/-- The tokens of a scan in front of the place at which a failure is reported: those before a token,
or all of them, when a character that starts no token or the end of the text is reported. -/
inductive Scan.FailsBehind (scan : Scan) : List Token → Failure → Prop
  | token {before : List Token} {token : Token} {after : List Token}
      (split : scan.tokens = before ++ token :: after) :
      FailsBehind scan before (.unexpectedToken token.kind.shown token.position)
  | character {rest : List Char} {position : Nat} (ending : scan.ending = .illegal rest position) :
      FailsBehind scan scan.tokens (.illegalCharacter (String.ofList rest) position)
  | ending (ending : scan.ending = .finished) : FailsBehind scan scan.tokens .unexpectedEnd

/-- A reader that fails has read the tokens in front of the failure, and leaves the session that it
had then. -/
theorem Session.exists_failsBehind {session : Session} {code : String} {failure : Failure}
    (failed : (session.read code).2 = .error failure) :
    ∃ before reading, (Scan.ofText code).FailsBehind before failure ∧
      (Reading.start session).feedAll (before.map Token.kind) = some reading ∧
        (session.read code).1 = reading.session := by
  cases fed : (Reading.start session).feedAll ((Scan.ofText code).tokens.map Token.kind) with
  | none =>
    obtain ⟨before, token, after, next, split, earlier, stops⟩ :=
      Reading.exists_of_feedAll_eq_none fed
    rw [Session.read, split, Reading.advance_of_feed_eq_none after earlier stops,
      Reading.ready_of_feed_eq_none stops] at failed ⊢
    obtain rfl := Except.error.inj failed
    exact ⟨before, next, .token split, earlier, rfl⟩
  | some next =>
    rw [Session.read, Reading.advance_of_feedAll fed] at failed ⊢
    cases ending : (Scan.ofText code).ending with
    | illegal rest position =>
      rw [ending] at failed
      obtain rfl := Except.error.inj failed
      exact ⟨_, next, .character ending, fed, rfl⟩
    | finished =>
      rw [ending] at failed
      have early : failure = .unexpectedEnd := by
        rcases Reading.finish_eq_ok_or next.settle with ⟨result, ok⟩ | early
        · cases ok.symm.trans failed
        · exact Except.error.inj (failed.symm.trans early)
      obtain rfl := early
      exact ⟨_, next, .ending ending, fed,
        congrArg Reading.session (Reading.settle_of_finish_eq_error failed)⟩

/-! ### What a text is read as depends on the names -/

/-- Two readings have the same constructs, and in both all names mean the same. -/
structure Reading.Agrees (reading other : Reading) : Prop where
  current : reading.current = other.current
  around : reading.around = other.around
  names : reading.session.names = other.session.names

namespace Reading.Agrees

variable {reading other : Reading}

theorem settle (agrees : reading.Agrees other) : reading.settle.Agrees other.settle := by
  obtain ⟨current, around, names, last⟩ := reading
  obtain ⟨current', around', names', last'⟩ := other
  obtain ⟨rfl, rfl, rfl⟩ := agrees
  cases current <;> exact ⟨rfl, rfl, rfl⟩

theorem put (agrees : reading.Agrees other) (term : Term) :
    Option.Rel Agrees (reading.put term) (other.put term) := by
  rw [Reading.put, Reading.put, agrees.current]
  cases deliver term other.current with
  | none => exact .none
  | some current => exact .some ⟨rfl, agrees.around, agrees.names⟩

theorem close (agrees : reading.Agrees other) (term : Term) :
    Option.Rel Agrees (reading.close term) (other.close term) := by
  rw [Reading.close, Reading.close, agrees.around]
  cases other.around with
  | nil => exact .none
  | cons outer around =>
    simp only
    cases deliver term outer with
    | none => exact .none
    | some current => exact .some ⟨rfl, rfl, agrees.names⟩

/-- A token stops both readings, or it is read in both. -/
theorem step (agrees : reading.Agrees other) (kind : TokenKind) :
    Option.Rel Agrees (reading.step kind) (other.step kind) := by
  obtain ⟨current, around, names, last⟩ := reading
  obtain ⟨current', around', names', last'⟩ := other
  obtain ⟨rfl, rfl, rfl⟩ := agrees
  unfold Reading.step
  simp only
  split
  case h_7 =>
    split
    · exact .some ⟨rfl, rfl, rfl⟩
    · exact .none
  case h_8 | h_18 =>
    apply close
    exact ⟨rfl, rfl, rfl⟩
  case h_21 | h_22 =>
    split
    · apply put
      exact ⟨rfl, rfl, rfl⟩
    · exact .none
  case h_23 => exact .none
  all_goals exact .some ⟨rfl, rfl, rfl⟩

/-- Both readings stop at the same token, or at the end. -/
theorem advance (agrees : reading.Agrees other) (tokens : List Token) :
    (reading.advance tokens).1.Agrees (other.advance tokens).1 ∧
      (reading.advance tokens).2 = (other.advance tokens).2 := by
  induction tokens generalizing reading other with
  | nil => exact ⟨agrees, rfl⟩
  | cons token rest hypothesis =>
    rw [Reading.advance, Reading.advance]
    have ready : (if startsTerm token.kind then reading.settle else reading).Agrees
        (if startsTerm token.kind then other.settle else other) := by
      split
      · exact agrees.settle
      · exact agrees
    generalize (if startsTerm token.kind then reading.settle else reading) = left at ready ⊢
    generalize (if startsTerm token.kind then other.settle else other) = right at ready ⊢
    have stepped := ready.step token.kind
    generalize left.step token.kind = next at stepped ⊢
    generalize right.step token.kind = next' at stepped ⊢
    cases stepped with
    | none => exact ⟨ready, rfl⟩
    | some agree => exact hypothesis agree

theorem finish (agrees : reading.Agrees other) : reading.finish = other.finish := by
  rw [Reading.finish, Reading.finish, agrees.current]

end Reading.Agrees

/-- Sessions in which all names mean the same read a text as the same term or fail in the same
way. -/
theorem Session.read_of_names_eq {session other : Session} (names : session.names = other.names)
    (code : String) : (session.read code).2 = (other.read code).2 := by
  have started : (Reading.start session).Agrees (Reading.start other) := ⟨rfl, rfl, names⟩
  obtain ⟨agrees, stopped⟩ := started.advance (Scan.ofText code).tokens
  rw [Session.read, Session.read]
  generalize (Reading.start session).advance (Scan.ofText code).tokens = left at agrees stopped
  generalize (Reading.start other).advance (Scan.ofText code).tokens = right at agrees stopped
  obtain ⟨reading, token⟩ := left
  obtain ⟨reading', token'⟩ := right
  obtain rfl : token = token' := stopped
  cases token with
  | some token => rfl
  | none =>
    cases (Scan.ofText code).ending with
    | illegal rest position => rfl
    | finished => exact agrees.settle.finish

/-! ### What stays of a text -/

/-- Why a text is not read, if it is not. -/
def Session.failure? (session : Session) (code : String) : Option Failure :=
  match (session.read code).2 with
  | .ok _ => none
  | .error failure => some failure

theorem Session.read_of_failure? {session : Session} {code : String} {failure : Failure}
    (found : session.failure? code = some failure) : (session.read code).2 = .error failure := by
  unfold Session.failure? at found
  split at found
  · cases found
  · rename_i other failed
    rw [failed, Option.some.inj found]

/-- A text that cannot be read leaves the session of the definitions in front of the failure that a
token follows there, each read in the session that those before it leave, and of no others. How the
next text is read then depends on the names only, not on the failure. -/
theorem Session.read_interrupted {session : Session} {code : String} {failure : Failure}
    (failed : (session.read code).2 = .error failure) :
    ∃ before definitions rest, (Scan.ofText code).FailsBehind before failure ∧
      before.map Token.kind = definitionsTokens definitions ++ rest ∧ Takes definitions rest ∧
      (∀ others otherRest, before.map Token.kind = definitionsTokens others ++ otherRest →
        Takes others otherRest → others = definitions) ∧
      (session.read code).1 = session.defineAll definitions ∧
      ∀ next, ((session.read code).1.read next).2 =
        (Session.read ⟨(session.read code).1.names, none⟩ next).2 := by
  obtain ⟨before, reading, behind, fed, left⟩ := exists_failsBehind failed
  obtain ⟨definitions, rest, same, takes, known⟩ := Reading.exists_takes_of_feedAll fed
  refine ⟨before, definitions, rest, behind, same, takes, ?_, left.trans known, fun next => ?_⟩
  · intro others otherRest otherSame otherTakes
    exact otherTakes.unique takes (otherSame.symm.trans same)
  · apply read_of_names_eq
    rfl

/-- A name that is defined twice, the second time by itself, and a parenthesis too much. -/
theorem Session.read_interrupted_by_closing :
    let session := (Session.arithmetic.read "(define SUM (+ 1)) (define SUM (SUM 2)) SUM)").1
    (∃ before definitions rest,
      (Scan.ofText "(define SUM (+ 1)) (define SUM (SUM 2)) SUM)").FailsBehind before
        (.unexpectedToken "')'" 43) ∧
      before.map Token.kind = definitionsTokens definitions ++ rest ∧ Takes definitions rest ∧
      (∀ others otherRest, before.map Token.kind = definitionsTokens others ++ otherRest →
        Takes others otherRest → others = definitions) ∧
      session = Session.arithmetic.defineAll definitions ∧
      ∀ next, (session.read next).2 = (Session.read ⟨session.names, none⟩ next).2) ∧
    session.printed "SUM" = some "((+(__x__-2,__x__-1) 1.0) 2.0)" ∧
      session.names.keys = ["+", "-", "*", "/", "SUM"] :=
  ⟨read_interrupted (read_of_failure? (by decide +kernel)), by decide +kernel, by decide +kernel⟩

/-- A definition that nothing but a failure follows does not take effect, although all of it is in
front of the failure. -/
theorem Session.read_interrupted_behind_definition :
    let code := "(define PLUS +) $"
    let definitions := [("PLUS", TermTree.occurrence "+")]
    (Scan.ofText code).FailsBehind (Scan.ofText code).tokens (.illegalCharacter "$" 16) ∧
      (Scan.ofText code).tokens.map Token.kind = definitionsTokens definitions ∧
      (Session.arithmetic.read code).2 = .error (.illegalCharacter "$" 16) ∧
      ((Session.arithmetic.defineAll definitions).names.get? "PLUS").isSome = true ∧
      ((Session.arithmetic.read code).1.names.get? "PLUS").isSome = false :=
  ⟨.character (by with_unfolding_all rfl), by with_unfolding_all rfl,
    read_of_failure? (by decide +kernel), by decide +kernel, by decide +kernel⟩

end WordArithmetic
