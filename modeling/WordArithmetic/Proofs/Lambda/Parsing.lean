/-
This file shows that the reader reads what the grammar derives.

The reader takes one token after the other. From a construct that waits for a term it reads the
tokens of a derivation and then goes on with its term, by induction on the derivation; types and
lists of parameters are read likewise. So every program of the grammar is read, with the session and
the term that its derivation has.
-/

import WordArithmetic.Proofs.Lambda.Grammar

namespace WordArithmetic

namespace Reading

/-! ### One token after the other -/

/-- Reads a token, after a definition has taken effect that the token ends. -/
def feed (reading : Reading) (kind : TokenKind) : Option Reading :=
  (if startsTerm kind then reading.settle else reading).step kind

/-- Reads tokens, unless no program goes on with one of them. -/
def feedAll (reading : Reading) (kinds : List TokenKind) : Option Reading :=
  kinds.foldlM feed reading

section Feed

variable {reading next after : Reading} {kind : TokenKind} {kinds more : List TokenKind}

theorem feedAll_cons (reading : Reading) (kind : TokenKind) (kinds : List TokenKind) :
    reading.feedAll (kind :: kinds) = (reading.feed kind).bind fun next => next.feedAll kinds :=
  List.foldlM_cons

theorem feedAll_singleton (reading : Reading) (kind : TokenKind) :
    reading.feedAll [kind] = reading.feed kind := by
  rw [feedAll_cons]
  exact Option.bind_fun_some _

theorem feedAll_append (reading : Reading) (kinds more : List TokenKind) :
    reading.feedAll (kinds ++ more) =
      (reading.feedAll kinds).bind fun next => next.feedAll more :=
  List.foldlM_append

theorem feedAll_cons_of_eq (first : reading.feed kind = some next) :
    reading.feedAll (kind :: kinds) = next.feedAll kinds := by
  rw [feedAll_cons, first, Option.bind_some]

theorem feedAll_append_of_eq (first : reading.feedAll kinds = some next) :
    reading.feedAll (kinds ++ more) = next.feedAll more := by
  rw [feedAll_append, first, Option.bind_some]

/-- A reader that comes to the end of tokens has read each of them. -/
theorem advance_of_feedAll {tokens : List Token}
    (fed : reading.feedAll (tokens.map Token.kind) = some next) :
    reading.advance tokens = (next, none) := by
  induction tokens generalizing reading with
  | nil => rw [advance, Option.some.inj fed]
  | cons token rest hypothesis =>
    rw [List.map_cons, feedAll_cons, Option.bind_eq_some_iff] at fed
    obtain ⟨between, first, later⟩ := fed
    rw [feed] at first
    rw [advance]
    simp only [first]
    exact hypothesis later

/-- A reader that reads the tokens before another one, but not that one, stops there. -/
theorem advance_of_feed_eq_none {before : List Token} {token : Token} (after : List Token)
    (fed : reading.feedAll (before.map Token.kind) = some next)
    (stops : next.feed token.kind = none) :
    reading.advance (before ++ token :: after) =
      (if startsTerm token.kind then next.settle else next, some token) := by
  induction before generalizing reading with
  | nil =>
    obtain rfl := Option.some.inj fed
    rw [feed] at stops
    rw [List.nil_append, advance]
    simp only [stops]
  | cons first rest hypothesis =>
    rw [List.map_cons, feedAll_cons, Option.bind_eq_some_iff] at fed
    obtain ⟨between, here, later⟩ := fed
    rw [feed] at here
    rw [List.cons_append, advance]
    simp only [here]
    exact hypothesis later

theorem settle_settle (reading : Reading) : reading.settle.settle = reading.settle := by
  obtain ⟨current, around, session⟩ := reading
  cases current <;> rfl

/-- Before a token that starts a term a definition has taken effect. -/
theorem feedAll_settle (begins : BeginsTerm kinds) :
    reading.settle.feedAll kinds = reading.feedAll kinds := by
  obtain ⟨first, rest, rfl, starts⟩ := begins
  rw [feedAll_cons, feedAll_cons, feed, feed, if_pos starts, if_pos starts, settle_settle]

end Feed

/-! ### Types -/

section Types

variable (known : List Parameter) (around : List Construct) (session : Session)

/-- The tokens of a type are read to its last operand. Joined by arrows, the operands are the parts
of the type. -/
theorem feedAll_type {type : TypeTree} (right : type.IsRightAssociative) (name : String)
    (inner : List (List Symbol)) (outer : List (List (List Symbol))) :
    ∃ operands last, feedAll ⟨.operand known name inner outer, around, session⟩ type.tokens =
        some ⟨.typed known name operands outer last, around, session⟩ ∧
      joinArrows last operands = joinArrows type.parts inner ∧
        (type.isArrow = false → operands = inner ∧ last = type.parts) := by
  induction type generalizing inner outer with
  | atom atom => exact ⟨inner, [.name atom], rfl, rfl, fun _ => ⟨rfl, rfl⟩⟩
  | brackets inside hypothesis =>
    obtain ⟨operands, last, fed, joined, -⟩ := hypothesis right [] (inner :: outer)
    refine ⟨inner, joinArrows last operands, ?_, congrArg (joinArrows · inner) joined,
      fun _ => ⟨rfl, joined⟩⟩
    exact (feedAll_cons_of_eq rfl).trans (feedAll_append_of_eq fed)
  | arrow argument result argumentHypothesis resultHypothesis =>
    obtain ⟨operand, argumentRight, resultRight⟩ := right
    obtain ⟨before, last, argumentFed, -, whole⟩ := argumentHypothesis argumentRight inner outer
    obtain ⟨sameBefore, sameLast⟩ := whole operand
    rw [sameBefore, sameLast] at argumentFed
    obtain ⟨operands, last, resultFed, joined, -⟩ :=
      resultHypothesis resultRight (argument.parts :: inner) outer
    refine ⟨operands, last, ?_, joined, nofun⟩
    exact (feedAll_append_of_eq argumentFed).trans ((feedAll_cons_of_eq rfl).trans resultFed)

end Types

/-! ### Parameters -/

end Reading

/-- The parameters of a list, each with the parts of its type. -/
def ParametersTree.known : ParametersTree → List Parameter
  | .one name type => [(name, type.parts)]
  | .more name type rest => (name, type.parts) :: rest.known

theorem ParametersTree.abstractAll_known (parameters : ParametersTree) (body : Term) :
    Reading.abstractAll parameters.known body = parameters.abstract body := by
  induction parameters with
  | one name type => rfl
  | more name type rest hypothesis =>
    exact congrArg (Term.abstract name (.tuple type.parts)) hypothesis

namespace Reading

variable {around : List Construct} {session : Session}

/-- The tokens of parameters are read up to the parenthesis behind them, wherever the name of a
parameter may come next. -/
theorem feedAll_parameters {parameters : ParametersTree} (right : parameters.IsRightAssociative)
    {reading : Reading} {known : List Parameter} (more : List TokenKind)
    (ready : ∀ name, reading.feed (.identifier name) =
      some ⟨.parameter known name, around, session⟩) :
    reading.feedAll (parameters.tokens ++ .closing :: more) =
      feedAll ⟨.body (known ++ parameters.known), around, session⟩ more := by
  induction parameters generalizing reading known with
  | one name type =>
    obtain ⟨operands, last, fed, joined, -⟩ :=
      feedAll_type known around session right name [] []
    have parts : joinArrows last operands = type.parts := joined
    refine (feedAll_cons_of_eq (ready name)).trans ((feedAll_cons_of_eq rfl).trans
      ((feedAll_append_of_eq fed).trans (feedAll_cons_of_eq ?_)))
    rw [ParametersTree.known, ← parts]
    rfl
  | more name type rest hypothesis =>
    obtain ⟨operands, last, fed, joined, -⟩ :=
      feedAll_type known around session right.1 name [] []
    have parts : joinArrows last operands = type.parts := joined
    have next : ∀ other, feed ⟨.typed known name operands [] last, around, session⟩
        (.identifier other) =
          some ⟨.parameter (known ++ [(name, type.parts)]) other, around, session⟩ := by
      intro other
      rw [← parts]
      rfl
    rw [ParametersTree.tokens, List.append_assoc]
    refine (feedAll_cons_of_eq (ready name)).trans ((feedAll_cons_of_eq rfl).trans
      ((feedAll_append_of_eq fed).trans ((hypothesis right.2 next).trans ?_)))
    rw [List.append_assoc, List.singleton_append, ParametersTree.known]

/-! ### Terms -/

section Terms

variable {reading : Reading}

theorem settle_of_waitsForTerm (waits : waitsForTerm reading.current = true) :
    reading.settle = reading := by
  obtain ⟨current, around, session⟩ := reading
  cases current <;> first | rfl | cases waits

theorem feed_opening (waits : waitsForTerm reading.current = true) :
    reading.feed .opening = some ⟨.opened, reading.current :: reading.around, reading.session⟩ := by
  rw [feed, if_pos (by rfl), settle_of_waitsForTerm waits]
  obtain ⟨current, around, session⟩ := reading
  cases current <;> first | rfl | cases waits

theorem feed_identifier (waits : waitsForTerm reading.current = true) (name : String) :
    reading.feed (.identifier name) = reading.put (reading.session.resolve name) := by
  rw [feed, if_pos (by rfl), settle_of_waitsForTerm waits]
  obtain ⟨current, around, session⟩ := reading
  cases current <;> first | rfl | cases waits

theorem feed_number (waits : waitsForTerm reading.current = true) (value : Float) :
    reading.feed (.number value) = reading.put (.number value) := by
  rw [feed, if_pos (by rfl), settle_of_waitsForTerm waits]
  obtain ⟨current, around, session⟩ := reading
  cases current <;> rfl

/-- The parenthesis that closes a list of terms puts its term into the construct around it. -/
theorem feed_closing_terms (function : Term) (outer : Construct) (around : List Construct)
    (session : Session) :
    feed ⟨.terms function, outer :: around, session⟩ .closing =
      put ⟨outer, around, session⟩ function := rfl

/-- The parenthesis that closes an abstraction puts it into the construct around it. -/
theorem feed_closing_bodyRead (known : List Parameter) (body : Term) (outer : Construct)
    (around : List Construct) (session : Session) :
    feed ⟨.bodyRead known body, outer :: around, session⟩ .closing =
      put ⟨outer, around, session⟩ (abstractAll known body) := rfl

/-- Where a term is waited for, the tokens of a derivation are read and its term is put in. -/
def Reads (term : TermTree) : Prop :=
  ∀ reading : Reading, waitsForTerm reading.current = true →
    reading.feedAll term.tokens = reading.put (term.term reading.session)

/-- The terms of a list are read behind the parenthesis that opens it. -/
theorem feedAll_terms {terms : TermsTree} (each : ∀ term ∈ terms.list, Reads term)
    (around : List Construct) (session : Session) :
    feedAll ⟨.opened, around, session⟩ terms.tokens =
      some ⟨.terms (terms.term session), around, session⟩ := by
  induction terms with
  | one term => exact each term (List.mem_singleton_self term) _ rfl
  | more before term hypothesis =>
    obtain ⟨earlier, last⟩ := List.forall_mem_append.1 each
    rw [TermsTree.tokens, feedAll_append_of_eq (hypothesis earlier)]
    exact last term (List.mem_singleton_self term) _ rfl

/-- Every term is read. -/
theorem reads (term : TermTree) : term.IsRightAssociative → Reads term := by
  induction term with
  | occurrence name =>
    intro _ reading waits
    rw [TermTree.tokens, feedAll_singleton, feed_identifier waits, TermTree.term]
  | number value =>
    intro _ reading waits
    rw [TermTree.tokens, feedAll_singleton, feed_number waits, TermTree.term]
  | abstraction parameters body hypothesis =>
    rintro ⟨parametersRight, bodyRight⟩ reading waits
    have inside := hypothesis bodyRight
      ⟨.body parameters.known, reading.current :: reading.around, reading.session⟩ rfl
    have opened : ∀ name, feed ⟨.parameters, reading.current :: reading.around, reading.session⟩
        (.identifier name) =
          some ⟨.parameter [] name, reading.current :: reading.around, reading.session⟩ :=
      fun _ => rfl
    rw [TermTree.tokens, List.append_assoc, List.cons_append,
      feedAll_cons_of_eq (feed_opening waits)]
    refine (feedAll_cons_of_eq rfl).trans ((feedAll_cons_of_eq rfl).trans
      ((feedAll_parameters parametersRight _ opened).trans ((feedAll_append_of_eq inside).trans ?_)))
    rw [TermTree.term, ← parameters.abstractAll_known, feedAll_singleton]
    exact feed_closing_bodyRead _ _ _ _ _
  | brackets terms hypothesis =>
    intro right reading waits
    have rights := TermsTree.isRightAssociative_iff.1 right
    have inside := feedAll_terms (fun term member => hypothesis term member (rights term member))
      (reading.current :: reading.around) reading.session
    rw [TermTree.tokens, feedAll_cons_of_eq (feed_opening waits), feedAll_append_of_eq inside,
      TermTree.term, feedAll_singleton]
    exact feed_closing_terms _ _ _ _

end Terms

/-! ### Programs -/

/-- A definition is read where a program begins. -/
theorem feedAll_definition {value : TermTree} (right : value.IsRightAssociative) (name : String)
    (defined : Bool) (session : Session) (more : List TokenKind) :
    feedAll ⟨.program defined, [], session⟩ (definitionTokens name value.tokens ++ more) =
      feedAll ⟨.definitionClosed name (value.term session), [], session⟩ more := by
  have inside := reads value right ⟨.defined name, [.program defined], session⟩ rfl
  rw [definitionTokens, List.append_assoc, List.append_assoc]
  exact (feedAll_cons_of_eq rfl).trans ((feedAll_cons_of_eq rfl).trans ((feedAll_cons_of_eq rfl).trans
    ((feedAll_append_of_eq inside).trans (feedAll_cons_of_eq rfl))))

/-- Every program is read to its end, with the session and the term that its derivation has. -/
theorem exists_feedAll_program {program : ProgramTree} (right : program.IsRightAssociative)
    (defined : Bool) (session : Session) :
    ∃ next, feedAll ⟨.program defined, [], session⟩ program.tokens = some next ∧
      next.settle.session = (program.run session).1 ∧
        next.settle.finish = .ok (program.run session).2 := by
  induction program generalizing defined session with
  | more name value rest hypothesis =>
    obtain ⟨next, fed, found⟩ :=
      hypothesis right.2 true (session.define name (value.term session))
    refine ⟨next, ?_, found⟩
    rw [ProgramTree.tokens, feedAll_definition right.1, ← feedAll_settle rest.beginsTerm]
    exact fed
  | last term => exact ⟨_, reads term right _ rfl, rfl, rfl⟩
  | definition name value =>
    have fed := feedAll_definition right name defined session []
    rw [List.append_nil] at fed
    exact ⟨_, fed, rfl, rfl⟩

/-- Every program is read from the beginning. -/
theorem exists_feedAll_start {program : ProgramTree} (right : program.IsRightAssociative)
    (session : Session) :
    ∃ next, (start session).feedAll program.tokens = some next ∧
      next.settle.session = (program.run session).1 ∧
        next.settle.finish = .ok (program.run session).2 :=
  exists_feedAll_program right false session

end Reading

end WordArithmetic
