/-
This file follows the session while a text is read.

A definition takes effect with the token behind it, and nothing else changes the session. So after
any number of tokens the session is the one that some definitions at the front of them make, each
read in the session that those before it leave: all definitions that are complete and that a token
follows (`Takes`). That the reader has just closed a definition is a matter of the tokens alone, and
then only a token that can start a term is read.
-/

import Mathlib.Data.List.Induction
import WordArithmetic.Proofs.Lambda.Viability

namespace WordArithmetic

/-! ### Definitions one after the other -/

/-- Takes definitions into effect, each of them read in the session that those before it leave. -/
def Session.defineAll (session : Session) (definitions : List (String × TermTree)) : Session :=
  definitions.foldl (fun session (name, value) => session.define name (value.term session)) session

/-- Arrows associate to the right in all definitions. -/
def AreRightAssociative (definitions : List (String × TermTree)) : Prop :=
  ∀ definition ∈ definitions, definition.2.IsRightAssociative

/-- Definitions can be regrouped so that arrows associate to the right in them. -/
theorem exists_areRightAssociative (definitions : List (String × TermTree)) :
    ∃ regrouped, AreRightAssociative regrouped ∧
      definitionsTokens regrouped = definitionsTokens definitions ∧
        (definitions ≠ [] → regrouped ≠ []) := by
  refine ⟨definitions.map fun (name, value) => (name, value.regroup), ?_, ?_, ?_⟩
  · exact List.forall_mem_map.2 fun definition _ => definition.2.isRightAssociative_regroup
  · rw [definitionsTokens, List.flatMap_map]
    exact List.flatMap_congr fun definition _ =>
      congrArg (definitionTokens definition.1) definition.2.tokens_regroup
  · exact fun some none => some (List.map_eq_nil_iff.1 none)

theorem definitionsTokens_cons (name : String) (value : TermTree)
    (rest : List (String × TermTree)) :
    definitionsTokens ((name, value) :: rest) =
      definitionTokens name value.tokens ++ definitionsTokens rest :=
  List.flatMap_cons

theorem beginsTerm_definitionsTokens (name : String) (value : TermTree)
    (rest : List (String × TermTree)) : BeginsTerm (definitionsTokens ((name, value) :: rest)) :=
  ⟨.opening, _, rfl, rfl⟩

namespace Reading

/-! ### The session and a step -/

theorem session_put {reading next : Reading} {term : Term} (taken : reading.put term = some next) :
    next.session = reading.session := by
  obtain ⟨current, -, rfl⟩ := Option.map_eq_some_iff.1 taken
  rfl

theorem session_close {reading next : Reading} {term : Term}
    (closed : reading.close term = some next) : next.session = reading.session := by
  unfold close at closed
  split at closed
  · obtain ⟨current, -, rfl⟩ := Option.map_eq_some_iff.1 closed
    rfl
  · cases closed

/-- A step itself does not change what names mean. -/
theorem session_step {reading next : Reading} {kind : TokenKind}
    (stepped : reading.step kind = some next) : next.session = reading.session := by
  unfold step at stepped
  split at stepped
  case h_7 =>
    split at stepped
    · obtain rfl := Option.some.inj stepped
      rfl
    · cases stepped
  case h_8 | h_18 => exact session_close stepped
  case h_21 | h_22 =>
    split at stepped
    · exact session_put stepped
    · cases stepped
  case h_23 => cases stepped
  all_goals
    obtain rfl := Option.some.inj stepped
    rfl

/-! ### A definition that was just closed -/

/-- Whether a definition was just closed. -/
def isClosed (reading : Reading) : Bool :=
  match reading.current with
  | .definitionClosed _ _ => true
  | _ => false

section Closed

variable {reading next : Reading} {session : Session} {kinds : List TokenKind}

theorem settle_of_not_isClosed (open_ : reading.isClosed = false) : reading.settle = reading := by
  obtain ⟨current, around, session⟩ := reading
  cases current with
  | definitionClosed name term => cases open_
  | _ => rfl

/-- Behind a definition only what can start a term is read. -/
theorem startsTerm_of_isClosed {kind : TokenKind} (closed : reading.isClosed = true)
    (fed : reading.feed kind = some next) : startsTerm kind = true := by
  obtain ⟨current, around, session⟩ := reading
  cases current with
  | definitionClosed name term => cases kind <;> first | rfl | cases fed
  | _ => cases closed

/-- Behind a definition everything is read that can start a term. -/
theorem feed_ne_none_of_isClosed {kind : TokenKind} (closed : reading.isClosed = true)
    (starts : startsTerm kind = true) : reading.feed kind ≠ none := by
  obtain ⟨current, around, session⟩ := reading
  cases current with
  | definitionClosed name term => cases kind <;> first | exact Option.some_ne_none _ | cases starts
  | _ => cases closed

/-- A token that stops the reader takes no definition into effect. -/
theorem ready_of_feed_eq_none {kind : TokenKind} (stops : reading.feed kind = none) :
    (if startsTerm kind then reading.settle else reading) = reading := by
  split
  · rename_i starts
    cases closed : reading.isClosed with
    | true => exact absurd stops (feed_ne_none_of_isClosed closed starts)
    | false => exact settle_of_not_isClosed closed
  · rfl

/-- The end of a text that comes too early takes no definition into effect. -/
theorem settle_of_finish_eq_error {failure : Failure}
    (failed : reading.settle.finish = .error failure) : reading.settle = reading := by
  obtain ⟨current, around, session⟩ := reading
  cases current with
  | definitionClosed name term => cases failed
  | _ => rfl

/-- Definitions are read, and the last one of them takes effect next. -/
theorem exists_feedAll_definitions {definitions : List (String × TermTree)}
    (right : AreRightAssociative definitions) (present : definitions ≠ []) (defined : Bool)
    (session : Session) :
    ∃ closed,
      feedAll ⟨.program defined, [], session⟩ (definitionsTokens definitions) = some closed ∧
        closed.isClosed = true ∧
          closed.settle = ⟨.program true, [], session.defineAll definitions⟩ := by
  induction definitions generalizing defined session with
  | nil => exact absurd rfl present
  | cons first rest hypothesis =>
    obtain ⟨name, value⟩ := first
    obtain ⟨valueRight, restRight⟩ := List.forall_mem_cons.1 right
    rw [definitionsTokens_cons, feedAll_definition valueRight]
    cases rest with
    | nil => exact ⟨_, rfl, rfl, rfl⟩
    | cons second others =>
      rw [← feedAll_settle (beginsTerm_definitionsTokens second.1 second.2 others)]
      exact hypothesis restRight (List.cons_ne_nil _ _) true
        (session.define name (value.term session))

/-- When a definition was just closed, what has been read are definitions. -/
theorem exists_definitions_of_isClosed (fed : (start session).feedAll kinds = some reading)
    (closed : reading.isClosed = true) :
    ∃ definitions, AreRightAssociative definitions ∧ definitions ≠ [] ∧
      kinds = definitionsTokens definitions := by
  have read := (hasRead_start session).feedAll fed
  obtain ⟨current, around, known⟩ := reading
  cases current with
  | definitionClosed name term =>
    cases read with
    | cons outside nests spells =>
      obtain ⟨definitions, present, rfl⟩ := spells
      obtain rfl := nests
      cases outside
      obtain ⟨regrouped, right, same, some⟩ := exists_areRightAssociative definitions
      exact ⟨regrouped, right, some present, same.symm⟩
  | _ => cases closed

/-- When definitions have been read, the last one was just closed, and takes effect next. -/
theorem settle_of_feedAll_definitions {definitions : List (String × TermTree)}
    (right : AreRightAssociative definitions) (present : definitions ≠ [])
    (fed : (start session).feedAll (definitionsTokens definitions) = some reading) :
    reading.isClosed = true ∧
      reading.settle = ⟨.program true, [], session.defineAll definitions⟩ := by
  obtain ⟨closed, all, isClosed, settles⟩ := exists_feedAll_definitions right present false session
  obtain rfl := Option.some.inj (fed.symm.trans all)
  exact ⟨isClosed, settles⟩

end Closed

end Reading

/-! ### The definitions that take effect -/

/-- Of tokens that definitions begin and that go on with others, these definitions take effect and
no more: a token follows the last one, and the others do not begin with a definition that a token
follows. -/
structure Takes (definitions : List (String × TermTree)) (rest : List TokenKind) : Prop where
  right : AreRightAssociative definitions
  followed : definitions ≠ [] → rest ≠ []
  last : ∀ (name : String) (value : TermTree) (next : TokenKind) (more : List TokenKind),
    rest ≠ definitionTokens name value.tokens ++ next :: more

namespace Takes

variable {definitions others : List (String × TermTree)} {rest otherRest : List TokenKind}

theorem nil : Takes [] [] where
  right := List.forall_mem_nil _
  followed := fun some => absurd rfl some
  last := nofun

/-- Definitions take effect with one more token. -/
theorem of_definitions (right : AreRightAssociative definitions) (kind : TokenKind) :
    Takes definitions [kind] where
  right := right
  followed := fun _ => List.cons_ne_nil _ _
  last := nofun

/-- One more token changes nothing if what has been read does not end with a definition. -/
theorem append (takes : Takes definitions rest) (kind : TokenKind)
    (unfinished : ∀ (name : String) (value : TermTree),
      rest ≠ definitionTokens name value.tokens) : Takes definitions (rest ++ [kind]) where
  right := takes.right
  followed := fun _ => List.append_ne_nil_of_right_ne_nil _ (List.cons_ne_nil _ _)
  last := by
    intro name value next more same
    rcases List.eq_nil_or_concat more with rfl | ⟨before, final, rfl⟩
    · exact unfinished name value (List.append_inj' same rfl).1
    · rw [List.concat_eq_append, ← List.cons_append, ← List.append_assoc] at same
      exact takes.last name value next before (List.append_inj' same rfl).1

theorem tail {definition : String × TermTree} (takes : Takes (definition :: definitions) rest) :
    Takes definitions rest where
  right := (List.forall_mem_cons.1 takes.right).2
  followed := fun _ => takes.followed (List.cons_ne_nil _ _)
  last := takes.last

/-- Tokens that go on behind definitions take at least the first one into effect. -/
theorem not_nil {definition : String × TermTree} (takes : Takes (definition :: others) otherRest)
    (none : Takes [] rest) : rest ≠ definitionsTokens (definition :: others) ++ otherRest := by
  intro same
  obtain ⟨next, more, following⟩ : ∃ next more,
      definitionsTokens others ++ otherRest = next :: more :=
    List.exists_cons_of_ne_nil
      (List.append_ne_nil_of_right_ne_nil _ (takes.followed (List.cons_ne_nil _ _)))
  refine none.last definition.1 definition.2 next more ?_
  rw [same, definitionsTokens_cons, List.append_assoc, following]

/-- Tokens decide which definitions take effect. -/
theorem unique (takes : Takes definitions rest) (other : Takes others otherRest)
    (same : definitionsTokens definitions ++ rest = definitionsTokens others ++ otherRest) :
    definitions = others := by
  induction definitions generalizing others with
  | nil =>
    cases others with
    | nil => rfl
    | cons second more => exact absurd same (other.not_nil takes)
  | cons first later hypothesis =>
    cases others with
    | nil => exact absurd same.symm (takes.not_nil other)
    | cons second more =>
      rw [definitionsTokens_cons, definitionsTokens_cons, List.append_assoc,
        List.append_assoc] at same
      obtain ⟨names, values, rests⟩ := definitionTokens_inj
        (List.forall_mem_cons.1 takes.right).1 (List.forall_mem_cons.1 other.right).1 same
      rw [Prod.ext names values, hypothesis takes.tail other.tail rests]

end Takes

namespace Reading

/-- The session while tokens are read is the one after the definitions that take effect. -/
theorem exists_takes_of_feedAll {session : Session} {kinds : List TokenKind} {reading : Reading}
    (fed : (start session).feedAll kinds = some reading) :
    ∃ definitions rest, kinds = definitionsTokens definitions ++ rest ∧ Takes definitions rest ∧
      reading.session = session.defineAll definitions := by
  induction kinds using List.reverseRecOn generalizing reading with
  | nil =>
    obtain rfl := Option.some.inj fed
    exact ⟨[], [], rfl, .nil, rfl⟩
  | append_singleton kinds kind hypothesis =>
    rw [feedAll_append, Option.bind_eq_some_iff] at fed
    obtain ⟨between, earlier, last⟩ := fed
    rw [feedAll_singleton] at last
    have stepped := last
    rw [feed] at stepped
    cases closed : between.isClosed with
    | true =>
      -- what has been read are definitions, and this token takes the last one into effect
      obtain ⟨definitions, right, present, rfl⟩ := exists_definitions_of_isClosed earlier closed
      obtain ⟨-, settled⟩ := settle_of_feedAll_definitions right present earlier
      rw [if_pos (startsTerm_of_isClosed closed last), settled] at stepped
      exact ⟨definitions, [kind], rfl, .of_definitions right kind, session_step stepped⟩
    | false =>
      obtain ⟨definitions, rest, rfl, takes, same⟩ := hypothesis earlier
      rw [settle_of_not_isClosed closed, ite_self] at stepped
      refine ⟨definitions, rest ++ [kind], List.append_assoc .., takes.append kind ?_,
        (session_step stepped).trans same⟩
      rintro name value rfl
      obtain ⟨all, right, whole, some⟩ :=
        exists_areRightAssociative (definitions ++ [(name, value)])
      rw [← definitionsTokens_append, ← whole] at earlier
      have wasClosed := (settle_of_feedAll_definitions right (some (by simp)) earlier).1
      rw [closed] at wasClosed
      cases wasClosed

/-- The same holds when a definition that was just closed has taken effect. -/
theorem exists_definitions_of_feedAll {session : Session} {kinds : List TokenKind}
    {reading : Reading} (fed : (start session).feedAll kinds = some reading) :
    ∃ definitions, definitionsTokens definitions <+: kinds ∧
      reading.settle.session = session.defineAll definitions := by
  cases closed : reading.isClosed with
  | true =>
    obtain ⟨definitions, right, present, rfl⟩ := exists_definitions_of_isClosed fed closed
    obtain ⟨-, settled⟩ := settle_of_feedAll_definitions right present fed
    exact ⟨definitions, List.prefix_rfl, congrArg Reading.session settled⟩
  | false =>
    obtain ⟨definitions, rest, rfl, -, same⟩ := exists_takes_of_feedAll fed
    rw [settle_of_not_isClosed closed]
    exact ⟨definitions, List.prefix_append _ _, same⟩

end Reading

/-- Reading a text to its end or not, a session becomes the one after some definitions that its
tokens begin with. -/
theorem Session.exists_definitions_of_read (session : Session) (code : String) :
    ∃ definitions,
      definitionsTokens definitions <+: (Scan.ofText code).tokens.map Token.kind ∧
        (session.read code).1 = session.defineAll definitions := by
  cases fed : (Reading.start session).feedAll ((Scan.ofText code).tokens.map Token.kind) with
  | none =>
    obtain ⟨before, token, after, next, split, earlier, stops⟩ :=
      Reading.exists_of_feedAll_eq_none fed
    obtain ⟨definitions, rest, same, -, known⟩ := Reading.exists_takes_of_feedAll earlier
    refine ⟨definitions, ?_, ?_⟩
    · rw [split, List.map_append, same, List.append_assoc]
      exact List.prefix_append _ _
    · rw [Session.read, split, Reading.advance_of_feed_eq_none after earlier stops,
        Reading.ready_of_feed_eq_none stops]
      exact known
  | some next =>
    rw [Session.read, Reading.advance_of_feedAll fed]
    cases (Scan.ofText code).ending with
    | illegal rest position =>
      obtain ⟨definitions, rest, same, -, known⟩ := Reading.exists_takes_of_feedAll fed
      exact ⟨definitions, same ▸ List.prefix_append _ _, known⟩
    | finished => exact Reading.exists_definitions_of_feedAll fed

end WordArithmetic
