/-
This file shows that the reader stops at the first token with which no program goes on.

The constructs that are open spell tokens: each one is the beginning of a phrase of the grammar, and
together they spell all tokens that have been read. One step of the reader keeps this. Every such
beginning can be completed to a program, so the reader never goes on in vain; and when nothing is
open any more, what has been read is a program.
-/

import WordArithmetic.Proofs.Lambda.Parsing

namespace WordArithmetic

/-! ### Beginnings of types -/

/-- The tokens before an operand of a type, inside of so many brackets that are still open. -/
inductive OpensType : Nat → List TokenKind → Prop
  | start : OpensType 0 []
  | arrow {depth : Nat} {kinds : List TokenKind} (opens : OpensType depth kinds)
      (argument : TypeTree) : OpensType depth (kinds ++ argument.tokens ++ [.arrow])
  | opening {depth : Nat} {kinds : List TokenKind} (opens : OpensType depth kinds) :
      OpensType (depth + 1) (kinds ++ [.opening])

namespace OpensType

variable {depth : Nat} {kinds : List TokenKind}

/-- A last operand completes a type outside of all brackets. -/
theorem exists_type (opens : OpensType 0 kinds) (last : TypeTree) :
    ∃ type : TypeTree, type.tokens = kinds ++ last.tokens := by
  generalize outermost : 0 = depth at opens
  induction opens generalizing last with
  | start => exact ⟨last, rfl⟩
  | @arrow depth kinds _ argument hypothesis =>
    obtain ⟨type, same⟩ := hypothesis (.arrow argument last) outermost
    refine ⟨type, ?_⟩
    simp only [same, TypeTree.tokens, List.append_assoc, List.singleton_append]
  | opening _ _ => cases outermost

/-- A last operand and the bracket behind it are an operand outside of that bracket. -/
theorem exists_operand (opens : OpensType (depth + 1) kinds) (last : TypeTree) :
    ∃ before, OpensType depth before ∧
      ∃ operand : TypeTree, before ++ operand.tokens = kinds ++ last.tokens ++ [.closing] := by
  generalize inside : depth + 1 = inner at opens
  induction opens generalizing last with
  | start => cases inside
  | @arrow inner kinds _ argument hypothesis =>
    obtain ⟨before, opens, operand, same⟩ := hypothesis (.arrow argument last) inside
    refine ⟨before, opens, operand, ?_⟩
    simp only [same, TypeTree.tokens, List.append_assoc, List.cons_append, List.nil_append]
  | @opening inner kinds opens _ =>
    obtain rfl := Nat.succ.inj inside
    refine ⟨kinds, opens, .brackets last, ?_⟩
    simp only [TypeTree.tokens, List.append_assoc, List.singleton_append]
    rfl

/-- Every operand can be followed by what completes a type. -/
theorem exists_prefix (opens : OpensType depth kinds) (last : TypeTree) :
    ∃ type : TypeTree, kinds ++ last.tokens <+: type.tokens := by
  induction depth generalizing kinds last with
  | zero =>
    obtain ⟨type, same⟩ := opens.exists_type last
    exact ⟨type, same ▸ List.prefix_rfl⟩
  | succ depth hypothesis =>
    obtain ⟨before, outside, operand, closed⟩ := opens.exists_operand last
    obtain ⟨type, begins⟩ := hypothesis outside operand
    exact ⟨type, (List.prefix_append _ [.closing]).trans (closed ▸ begins)⟩

end OpensType

/-! ### Lists of parameters and definitions -/

/-- The tokens of an abstraction up to a parameter. -/
def headingTokens (before : List (String × TypeTree)) : List TokenKind :=
  [.opening, .lambda, .opening] ++ before.flatMap fun (name, type) => parameterTokens name type

theorem headingTokens_append (before : List (String × TypeTree)) (name : String)
    (type : TypeTree) :
    headingTokens (before ++ [(name, type)]) =
      headingTokens before ++ parameterTokens name type := by
  rw [headingTokens, List.flatMap_append, List.flatMap_singleton, ← List.append_assoc]
  rfl

/-- Parameters before another one make up a list with it. -/
theorem exists_parameters (before : List (String × TypeTree)) (name : String) (type : TypeTree) :
    ∃ parameters : ParametersTree, headingTokens before ++ parameterTokens name type =
      [.opening, .lambda, .opening] ++ parameters.tokens := by
  have listed : ∃ parameters : ParametersTree, parameters.tokens =
      (before.flatMap fun (name, type) => parameterTokens name type) ++
        parameterTokens name type := by
    induction before with
    | nil => exact ⟨.one name type, rfl⟩
    | cons first rest hypothesis =>
      obtain ⟨parameters, same⟩ := hypothesis
      exact ⟨.more first.1 first.2 parameters, by
        rw [ParametersTree.tokens, same, List.flatMap_cons, List.append_assoc]⟩
  obtain ⟨parameters, same⟩ := listed
  exact ⟨parameters, by rw [same, headingTokens, List.append_assoc]⟩

/-- The tokens of definitions. -/
def definitionsTokens (definitions : List (String × TermTree)) : List TokenKind :=
  definitions.flatMap fun (name, value) => definitionTokens name value.tokens

theorem definitionsTokens_append (definitions : List (String × TermTree)) (name : String)
    (value : TermTree) :
    definitionsTokens (definitions ++ [(name, value)]) =
      definitionsTokens definitions ++ definitionTokens name value.tokens := by
  rw [definitionsTokens, List.flatMap_append, List.flatMap_singleton]
  rfl

namespace ProgramTree

/-- Definitions and a program behind them are a program. -/
theorem exists_of_definitions (definitions : List (String × TermTree)) (rest : ProgramTree) :
    ∃ program : ProgramTree, program.tokens = definitionsTokens definitions ++ rest.tokens := by
  induction definitions with
  | nil => exact ⟨rest, rfl⟩
  | cons first _ hypothesis =>
    obtain ⟨program, same⟩ := hypothesis
    refine ⟨.more first.1 first.2 program, ?_⟩
    simp only [tokens, same, definitionsTokens, List.flatMap_cons, List.append_assoc]

/-- Definitions are a program unless there is none. -/
theorem exists_of_ne_nil {definitions : List (String × TermTree)} (some : definitions ≠ []) :
    ∃ program : ProgramTree, program.tokens = definitionsTokens definitions := by
  obtain ⟨before, ⟨name, value⟩, rfl⟩ := (List.eq_nil_or_concat definitions).resolve_left some
  obtain ⟨program, same⟩ := exists_of_definitions before (.definition name value)
  exact ⟨program, by rw [same, List.concat_eq_append, definitionsTokens_append, tokens]⟩

end ProgramTree

/-! ### What open constructs spell -/

namespace Construct

/-- The tokens that a construct has so far. -/
def Spells : Construct → List TokenKind → Prop
  | .program known, kinds =>
    ∃ definitions, kinds = definitionsTokens definitions ∧ (known = true ↔ definitions ≠ [])
  | .complete _, kinds =>
    ∃ definitions, ∃ term : TermTree, kinds = definitionsTokens definitions ++ term.tokens
  | .opened, kinds => kinds = [.opening]
  | .terms _, kinds => ∃ terms : TermsTree, kinds = .opening :: terms.tokens
  | .abstraction, kinds => kinds = [.opening, .lambda]
  | .parameters, kinds => kinds = [.opening, .lambda, .opening]
  | .parameter _ name, kinds => ∃ before, kinds = headingTokens before ++ [.identifier name]
  | .operand _ name _ outer, kinds =>
    ∃ before opened, OpensType outer.length opened ∧
      kinds = headingTokens before ++ .identifier name :: .colon :: opened
  | .typed _ name _ outer _, kinds =>
    ∃ before opened, OpensType outer.length opened ∧ ∃ last : TypeTree,
      kinds = headingTokens before ++ .identifier name :: .colon :: (opened ++ last.tokens)
  | .body _, kinds =>
    ∃ parameters : ParametersTree,
      kinds = [.opening, .lambda, .opening] ++ parameters.tokens ++ [.closing]
  | .bodyRead _ _, kinds =>
    ∃ (parameters : ParametersTree) (body : TermTree),
      kinds = [.opening, .lambda, .opening] ++ parameters.tokens ++ .closing :: body.tokens
  | .definition, kinds => kinds = [.opening, .define]
  | .defined name, kinds => kinds = [.opening, .define, .identifier name]
  | .definedRead name _, kinds =>
    ∃ value : TermTree, kinds = [.opening, .define, .identifier name] ++ value.tokens
  | .definitionClosed _ _, kinds =>
    ∃ definitions, definitions ≠ [] ∧ kinds = definitionsTokens definitions

/-- What phrase a construct is a part of. -/
inductive Level where
  | program
  | definition
  | term

/-- The phrase that a construct is a part of, apart from those that it is inside of. -/
def level : Construct → Level
  | .program _ | .complete _ | .definitionClosed _ _ => .program
  | .definition | .defined _ | .definedRead _ _ => .definition
  | _ => .term

/-- Where a construct may stand: a program is not inside of anything, a definition is inside of a
program, and a term is inside of a construct that waits for one. -/
def Nests (construct : Construct) (around : List Construct) : Prop :=
  match construct.level with
  | .program => around = []
  | .definition => ∃ known, around = [.program known]
  | .term => ∃ outer rest, around = outer :: rest ∧ Reading.waitsForTerm outer = true

end Construct

/-! ### One more token of a parameter -/

namespace Construct.Spells

variable {known : List Parameter} {name : String} {type : List Symbol}
  {inner : List (List Symbol)} {outer : List (List (List Symbol))} {own : List TokenKind}

theorem colon (spells : (Construct.parameter known name).Spells own) :
    (Construct.operand known name [] []).Spells (own ++ [.colon]) := by
  obtain ⟨before, same⟩ := spells
  refine ⟨before, [], .start, ?_⟩
  rw [same, List.append_assoc]
  rfl

theorem atom (spells : (Construct.operand known name inner outer).Spells own)
    (type : List Symbol) (last : String) :
    (Construct.typed known name inner outer type).Spells (own ++ [.identifier last]) := by
  obtain ⟨before, opened, opens, same⟩ := spells
  refine ⟨before, opened, opens, .atom last, ?_⟩
  rw [same, List.append_assoc]
  rfl

theorem opening (spells : (Construct.operand known name inner outer).Spells own) :
    (Construct.operand known name [] (inner :: outer)).Spells (own ++ [.opening]) := by
  obtain ⟨before, opened, opens, same⟩ := spells
  refine ⟨before, _, opens.opening, ?_⟩
  rw [same, List.append_assoc]
  rfl

theorem arrow (spells : (Construct.typed known name inner outer type).Spells own) :
    (Construct.operand known name (type :: inner) outer).Spells (own ++ [.arrow]) := by
  obtain ⟨before, opened, opens, last, same⟩ := spells
  refine ⟨before, _, opens.arrow last, ?_⟩
  rw [same, List.append_assoc]
  rfl

theorem closing {next : List (List Symbol)}
    (spells : (Construct.typed known name inner (next :: outer) type).Spells own)
    (joined : List Symbol) :
    (Construct.typed known name next outer joined).Spells (own ++ [.closing]) := by
  obtain ⟨before, opened, opens, last, same⟩ := spells
  obtain ⟨outside, opensOutside, operand, closed⟩ := OpensType.exists_operand opens last
  refine ⟨before, outside, opensOutside, operand, ?_⟩
  rw [same, closed, List.append_assoc]
  rfl

/-- Outside of all brackets the type of the parameter is complete. -/
theorem exists_parameter (spells : (Construct.typed known name inner [] type).Spells own) :
    ∃ before type, own = headingTokens before ++ parameterTokens name type := by
  obtain ⟨before, opened, opens, last, same⟩ := spells
  obtain ⟨type, whole⟩ := OpensType.exists_type opens last
  exact ⟨before, type, by rw [same, ← whole]; rfl⟩

theorem body {parameters : List Parameter}
    (spells : (Construct.typed known name inner [] type).Spells own) :
    (Construct.body parameters).Spells (own ++ [.closing]) := by
  obtain ⟨before, type, same⟩ := spells.exists_parameter
  obtain ⟨parameters, listed⟩ := exists_parameters before name type
  exact ⟨parameters, by rw [same, listed]⟩

theorem parameter {parameters : List Parameter}
    (spells : (Construct.typed known name inner [] type).Spells own) (next : String) :
    (Construct.parameter parameters next).Spells (own ++ [.identifier next]) := by
  obtain ⟨before, type, same⟩ := spells.exists_parameter
  exact ⟨before ++ [(name, type)], by rw [same, headingTokens_append]⟩

end Construct.Spells

/-! ### What all open constructs spell -/

/-- The tokens that constructs have so far, the innermost first. -/
inductive Spelled : List Construct → List TokenKind → Prop
  | nil : Spelled [] []
  | cons {construct : Construct} {around : List Construct} {before kinds : List TokenKind}
      (outside : Spelled around before) (nests : construct.Nests around)
      (spells : construct.Spells kinds) : Spelled (construct :: around) (before ++ kinds)

/-- A construct that is not inside of anything. -/
theorem Spelled.outermost {construct : Construct} {kinds : List TokenKind}
    (nests : construct.Nests []) (spells : construct.Spells kinds) : Spelled [construct] kinds :=
  Spelled.nil.cons nests spells

namespace Spelled

variable {current next : Construct} {around : List Construct} {kinds more : List TokenKind}

/-- The innermost construct goes on with more tokens. -/
theorem extend (spelled : Spelled (current :: around) kinds)
    (nests : current.Nests around → next.Nests around)
    (spells : ∀ own, current.Spells own → next.Spells (own ++ more)) :
    Spelled (next :: around) (kinds ++ more) := by
  cases spelled with
  | cons outside inside own =>
    rw [List.append_assoc]
    exact outside.cons (nests inside) (spells _ own)

/-- A term in the place where one is waited for. -/
theorem deliver (spelled : Spelled (current :: around) kinds) {value : Term}
    (delivered : Reading.deliver value current = some next) (term : TermTree) :
    Spelled (next :: around) (kinds ++ term.tokens) := by
  cases current with
  | program defined =>
    obtain rfl := Option.some.inj delivered
    refine spelled.extend id fun own ⟨definitions, same, _⟩ => ⟨definitions, term, by rw [same]⟩
  | opened =>
    obtain rfl := Option.some.inj delivered
    exact spelled.extend id fun own same => ⟨.one term, by rw [same]; rfl⟩
  | terms function =>
    obtain rfl := Option.some.inj delivered
    exact spelled.extend id fun own ⟨terms, same⟩ => ⟨.more terms term, by rw [same]; rfl⟩
  | body known =>
    obtain rfl := Option.some.inj delivered
    refine spelled.extend id fun own ⟨parameters, same⟩ => ⟨parameters, term, ?_⟩
    simp only [same, List.append_assoc, List.cons_append, List.nil_append]
  | defined name =>
    obtain rfl := Option.some.inj delivered
    exact spelled.extend id fun own same => ⟨term, by rw [same]⟩
  | _ => cases delivered

/-- A construct inside of another one that is completed to a term. -/
theorem close (spelled : Spelled (current :: around) kinds)
    (complete : ∀ own, current.Spells own → ∃ term : TermTree, term.tokens = own ++ more)
    {value : Term} {reading closed : Reading} (same : reading.around = around)
    (closes : reading.close value = some closed) :
    Spelled (closed.current :: closed.around) (kinds ++ more) := by
  subst same
  unfold Reading.close at closes
  split at closes
  · rename_i outer rest split
    rw [split] at spelled
    obtain ⟨next, delivered, rfl⟩ := Option.map_eq_some_iff.1 closes
    cases spelled with
    | cons outside _ own =>
      obtain ⟨term, completed⟩ := complete _ own
      rw [List.append_assoc, ← completed]
      exact outside.deliver delivered term
  · cases closes

end Spelled

/-! ### One step -/

namespace Reading

/-- The constructs that a reader has open spell what it has read. -/
def HasRead (reading : Reading) (kinds : List TokenKind) : Prop :=
  Spelled (reading.current :: reading.around) kinds

namespace HasRead

variable {reading next : Reading} {kinds : List TokenKind}

theorem put (read : reading.HasRead kinds) {value : Term} (taken : reading.put value = some next)
    (term : TermTree) : next.HasRead (kinds ++ term.tokens) := by
  obtain ⟨current, delivered, rfl⟩ := Option.map_eq_some_iff.1 taken
  exact Spelled.deliver read delivered term

theorem settle (read : reading.HasRead kinds) : reading.settle.HasRead kinds := by
  obtain ⟨current, around, session⟩ := reading
  cases current with
  | definitionClosed name term =>
    rw [← List.append_nil kinds]
    refine Spelled.extend read id fun own ⟨definitions, present, same⟩ => ⟨definitions, ?_, ?_⟩
    · rw [same, List.append_nil]
    · exact iff_of_true rfl present
  | _ => exact read

/-- A parenthesis that opens a construct. -/
theorem opened {current : Construct} {around : List Construct} {session : Session}
    (read : HasRead ⟨current, around, session⟩ kinds) (waits : waitsForTerm current = true) :
    HasRead ⟨.opened, current :: around, session⟩ (kinds ++ [.opening]) :=
  Spelled.cons read ⟨current, around, rfl, waits⟩ (by rfl)

/-- A definition that its last parenthesis completes. -/
theorem define {name : String} {value : Term} {around : List Construct} {session : Session}
    (read : HasRead ⟨.definedRead name value, around, session⟩ kinds) :
    Spelled [.definitionClosed name value] (kinds ++ [.closing]) := by
  cases read with
  | cons outside nests own =>
    obtain ⟨known, rfl⟩ := nests
    obtain ⟨tree, same⟩ := own
    cases outside with
    | cons outermost _ definitions =>
      obtain ⟨definitions, earlier, -⟩ := definitions
      cases outermost
      refine Spelled.outermost rfl ⟨definitions ++ [(name, tree)],
        List.append_ne_nil_of_right_ne_nil _ (List.cons_ne_nil _ _), ?_⟩
      show ([] ++ _ ++ _) ++ [TokenKind.closing] = _
      simp only [same, earlier, definitionsTokens_append, definitionTokens, List.append_assoc,
        List.nil_append]

/-- Every step of the reader keeps what it has read. -/
theorem step (read : reading.HasRead kinds) {kind : TokenKind}
    (stepped : reading.step kind = some next) : next.HasRead (kinds ++ [kind]) := by
  obtain ⟨current, around, session⟩ := reading
  unfold Reading.step at stepped
  simp only at stepped
  split at stepped
  -- a parenthesis opens a construct
  case h_1 | h_2 | h_3 | h_4 | h_5 =>
    obtain rfl := Option.some.inj stepped
    exact opened read rfl
  case h_6 =>
    obtain rfl := Option.some.inj stepped
    exact Spelled.extend read id fun own same => by rw [same]; rfl
  case h_7 =>
    split at stepped
    · rename_i defined
      obtain rfl := Option.some.inj stepped
      exact Spelled.extend read (fun _ => ⟨defined, rfl⟩) fun own same => by rw [same]; rfl
    · cases stepped
  case h_8 =>
    exact Spelled.close read (fun own ⟨terms, same⟩ => ⟨.brackets terms, by rw [same]; rfl⟩) rfl
      stepped
  -- parameters and their types
  case h_9 =>
    obtain rfl := Option.some.inj stepped
    exact Spelled.extend read id fun own same => by rw [same]; rfl
  case h_10 =>
    obtain rfl := Option.some.inj stepped
    exact Spelled.extend read id fun own same => ⟨[], by rw [same]; rfl⟩
  case h_11 =>
    obtain rfl := Option.some.inj stepped
    exact Spelled.extend read id fun own spells => spells.colon
  case h_12 =>
    obtain rfl := Option.some.inj stepped
    exact Spelled.extend read id fun own spells => spells.atom _ _
  case h_13 =>
    obtain rfl := Option.some.inj stepped
    exact Spelled.extend read id fun own spells => spells.opening
  case h_14 =>
    obtain rfl := Option.some.inj stepped
    exact Spelled.extend read id fun own spells => spells.arrow
  case h_15 =>
    obtain rfl := Option.some.inj stepped
    exact Spelled.extend read id fun own spells => spells.closing _
  case h_16 =>
    obtain rfl := Option.some.inj stepped
    exact Spelled.extend read id fun own spells => spells.body
  case h_17 =>
    obtain rfl := Option.some.inj stepped
    exact Spelled.extend read id fun own spells => spells.parameter _
  case h_18 =>
    refine Spelled.close read (fun own ⟨parameters, body, same⟩ =>
      ⟨.abstraction parameters body, ?_⟩) rfl stepped
    simp only [same, TermTree.tokens, List.append_assoc, List.cons_append]
  -- definitions
  case h_19 =>
    obtain rfl := Option.some.inj stepped
    exact Spelled.extend read id fun own same => by rw [same]; rfl
  case h_20 =>
    obtain rfl := Option.some.inj stepped
    exact define read
  -- names and numbers where a term is waited for
  case h_21 =>
    split at stepped
    · exact put read stepped (.occurrence _)
    · cases stepped
  case h_22 =>
    split at stepped
    · exact put read stepped (.number _)
    · cases stepped
  case h_23 => cases stepped

theorem feed (read : reading.HasRead kinds) {kind : TokenKind}
    (fed : reading.feed kind = some next) : next.HasRead (kinds ++ [kind]) := by
  unfold Reading.feed at fed
  split at fed
  · exact read.settle.step fed
  · exact read.step fed

theorem feedAll (read : reading.HasRead kinds) {more : List TokenKind}
    (fed : reading.feedAll more = some next) : next.HasRead (kinds ++ more) := by
  induction more generalizing reading kinds with
  | nil =>
    obtain rfl := Option.some.inj fed
    rw [List.append_nil]
    exact read
  | cons kind rest hypothesis =>
    rw [feedAll_cons, Option.bind_eq_some_iff] at fed
    obtain ⟨between, first, later⟩ := fed
    rw [List.append_cons]
    exact hypothesis (read.feed first) later

end HasRead

theorem hasRead_start (session : Session) : (start session).HasRead [] :=
  Spelled.outermost rfl ⟨[], rfl, iff_of_false nofun fun present => present rfl⟩

end Reading

/-! ### Completing what is open -/

namespace Construct.Spells

variable {construct : Construct} {own : List TokenKind}

/-- A part of a term can be completed to a term. -/
theorem exists_term (spells : construct.Spells own) (part : construct.level = .term) :
    ∃ term : TermTree, own <+: term.tokens := by
  have filler : TermTree := .occurrence "x"
  have listed : ∀ (before : List (String × TypeTree)) (name : String) (type : TypeTree),
      ∃ term : TermTree, headingTokens before ++ parameterTokens name type <+: term.tokens := by
    intro before name type
    obtain ⟨parameters, same⟩ := exists_parameters before name type
    exact ⟨.abstraction parameters filler, same ▸ List.prefix_append _ _⟩
  cases construct with
  | opened =>
    obtain rfl := spells
    exact ⟨.brackets (.one filler), _, rfl⟩
  | terms function =>
    obtain ⟨terms, rfl⟩ := spells
    exact ⟨.brackets terms, _, rfl⟩
  | abstraction =>
    obtain rfl := spells
    exact ⟨.abstraction (.one "x" (.atom "x")) filler, _, rfl⟩
  | parameters =>
    obtain rfl := spells
    exact ⟨.abstraction (.one "x" (.atom "x")) filler, _, rfl⟩
  | parameter known name =>
    obtain ⟨before, rfl⟩ := spells
    obtain ⟨term, begins⟩ := listed before name (.atom "x")
    exact ⟨term, ((List.prefix_append_right_inj _).2 ⟨_, rfl⟩).trans begins⟩
  | operand known name inner outer =>
    obtain ⟨before, opened, opens, rfl⟩ := spells
    obtain ⟨type, completed⟩ := OpensType.exists_prefix opens (.atom "x")
    obtain ⟨term, begins⟩ := listed before name type
    have inside : opened <+: type.tokens := (List.prefix_append _ _).trans completed
    refine ⟨term, ((List.prefix_append_right_inj _).2 ?_).trans begins⟩
    exact List.cons_prefix_cons.2 ⟨rfl, List.cons_prefix_cons.2 ⟨rfl, inside⟩⟩
  | typed known name inner outer type =>
    obtain ⟨before, opened, opens, last, rfl⟩ := spells
    obtain ⟨type, completed⟩ := OpensType.exists_prefix opens last
    obtain ⟨term, begins⟩ := listed before name type
    refine ⟨term, ((List.prefix_append_right_inj _).2 ?_).trans begins⟩
    exact List.cons_prefix_cons.2 ⟨rfl, List.cons_prefix_cons.2 ⟨rfl, completed⟩⟩
  | body known =>
    obtain ⟨parameters, rfl⟩ := spells
    exact ⟨.abstraction parameters filler, (List.prefix_append_right_inj _).2 ⟨_, rfl⟩⟩
  | bodyRead known body =>
    obtain ⟨parameters, body, rfl⟩ := spells
    exact ⟨.abstraction parameters body, (List.prefix_append_right_inj _).2 ⟨_, rfl⟩⟩
  | _ => cases part

/-- A part of a definition can be completed to a definition. -/
theorem exists_definition (spells : construct.Spells own) (part : construct.level = .definition) :
    ∃ (name : String) (value : TermTree), own <+: definitionTokens name value.tokens := by
  cases construct with
  | definition =>
    obtain rfl := spells
    exact ⟨"x", .occurrence "x", _, rfl⟩
  | defined name =>
    obtain rfl := spells
    exact ⟨name, .occurrence "x", _, rfl⟩
  | definedRead name read =>
    obtain ⟨value, rfl⟩ := spells
    exact ⟨name, value, _, rfl⟩
  | _ => cases part

/-- A part of a program can be completed to a program. -/
theorem exists_program (spells : construct.Spells own) (part : construct.level = .program) :
    ∃ program : ProgramTree, own <+: program.tokens := by
  cases construct with
  | program known =>
    obtain ⟨definitions, rfl, -⟩ := spells
    obtain ⟨program, same⟩ :=
      ProgramTree.exists_of_definitions definitions (.last (.occurrence "x"))
    exact ⟨program, same ▸ List.prefix_append _ _⟩
  | complete read =>
    obtain ⟨definitions, term, rfl⟩ := spells
    obtain ⟨program, same⟩ := ProgramTree.exists_of_definitions definitions (.last term)
    exact ⟨program, same ▸ List.prefix_rfl⟩
  | definitionClosed name value =>
    obtain ⟨definitions, present, rfl⟩ := spells
    obtain ⟨program, same⟩ := ProgramTree.exists_of_ne_nil present
    exact ⟨program, same ▸ List.prefix_rfl⟩
  | _ => cases part

end Construct.Spells

theorem Reading.exists_deliver {construct : Construct} (waits : waitsForTerm construct = true)
    (term : Term) : ∃ next, deliver term construct = some next := by
  cases construct <;> first | exact ⟨_, rfl⟩ | cases waits

/-- Definitions can go on with another one. -/
theorem Spelled.exists_program_of_definition {known : Bool} {kinds : List TokenKind}
    (spelled : Spelled [.program known] kinds) (name : String) (value : TermTree) :
    ∃ program : ProgramTree, program.tokens = kinds ++ definitionTokens name value.tokens := by
  cases spelled with
  | cons outside _ spells =>
    obtain ⟨definitions, rfl, -⟩ := spells
    cases outside
    exact ProgramTree.exists_of_definitions definitions (.definition name value)

/-- What constructs spell is the beginning of a program. -/
theorem Spelled.exists_program {current : Construct} {around : List Construct}
    {kinds : List TokenKind} (spelled : Spelled (current :: around) kinds) :
    ∃ program : ProgramTree, kinds <+: program.tokens := by
  induction around generalizing current kinds with
  | nil =>
    cases spelled with
    | cons outside nests spells =>
      cases outside
      cases part : current.level with
      | program => exact spells.exists_program part
      | definition =>
        rw [Construct.Nests, part] at nests
        obtain ⟨known, same⟩ := nests
        cases same
      | term =>
        rw [Construct.Nests, part] at nests
        obtain ⟨outer, rest, same, -⟩ := nests
        cases same
  | cons outer rest hypothesis =>
    cases spelled with
    | cons outside nests spells =>
      rw [Construct.Nests] at nests
      cases part : current.level with
      | program =>
        rw [part] at nests
        cases nests
      | definition =>
        rw [part] at nests
        obtain ⟨known, same⟩ := nests
        cases same
        obtain ⟨name, value, begins⟩ := spells.exists_definition part
        obtain ⟨program, whole⟩ := outside.exists_program_of_definition name value
        exact ⟨program, whole ▸ (List.prefix_append_right_inj _).2 begins⟩
      | term =>
        rw [part] at nests
        obtain ⟨_, _, same, waits⟩ := nests
        cases same
        obtain ⟨term, begins⟩ := spells.exists_term part
        obtain ⟨next, delivered⟩ := Reading.exists_deliver waits .missing
        obtain ⟨program, whole⟩ := hypothesis (outside.deliver delivered term)
        exact ⟨program, ((List.prefix_append_right_inj _).2 begins).trans whole⟩

/-! ### What the reader accepts -/

/-- Tokens with which some program begins. -/
def IsViable (kinds : List TokenKind) : Prop :=
  ∃ program : ProgramTree, kinds <+: program.tokens

namespace Reading

/-- The reader reads exactly the beginnings of programs. -/
theorem exists_feedAll_iff (session : Session) {kinds : List TokenKind} :
    (∃ next, (start session).feedAll kinds = some next) ↔ IsViable kinds := by
  constructor
  · rintro ⟨next, fed⟩
    exact Spelled.exists_program ((hasRead_start session).feedAll fed)
  · rintro ⟨program, more, same⟩
    obtain ⟨next, fed, -⟩ := exists_feedAll_start program.isRightAssociative_regroup session
    rw [program.tokens_regroup, ← same, feedAll_append, Option.bind_eq_some_iff] at fed
    obtain ⟨between, first, -⟩ := fed
    exact ⟨between, first⟩

/-- What has been read when nothing is open any more is a program. -/
theorem HasRead.exists_program {reading : Reading} {kinds : List TokenKind}
    (read : reading.HasRead kinds) {result : Option Term} (finished : reading.finish = .ok result) :
    ∃ program : ProgramTree, program.tokens = kinds := by
  obtain ⟨current, around, session⟩ := reading
  cases read with
  | cons outside nests spells =>
    unfold finish at finished
    split at finished
    · rename_i same
      obtain rfl := same
      obtain ⟨definitions, rfl, present⟩ := spells
      obtain rfl := nests
      cases outside
      exact ProgramTree.exists_of_ne_nil (present.1 rfl)
    · rename_i term same
      obtain rfl := same
      obtain ⟨definitions, tree, rfl⟩ := spells
      obtain rfl := nests
      cases outside
      exact ProgramTree.exists_of_definitions definitions (.last tree)
    · cases finished

/-- A reader that does not read all tokens has read those before the first that it does not. -/
theorem exists_of_feedAll_eq_none {reading : Reading} {tokens : List Token}
    (stopped : reading.feedAll (tokens.map Token.kind) = none) :
    ∃ before token after next, tokens = before ++ token :: after ∧
      reading.feedAll (before.map Token.kind) = some next ∧ next.feed token.kind = none := by
  induction tokens generalizing reading with
  | nil => cases stopped
  | cons token rest hypothesis =>
    cases first : reading.feed token.kind with
    | none => exact ⟨[], token, rest, reading, rfl, rfl, first⟩
    | some between =>
      rw [List.map_cons, feedAll_cons_of_eq first] at stopped
      obtain ⟨before, other, after, next, rfl, fed, stops⟩ := hypothesis stopped
      refine ⟨token :: before, other, after, next, rfl, ?_, stops⟩
      rw [List.map_cons, feedAll_cons_of_eq first, fed]

/-- A program ends with its term, or with a definition, or too early. -/
theorem finish_eq_ok_or (reading : Reading) :
    (∃ result, reading.finish = .ok result) ∨ reading.finish = .error .unexpectedEnd := by
  unfold finish
  split
  · exact .inl ⟨none, rfl⟩
  · exact .inl ⟨_, rfl⟩
  · exact .inr rfl

end Reading

end WordArithmetic
