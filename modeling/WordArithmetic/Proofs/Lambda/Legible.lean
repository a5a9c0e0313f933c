/-
This file describes the terms that come about in a session.

Every name in a program is a word or the sign of an operator. The signs are known from the start and
stay known, so a variable is named by a word; and it is either free, or its type is the annotation
of the parameter that its index points to, which has its name. This is shown of terms in the scope
that they are elaborated in. A text that is not read to its end still leaves the session after some
program, so it holds of all sessions that can come about, and of the terms composed in them.
-/

import WordArithmetic.Proofs.Lambda.Scoping

namespace WordArithmetic

/-- A symbol whose names are names of programs. -/
inductive Symbol.IsNamed : Symbol → Prop
  | name {text : String} (named : IsName text) : Symbol.IsNamed (.name text)
  | tuple {parts : List Symbol} (each : ∀ part ∈ parts, Symbol.IsNamed part) :
      Symbol.IsNamed (.tuple parts)

/-! ### Legible terms -/

/-- A term in a scope can be told from its printed form: a variable is free and named by a word, or
it is bound by the parameter that its index points to, whose name and type it has. -/
inductive Legible : Scope → Term → Prop
  | free {scope : Scope} {name : String} (word : IsWord name)
      (absent : name ∉ scope.map Prod.fst) : Legible scope (Term.free name)
  | bound {scope : Scope} {name : String} {parts : List Symbol} {index : Nat} (word : IsWord name)
      (binder : scope[index]? = some (name, parts)) :
      Legible scope (.variable name (.tuple parts) (index + 1))
  | abstraction {scope : Scope} {name : String} {parts : List Symbol} {body : Term}
      (named : IsName name) (typed : (Symbol.tuple parts).IsNamed)
      (inside : Legible ((name, parts) :: scope) body) :
      Legible scope (.abstraction name (.tuple parts) body)
  | application {scope : Scope} {function argument : Term} (applied : Legible scope function)
      (supplied : Legible scope argument) : Legible scope (.application function argument)
  | number {scope : Scope} (value : Float) : Legible scope (Term.number value)
  | operator {scope : Scope} (operator : Operator) : Legible scope operator.external.term

namespace Scope

/-- What a name refers to is a parameter of that name. -/
theorem getElem?_of_find? {name : String} {scope : Scope} {crossed : Int} {type : TypeCode}
    {index : Int} (found : scope.find? name crossed = some (type, index)) :
    ∃ (parts : List Symbol) (place : Nat), type = .tuple parts ∧ index = crossed + place + 1 ∧
      scope[place]? = some (name, parts) := by
  induction scope generalizing crossed with
  | nil => cases found
  | cons first outer hypothesis =>
    obtain ⟨other, own⟩ := first
    have here : other = name → (type, index) = (.tuple own, crossed + 1) →
        ∃ (parts : List Symbol) (place : Nat), type = .tuple parts ∧ index = crossed + place + 1 ∧
          ((other, own) :: outer)[place]? = some (name, parts) := by
      rintro rfl same
      obtain ⟨rfl, rfl⟩ := Prod.mk.inj same
      exact ⟨own, 0, rfl, by omega, rfl⟩
    have further : find? name outer (crossed + 1) = some (type, index) →
        ∃ (parts : List Symbol) (place : Nat), type = .tuple parts ∧ index = crossed + place + 1 ∧
          ((other, own) :: outer)[place]? = some (name, parts) := by
      intro later
      obtain ⟨parts, place, same, moved, binder⟩ := hypothesis later
      exact ⟨parts, place + 1, same, by omega, binder⟩
    rw [find?] at found
    split at found
    · rename_i own
      split at found
      · rename_i reserved
        rcases Option.or_eq_some_iff.1 found with later | ⟨-, last⟩
        · exact further later
        · refine here own ?_
          rw [reserved]
          exact (Option.some.inj last).symm
      · exact here own (Option.some.inj found).symm
    · exact further found

/-- A name that refers to nothing is the name of no parameter. -/
theorem not_mem_of_find?_eq_none {name : String} {scope : Scope} {crossed : Int}
    (missing : scope.find? name crossed = none) : name ∉ scope.map Prod.fst := by
  induction scope generalizing crossed with
  | nil => exact List.not_mem_nil
  | cons first outer hypothesis =>
    rw [find?] at missing
    split at missing
    · split at missing
      · cases (Option.or_eq_none_iff.1 missing).2
      · cases missing
    · rename_i different
      rw [List.map_cons, List.mem_cons, not_or]
      exact ⟨Ne.symm different, hypothesis missing⟩

end Scope

namespace Legible

/-- A variable that refers to a parameter of a scope further out. -/
theorem of_find? {inner scope : Scope} {name : String} {type : TypeCode} {index : Int}
    (word : IsWord name) (found : scope.find? name inner.length = some (type, index)) :
    Legible (inner ++ scope) (.variable name type index) := by
  obtain ⟨parts, place, rfl, rfl, binder⟩ := Scope.getElem?_of_find? found
  have moved : (inner ++ scope)[inner.length + place]? = some (name, parts) := by
    rw [List.getElem?_append_right (Nat.le_add_right _ _), Nat.add_sub_cancel_left, binder]
  exact Legible.bound word moved

/-- A legible term stays legible in a scope around its own. -/
theorem place {inner scope : Scope} {term : Term} (legible : Legible inner term) :
    Legible (inner ++ scope) (term.place scope inner.length) := by
  induction legible with
  | @free inner name word absent =>
    rw [Term.free, Term.place, if_pos rfl]
    cases found : scope.find? name inner.length with
    | none =>
      refine Legible.free word ?_
      rw [List.map_append, List.mem_append, not_or]
      exact ⟨absent, Scope.not_mem_of_find?_eq_none found⟩
    | some entry => exact of_find? word found
  | @bound inner name parts index word binder =>
    have inside : index < inner.length := (List.getElem?_eq_some_iff.1 binder).1
    have kept : (inner ++ scope)[index]? = some (name, parts) := by
      rw [List.getElem?_append_left inside, binder]
    rw [Term.place]
    split
    · cases found : scope.find? name inner.length with
      | none => exact Legible.bound word kept
      | some entry => exact of_find? word found
    · exact Legible.bound word kept
  | abstraction named typed _ hypothesis =>
    rw [List.length_cons, Int.natCast_succ] at hypothesis
    exact Legible.abstraction named typed hypothesis
  | application _ _ functionHypothesis argumentHypothesis =>
    exact Legible.application functionHypothesis argumentHypothesis
  | number value => exact Legible.number value
  | operator operator => exact Legible.operator operator

end Legible

/-! ### Sessions -/

/-- What a session knows are legible terms that are their own copies, and it knows the signs. -/
structure Session.IsLegible (session : Session) : Prop where
  bound : session.HasBound
  known : ∀ name term, session.names.get? name = some term → Legible [] term
  signs : ∀ operator : Operator, session.names.get? operator.sign ≠ none

namespace Session.IsLegible

variable {session : Session}

/-- The operators are legible, and they are known. -/
theorem arithmetic : Session.arithmetic.IsLegible := by
  have distinct : ((Operator.all.map fun operator =>
      (operator.sign, operator.external.term)).map Prod.fst).Nodup := by decide
  have entries : ∀ name, Session.arithmetic.names.get? name =
      entryOf? name (Operator.all.map fun operator => (operator.sign, operator.external.term)) := by
    intro name
    rw [Session.arithmetic, Table.ofList, Table.get?_insertAll _ distinct, Table.get?_empty,
      Option.or_none]
  refine ⟨Reachable.hasBound .arithmetic, fun name term found => ?_, fun operator missing => ?_⟩
  · rw [entries] at found
    obtain ⟨operator, _, same⟩ := List.mem_map.1 (mem_of_entryOf? found)
    obtain rfl := congrArg Prod.snd same
    exact Legible.operator operator
  · rw [entries] at missing
    cases operator <;> cases missing

theorem define (legible : session.IsLegible) {term : Term} (bound : term.HasBound)
    (termLegible : Legible [] term) (name : String) : (session.define name term).IsLegible := by
  refine ⟨legible.bound.define bound name, fun other known found => ?_, fun operator missing => ?_⟩
  · rw [Session.define, Table.get?_insert] at found
    split at found
    · obtain rfl := Option.some.inj found
      exact termLegible
    · exact legible.known other known found
  · rw [Session.define, Table.get?_insert] at missing
    split at missing
    · cases missing
    · exact legible.signs operator missing

/-- A name stands for a legible term in every scope. -/
theorem occurrence (legible : session.IsLegible) (scope : Scope) {name : String}
    (named : IsName name) : Legible scope (session.occurrence scope name) := by
  unfold Session.occurrence
  cases known : session.names.get? name with
  | some term => exact (legible.known name term known).place
  | none =>
    have word : IsWord name := by
      rcases named with word | ⟨operator, rfl⟩
      · exact word
      · exact absurd known (legible.signs operator)
    cases found : scope.find? name 0 with
    | none => exact Legible.free word (Scope.not_mem_of_find?_eq_none found)
    | some entry => exact (Legible.of_find? word found : Legible ([] ++ scope) _)

end Session.IsLegible

/-! ### Trees -/

theorem TypeTree.isNamed_parts {type : TypeTree} (named : ∀ kind ∈ type.tokens, kind.IsNamed) :
    ∀ part ∈ type.parts, part.IsNamed := by
  induction type with
  | atom name =>
    have own : IsName name := named (.identifier name) (List.mem_singleton_self _)
    exact List.forall_mem_singleton.2 (.name own)
  | brackets inner hypothesis =>
    have inside := (List.forall_mem_append.1 (List.forall_mem_cons.1 named).2).1
    exact hypothesis inside
  | arrow argument result argumentHypothesis resultHypothesis =>
    obtain ⟨argumentNamed, later⟩ := List.forall_mem_append.1 named
    have argumentParts := argumentHypothesis argumentNamed
    have resultParts := resultHypothesis (List.forall_mem_cons.1 later).2
    rw [parts, TypeCode.arrow]
    split
    · exact List.forall_mem_append.2 ⟨argumentParts, resultParts⟩
    · exact List.forall_mem_cons.2 ⟨.tuple argumentParts, resultParts⟩

theorem ParametersTree.legible_enclose {parameters : ParametersTree} {scope : Scope} {body : Term}
    (named : ∀ kind ∈ parameters.tokens, kind.IsNamed)
    (legible : Legible (parameters.known.reverse ++ scope) body) :
    Legible scope (parameters.enclose body) := by
  induction parameters generalizing scope with
  | one name type =>
    obtain ⟨nameNamed, later⟩ := List.forall_mem_cons.1 named
    exact Legible.abstraction nameNamed
      (.tuple (TypeTree.isNamed_parts (List.forall_mem_cons.1 later).2)) legible
  | more name type rest hypothesis =>
    obtain ⟨own, others⟩ := List.forall_mem_append.1 named
    obtain ⟨nameNamed, later⟩ := List.forall_mem_cons.1 own
    rw [known, List.reverse_cons, List.append_assoc, List.singleton_append] at legible
    exact Legible.abstraction nameNamed
      (.tuple (TypeTree.isNamed_parts (List.forall_mem_cons.1 later).2))
      (hypothesis others legible)

theorem TermsTree.legible_elaborate {session : Session} {terms : TermsTree} {scope : Scope}
    (each : ∀ term ∈ terms.list, Legible scope (term.elaborate session scope)) :
    Legible scope (terms.elaborate session scope) := by
  induction terms with
  | one term => exact each term (List.mem_singleton_self term)
  | more before term hypothesis =>
    obtain ⟨earlier, last⟩ := List.forall_mem_append.1 each
    exact Legible.application (hypothesis earlier) (last term (List.mem_singleton_self term))

/-- What is elaborated in a scope is legible in it. -/
theorem TermTree.legible_elaborate {session : Session} (legible : session.IsLegible)
    {term : TermTree} (named : ∀ kind ∈ term.tokens, kind.IsNamed) (scope : Scope) :
    Legible scope (term.elaborate session scope) := by
  induction term generalizing scope with
  | occurrence name =>
    have own : IsName name := named (.identifier name) (List.mem_singleton_self _)
    exact legible.occurrence scope own
  | number value => exact Legible.number value
  | abstraction parameters body hypothesis =>
    obtain ⟨heading, later⟩ := List.forall_mem_append.1 named
    have bodyNamed := (List.forall_mem_append.1 (List.forall_mem_cons.1 later).2).1
    exact ParametersTree.legible_enclose (List.forall_mem_append.1 heading).2
      (hypothesis bodyNamed _)
  | brackets terms hypothesis =>
    have inside := (List.forall_mem_append.1 (List.forall_mem_cons.1 named).2).1
    rw [TermsTree.tokens_eq] at inside
    exact TermsTree.legible_elaborate fun term member =>
      hypothesis term member (fun kind own => inside kind (List.mem_flatMap.2 ⟨term, member, own⟩))
        scope

/-- The term of a derivation is legible. -/
theorem TermTree.legible_term {session : Session} (legible : session.IsLegible) {term : TermTree}
    (named : ∀ kind ∈ term.tokens, kind.IsNamed) : Legible [] (term.term session) := by
  rw [term.term_eq_elaborate legible.bound]
  exact TermTree.legible_elaborate legible named []

/-- A definition keeps a session legible. -/
theorem Session.IsLegible.define_term {session : Session} (legible : session.IsLegible)
    {name : String} {value : TermTree}
    (named : ∀ kind ∈ definitionTokens name value.tokens, kind.IsNamed) :
    (session.define name (value.term session)).IsLegible :=
  have inside := (List.forall_mem_append.1 (List.forall_mem_append.1 named).1).2
  legible.define (value.hasBound_term legible.bound) (value.legible_term legible inside) name

/-- Definitions keep a session legible. -/
theorem Session.IsLegible.defineAll {session : Session} (legible : session.IsLegible)
    {definitions : List (String × TermTree)}
    (named : ∀ kind ∈ definitionsTokens definitions, kind.IsNamed) :
    (session.defineAll definitions).IsLegible := by
  induction definitions generalizing session with
  | nil => exact legible
  | cons first rest hypothesis =>
    rw [definitionsTokens_cons] at named
    obtain ⟨own, others⟩ := List.forall_mem_append.1 named
    exact hypothesis (legible.define_term own) others

/-- The term of a program is legible if the session is. -/
theorem ProgramTree.legible_run {session : Session} (legible : session.IsLegible)
    {program : ProgramTree} (named : ∀ kind ∈ program.tokens, kind.IsNamed) {term : Term}
    (last : (program.run session).2 = some term) : Legible [] term := by
  induction program generalizing session with
  | more name value rest hypothesis =>
    obtain ⟨own, others⟩ := List.forall_mem_append.1 named
    exact hypothesis (legible.define_term own) others last
  | last tree =>
    obtain rfl := Option.some.inj last
    exact tree.legible_term legible named
  | definition name value => cases last

/-! ### Terms that can come about -/

theorem Session.Reachable.isLegible {session : Session} (reachable : session.Reachable) :
    session.IsLegible := by
  induction reachable with
  | arithmetic => exact Session.IsLegible.arithmetic
  | @read session _ code hypothesis =>
    obtain ⟨definitions, begins, same⟩ := session.exists_definitions_of_read code
    rw [same]
    exact hypothesis.defineAll (Scan.isNamed_of_prefix begins)

/-- Composed terms are legible. -/
theorem Term.Composed.legible {term : Term} (composed : term.Composed) : Legible [] term := by
  induction composed with
  | @read session reachable code term result =>
    obtain ⟨-, program, derivation, read⟩ := Session.exists_isDerivationOf result
    have whole : program.tokens <+: (Scan.ofText code).tokens.map Token.kind :=
      ⟨[], by rw [derivation.tokens, List.append_nil]⟩
    rw [read] at result
    exact ProgramTree.legible_run reachable.isLegible (Scan.isNamed_of_prefix whole)
      (Except.ok.inj result)
  | application _ _ functionHypothesis argumentHypothesis =>
    exact Legible.application functionHypothesis argumentHypothesis

end WordArithmetic
