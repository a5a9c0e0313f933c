/-
This file says what the names in a program refer to.

The reader gives a term its names from the inside out: a name that the session knows is replaced by
a copy of its term at once, and an abstraction binds by name what is free in its finished body. Seen
from the outside this is scoping. The parameters around a place are its scope, the innermost first.
A name that the session does not know refers to the innermost parameter of that name, with the
number of binders crossed on the way as its index, or else it is free. A name that the session knows
stands for its term wherever it is, even inside of a parameter of the same name, and what is free in
that term refers to the parameters around the place where it is used. Only one index is special: a
parameter at the reserved index of free variables is passed over if there is another one further
out.
-/

import WordArithmetic.Lambda.Evaluation
import WordArithmetic.Proofs.Lambda.Derivation
import WordArithmetic.Proofs.Lambda.Reader

namespace WordArithmetic

/-! ### Scopes -/

/-- The parameters around a place, the innermost first. -/
abbrev Scope := List Parameter

/-- What a name refers to in a scope from below `crossed` binders: the type of the innermost
parameter of that name and the number of binders crossed to get to it, its own included. -/
def Scope.find? (sought : String) : Scope → (crossed : Int) → Option (TypeCode × Int)
  | [], _ => none
  | (name, parts) :: outer, crossed =>
    let further := find? sought outer (crossed + 1)
    if name = sought then
      if crossed + 1 = freeIndex then further.or (some (.tuple parts, freeIndex))
      else some (.tuple parts, crossed + 1)
    else further

/-- Up to the reserved index, a name refers to the innermost parameter of that name. -/
theorem Scope.find?_append {name : String} {parts : List Symbol} {inner outer : Scope}
    (absent : name ∉ inner.map Prod.fst) {crossed : Int}
    (unreserved : crossed + inner.length + 1 ≠ freeIndex) :
    find? name (inner ++ (name, parts) :: outer) crossed =
      some (.tuple parts, crossed + inner.length + 1) := by
  induction inner generalizing crossed with
  | nil =>
    simp only [List.length_nil, Int.natCast_zero, Int.add_zero] at unreserved ⊢
    rw [List.nil_append, find?, if_pos rfl, if_neg unreserved]
  | cons first rest hypothesis =>
    rw [List.map_cons, List.mem_cons, not_or] at absent
    have moved : crossed + (first :: rest).length + 1 = crossed + 1 + rest.length + 1 := by
      rw [List.length_cons, Int.natCast_succ]
      omega
    rw [moved] at unreserved ⊢
    rw [List.cons_append, find?, if_neg (Ne.symm absent.1)]
    exact hypothesis absent.2 unreserved

/-- A name that no parameter has refers to none. -/
theorem Scope.find?_eq_none {name : String} {scope : Scope} (absent : name ∉ scope.map Prod.fst)
    (crossed : Int) : find? name scope crossed = none := by
  induction scope generalizing crossed with
  | nil => rfl
  | cons first rest hypothesis =>
    rw [List.map_cons, List.mem_cons, not_or] at absent
    rw [find?, if_neg (Ne.symm absent.1)]
    exact hypothesis absent.2 _

/-- Puts a term into a scope from below `crossed` binders: its free variables refer to what their
names refer to there. -/
def Term.place (scope : Scope) (crossed : Int) : Term → Term
  | .variable name type index =>
    if index = freeIndex then
      match scope.find? name crossed with
      | some (type, index) => .variable name type index
      | none => .variable name type index
    else .variable name type index
  | .abstraction name type body => .abstraction name type (body.place scope (crossed + 1))
  | .application function argument =>
    .application (function.place scope crossed) (argument.place scope crossed)
  | .external function missing arguments => .external function missing arguments

namespace Term

/-- Induction over terms whose external functions are taken as they are. -/
theorem induction {motive : Term → Prop}
    (occurrence : ∀ name type index, motive (.variable name type index))
    (abstraction : ∀ name type body, motive body → motive (.abstraction name type body))
    (application : ∀ function argument, motive function → motive argument →
      motive (.application function argument))
    (external : ∀ function missing arguments, motive (.external function missing arguments))
    (term : Term) : motive term :=
  @Term.rec motive (fun _ => True) occurrence abstraction application
    (fun function missing arguments _ => external function missing arguments) trivial
    (fun _ _ _ _ => trivial) term

theorem place_nil (crossed : Int) (term : Term) : term.place [] crossed = term := by
  induction term using induction generalizing crossed with
  | occurrence name type index =>
    rw [place]
    split
    · rfl
    · rfl
  | abstraction name type body hypothesis => rw [place, hypothesis]
  | application function argument functionHypothesis argumentHypothesis =>
    rw [place, functionHypothesis, argumentHypothesis]
  | external function missing arguments => rfl

/-- Binding a name before a term is put into a scope is putting it into a larger scope. -/
theorem place_capture (scope : Scope) (name : String) (parts : List Symbol) (crossed : Int)
    (term : Term) :
    (term.capture name (.tuple parts) (crossed + 1)).place scope (crossed + 1) =
      term.place ((name, parts) :: scope) crossed := by
  induction term using induction generalizing crossed with
  | occurrence other type index =>
    by_cases free : index = freeIndex
    · subst free
      by_cases same : name = other
      · subst same
        rw [capture, if_pos ⟨rfl, rfl⟩, place, place, if_pos rfl, Scope.find?, if_pos rfl]
        by_cases reserved : crossed + 1 = freeIndex
        · rw [if_pos reserved, if_pos reserved]
          cases scope.find? name (crossed + 1) with
          | none => simp only [Option.none_or, reserved, TypeCode.addBrackets]
          | some found => rfl
        · rw [if_neg reserved, if_neg reserved]
          rfl
      · rw [capture, if_neg fun captured => same captured.1, place, place, if_pos rfl, if_pos rfl,
          Scope.find?, if_neg same]
    · rw [capture, if_neg fun captured => free captured.2, place, place, if_neg free, if_neg free]
  | abstraction other type body hypothesis => rw [capture, place, place, hypothesis]
  | application function argument functionHypothesis argumentHypothesis =>
    rw [capture, place, place, functionHypothesis, argumentHypothesis]
  | external function missing arguments => rfl

/-- An abstraction in a scope has a body in the scope of its parameter. -/
theorem place_abstract (scope : Scope) (name : String) (parts : List Symbol) (body : Term) :
    (Term.abstract name (.tuple parts) body).place scope 0 =
      .abstraction name (.tuple parts) (body.place ((name, parts) :: scope) 0) := by
  rw [Term.abstract, place, ← place_capture scope name parts 0 body]
  rfl

/-- A turn on a way down into a term. -/
inductive Turn where
  | body
  | function
  | argument

/-- The part of a term at the end of a way, with the number of binders that are crossed on it. -/
def part? : List Turn → Term → Option (Term × Nat)
  | [], term => some (term, 0)
  | .body :: way, .abstraction _ _ body =>
    (body.part? way).map fun (part, crossed) => (part, crossed + 1)
  | .function :: way, .application function _ => function.part? way
  | .argument :: way, .application _ argument => argument.part? way
  | _ :: _, _ => none

theorem exists_place_variable (scope : Scope) (crossed : Int) (name : String) (type : TypeCode)
    (index : Int) : ∃ placedType placedIndex, (Term.variable name type index).place scope crossed =
      .variable name placedType placedIndex := by
  rw [place]
  split
  · split
    · exact ⟨_, _, rfl⟩
    · exact ⟨_, _, rfl⟩
  · exact ⟨_, _, rfl⟩

/-- The parts of a term that is put into a scope are its parts, put there from below the binders
that are crossed on the way to them as well. -/
theorem part?_place (scope : Scope) (way : List Turn) (crossed : Int) (term : Term) :
    (term.place scope crossed).part? way =
      (term.part? way).map fun (part, depth) => (part.place scope (crossed + depth), depth) := by
  induction way generalizing crossed term with
  | nil => simp only [part?, Option.map_some, Int.natCast_zero, Int.add_zero]
  | cons turn way hypothesis =>
    cases term using induction with
    | occurrence name type index =>
      obtain ⟨placedType, placedIndex, placed⟩ :=
        exists_place_variable scope crossed name type index
      rw [placed]
      cases turn <;> rfl
    | abstraction name type body _ =>
      cases turn with
      | body =>
        rw [place, part?, part?, hypothesis, Option.map_map, Option.map_map]
        refine congrArg (Option.map · _) (funext fun (part, depth) => ?_)
        have deeper : crossed + 1 + (depth : Int) = crossed + ((depth + 1 : Nat) : Int) := by omega
        simp only [Function.comp_apply, deeper]
      | _ => rfl
    | application function argument _ _ =>
      cases turn with
      | function => rw [place, part?, part?, hypothesis]
      | argument => rw [place, part?, part?, hypothesis]
      | _ => rfl
    | external function missing arguments => cases turn <;> rfl

end Term

/-! ### Terms in their scopes -/

/-- What a name stands for in a scope: a known one for its term in that scope, and another one for
the variable of the parameter that it refers to, or for a free variable. -/
def Session.occurrence (session : Session) (scope : Scope) (name : String) : Term :=
  match session.names.get? name with
  | some term => term.place scope 0
  | none =>
    match scope.find? name 0 with
    | some (type, index) => .variable name type index
    | none => Term.free name

/-- Abstractions over parameters, the last one innermost, around a finished body. -/
def ParametersTree.enclose (body : Term) : ParametersTree → Term
  | .one name type => .abstraction name (.tuple type.parts) body
  | .more name type rest => .abstraction name (.tuple type.parts) (rest.enclose body)

mutual

/-- The term of a derivation in a scope, from the outside in. -/
def TermTree.elaborate (session : Session) : TermTree → Scope → Term
  | .occurrence name, scope => session.occurrence scope name
  | .number value, _ => .number value
  | .abstraction parameters body, scope =>
    parameters.enclose (body.elaborate session (parameters.known.reverse ++ scope))
  | .brackets terms, scope => terms.elaborate session scope

/-- The term of a list of terms in a scope. -/
def TermsTree.elaborate (session : Session) : TermsTree → Scope → Term
  | .one term, scope => term.elaborate session scope
  | .more before term, scope =>
    .application (before.elaborate session scope) (term.elaborate session scope)

end

/-- Runs a program whose terms are elaborated outside of all parameters. -/
def ProgramTree.elaborate (session : Session) : ProgramTree → Session × Option Term
  | .more name value rest => rest.elaborate (session.define name (value.elaborate session []))
  | .last term => (session, some (term.elaborate session []))
  | .definition name value => (session.define name (value.elaborate session []), none)

/-! ### Inside out and outside in -/

/-- All terms that a session knows are their own copies. -/
def Session.HasBound (session : Session) : Prop :=
  ∀ name term, session.names.get? name = some term → term.HasBound

theorem Session.Reachable.hasBound {session : Session} (reachable : session.Reachable) :
    session.HasBound :=
  fun name term known => (reachable.isWritten name term known).hasBound

namespace Session.HasBound

variable {session : Session}

theorem resolve (bound : session.HasBound) (name : String) : (session.resolve name).HasBound := by
  unfold Session.resolve
  cases known : session.names.get? name with
  | none => exact trivial
  | some term =>
    show (term.shift 0 0).HasBound
    rw [Term.HasBound.shift_zero 0 (bound name term known)]
    exact bound name term known

theorem define (bound : session.HasBound) {term : Term} (termBound : term.HasBound)
    (name : String) : (session.define name term).HasBound := by
  intro other known found
  rw [Session.define, Table.get?_insert] at found
  split at found
  · obtain rfl := Option.some.inj found
    exact termBound
  · exact bound other known found

/-- A known name in a scope stands for its term there. -/
theorem place_resolve (bound : session.HasBound) (scope : Scope) (name : String) :
    (session.resolve name).place scope 0 = session.occurrence scope name := by
  unfold Session.resolve Session.occurrence
  cases known : session.names.get? name with
  | none => rfl
  | some term =>
    show (term.shift 0 0).place scope 0 = term.place scope 0
    rw [Term.HasBound.shift_zero 0 (bound name term known)]

end Session.HasBound

theorem ParametersTree.hasBound_abstract (parameters : ParametersTree) {body : Term}
    (bound : body.HasBound) : (parameters.abstract body).HasBound := by
  induction parameters with
  | one name type =>
    exact ⟨Term.capture_capture name _ _ 1, bound.capture name _ Int.one_pos⟩
  | more name type rest hypothesis =>
    exact ⟨Term.capture_capture name _ _ 1, hypothesis.capture name _ Int.one_pos⟩

/-- Abstractions over parameters in a scope have a body in the scope of the parameters. -/
theorem ParametersTree.place_abstract (parameters : ParametersTree) (scope : Scope) (body : Term) :
    (parameters.abstract body).place scope 0 =
      parameters.enclose (body.place (parameters.known.reverse ++ scope) 0) := by
  induction parameters generalizing scope with
  | one name type => exact Term.place_abstract scope name type.parts body
  | more name type rest hypothesis =>
    rw [ParametersTree.abstract, Term.place_abstract, hypothesis, enclose, known,
      List.reverse_cons, List.append_assoc, List.singleton_append]

namespace TermsTree

theorem hasBound_term {session : Session} {terms : TermsTree}
    (each : ∀ term ∈ terms.list, (term.term session).HasBound) :
    (terms.term session).HasBound := by
  induction terms with
  | one term => exact each term (List.mem_singleton_self term)
  | more before term hypothesis =>
    obtain ⟨earlier, last⟩ := List.forall_mem_append.1 each
    exact ⟨hypothesis earlier, last term (List.mem_singleton_self term)⟩

theorem place_term {session : Session} {terms : TermsTree} {scope : Scope}
    (each : ∀ term ∈ terms.list,
      (term.term session).place scope 0 = term.elaborate session scope) :
    (terms.term session).place scope 0 = terms.elaborate session scope := by
  induction terms with
  | one term => exact each term (List.mem_singleton_self term)
  | more before term hypothesis =>
    obtain ⟨earlier, last⟩ := List.forall_mem_append.1 each
    rw [TermsTree.term, Term.place, hypothesis earlier, last term (List.mem_singleton_self term),
      elaborate]

end TermsTree

namespace TermTree

variable {session : Session}

theorem hasBound_term (bound : session.HasBound) (term : TermTree) :
    (term.term session).HasBound := by
  induction term with
  | occurrence name => exact bound.resolve name
  | number value => exact fun _ => rfl
  | abstraction parameters body hypothesis => exact parameters.hasBound_abstract hypothesis
  | brackets terms hypothesis => exact TermsTree.hasBound_term hypothesis

/-- The term that is read from the inside out, put into a scope, is the one that is elaborated
there from the outside in. -/
theorem place_term (bound : session.HasBound) (term : TermTree) (scope : Scope) :
    (term.term session).place scope 0 = term.elaborate session scope := by
  induction term generalizing scope with
  | occurrence name => exact bound.place_resolve scope name
  | number value => rfl
  | abstraction parameters body hypothesis =>
    rw [TermTree.term, parameters.place_abstract, hypothesis, elaborate]
  | brackets terms hypothesis =>
    exact TermsTree.place_term fun term member => hypothesis term member scope

theorem term_eq_elaborate (bound : session.HasBound) (term : TermTree) :
    term.term session = term.elaborate session [] := by
  rw [← place_term bound, Term.place_nil]

end TermTree

theorem ProgramTree.run_eq_elaborate {session : Session} (bound : session.HasBound)
    (program : ProgramTree) : program.run session = program.elaborate session := by
  induction program generalizing session with
  | more name value rest hypothesis =>
    rw [run, elaborate, ← value.term_eq_elaborate bound]
    exact hypothesis (bound.define (value.hasBound_term bound) name)
  | last term => rw [run, elaborate, term.term_eq_elaborate bound]
  | definition name value => rw [run, elaborate, value.term_eq_elaborate bound]

namespace Session

/-! ### What names refer to -/

/-- A name that the session does not know refers to the innermost parameter of that name: its index
is the number of binders crossed and its type is what the parameter is annotated with. -/
theorem occurrence_of_parameter {session : Session} {name : String}
    (unknown : session.names.get? name = none) {inner outer : Scope} {parts : List Symbol}
    (absent : name ∉ inner.map Prod.fst) (unreserved : (inner.length : Int) + 1 ≠ freeIndex) :
    session.occurrence (inner ++ (name, parts) :: outer) name =
      .variable name (.tuple parts) (inner.length + 1) := by
  have crossed : (0 : Int) + inner.length + 1 = inner.length + 1 := by omega
  have below : (0 : Int) + inner.length + 1 ≠ freeIndex := by
    rw [crossed]
    exact unreserved
  rw [occurrence, unknown]
  simp only [Scope.find?_append absent below, crossed]

/-- A name that the session does not know is free if no parameter has it. -/
theorem occurrence_of_free {session : Session} {name : String}
    (unknown : session.names.get? name = none) {scope : Scope}
    (absent : name ∉ scope.map Prod.fst) : session.occurrence scope name = Term.free name := by
  rw [occurrence, unknown]
  simp only [Scope.find?_eq_none absent]

/-- What a variable that is free in the term of a known name refers to where the name is used: the
innermost parameter of its own name around that place. Its index counts the binders of the term that
it is below as well. -/
theorem part?_occurrence_of_parameter {session : Session} {name : String} {term : Term}
    (known : session.names.get? name = some term) {way : List Term.Turn} {sought : String}
    {type : TypeCode} {depth : Nat}
    (free : term.part? way = some (.variable sought type freeIndex, depth)) {inner outer : Scope}
    {parts : List Symbol} (absent : sought ∉ inner.map Prod.fst)
    (unreserved : (depth : Int) + inner.length + 1 ≠ freeIndex) :
    (session.occurrence (inner ++ (sought, parts) :: outer) name).part? way =
      some (.variable sought (.tuple parts) (depth + inner.length + 1), depth) := by
  rw [occurrence, known]
  simp only [Term.part?_place, free, Option.map_some, Int.zero_add, Term.place, if_true,
    Scope.find?_append absent unreserved]

/-- A variable that is free in the term of a known name stays free where no parameter has its
name. -/
theorem part?_occurrence_of_free {session : Session} {name : String} {term : Term}
    (known : session.names.get? name = some term) {way : List Term.Turn} {sought : String}
    {type : TypeCode} {depth : Nat}
    (free : term.part? way = some (.variable sought type freeIndex, depth)) {scope : Scope}
    (absent : sought ∉ scope.map Prod.fst) :
    (session.occurrence scope name).part? way =
      some (.variable sought type freeIndex, depth) := by
  rw [occurrence, known]
  simp only [Term.part?_place, free, Option.map_some, Term.place, if_true,
    Scope.find?_eq_none absent]

/-- A text that is accepted is read as its derivation, elaborated from the outside in. -/
theorem Reachable.exists_elaborate {session : Session} (reachable : session.Reachable)
    {code : String} {result : Option Term} (ok : (session.read code).2 = .ok result) :
    ∃ program : ProgramTree,
      program.IsDerivationOf ((Scan.ofText code).tokens.map Token.kind) ∧
        session.read code = ((program.elaborate session).1, .ok (program.elaborate session).2) := by
  obtain ⟨-, program, derivation, read⟩ := exists_isDerivationOf ok
  refine ⟨program, derivation, ?_⟩
  rw [read, ProgramTree.run_eq_elaborate reachable.hasBound]

/-- What the term of a text is printed as. -/
def printed (session : Session) (code : String) : Option String :=
  match (session.read code).2 with
  | .ok (some term) => term.print.toOption
  | _ => none

/-- A parameter does not hide a known name, and it binds what is free in the term of another one. -/
theorem printed_known_names :
    let session := (Session.arithmetic.read "(define x 3) (define m y)").1
    session.Reachable ∧
      session.printed "(lambda (x:num) x)" = some "(lambda (x:('num',)) 3.0)" ∧
        session.printed "(lambda (x:num) x)" ≠ some "(lambda (x:('num',)) x-1)" ∧
          session.printed "m" = some "y-100000" ∧
            session.printed "(lambda (y:num) m)" = some "(lambda (y:('num',)) y-1)" :=
  ⟨.read .arithmetic _, by decide +kernel, by decide +kernel, by decide +kernel,
    by decide +kernel⟩

/-- A text that is accepted is read as its derivation, each of its terms elaborated from the outside
in. There a name that is not known refers to the innermost parameter of that name, with the number
of binders crossed as index and the annotation as type, or is free if there is none. -/
theorem Reachable.read_eq_elaborate {session : Session} (reachable : session.Reachable)
    (code : String) (accepted : (session.read code).2.isOk = true) :
    (∃ program : ProgramTree,
      program.IsDerivationOf ((Scan.ofText code).tokens.map Token.kind) ∧
        session.read code = ((program.elaborate session).1, .ok (program.elaborate session).2)) ∧
      ∀ (known : Session) (name : String), known.names.get? name = none →
        (∀ (inner outer : Scope) (parts : List Symbol), name ∉ inner.map Prod.fst →
          (inner.length : Int) + 1 ≠ freeIndex →
            known.occurrence (inner ++ (name, parts) :: outer) name =
              .variable name (.tuple parts) (inner.length + 1)) ∧
        ∀ scope : Scope, name ∉ scope.map Prod.fst →
          known.occurrence scope name = Term.free name := by
  have result : ∃ result, (session.read code).2 = .ok result := by
    cases found : (session.read code).2 with
    | ok result => exact ⟨result, rfl⟩
    | error failure =>
      rw [found] at accepted
      cases accepted
  obtain ⟨result, ok⟩ := result
  obtain ⟨program, derivation, read⟩ := reachable.exists_elaborate ok
  refine ⟨⟨program, derivation, read⟩, fun known name unknown =>
    ⟨fun _ _ _ absent unreserved => occurrence_of_parameter unknown absent unreserved,
      fun _ absent => occurrence_of_free unknown absent⟩⟩

/-- A free variable of a known term, a parameter that hides another one, and a name that is free. -/
theorem read_eq_elaborate_of_nested :
    let session := (Session.arithmetic.read "(define m (+ y))").1
    let code := "(lambda (y:num x:num) (lambda (x:num=>num) (x (m z))))"
    ∃ program : ProgramTree,
      program.IsDerivationOf ((Scan.ofText code).tokens.map Token.kind) ∧
        session.read code = ((program.elaborate session).1, .ok (program.elaborate session).2) ∧
          session.printed code = some ("(lambda (y:('num',)) (lambda (x:('num',)) " ++
            "(lambda (x:('num', 'num')) (x-1 ((+(__x__-2,__x__-1) y-3) z-100000)))))") := by
  intro session code
  have accepted : (session.read code).2.isOk = true := by decide +kernel
  obtain ⟨⟨program, derivation, read⟩, -⟩ :=
    Reachable.read_eq_elaborate (.read .arithmetic _) code accepted
  exact ⟨program, derivation, read, by decide +kernel⟩

end Session

end WordArithmetic
