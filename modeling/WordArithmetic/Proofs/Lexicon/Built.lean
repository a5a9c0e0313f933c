/-
This file says which lexicons can be built, and what their words mean.

A lexicon is built over any session: lines are added one at a time, and a wrong line leaves the
definitions that it made before it went wrong. If the terms of the session are written, as those of
arithmetic are, then all terms that come into a lexicon in this way are, and so are the terms of the
words that it cuts questions into.
-/

import WordArithmetic.Proofs.Failure
import WordArithmetic.Proofs.Lambda.Reader
import WordArithmetic.Proofs.Lexicon.Macros

namespace WordArithmetic

namespace Lexicon

/-- A lexicon that comes about over a session by adding lines, right or wrong, and by looking up its
phrases from some time on. -/
inductive Built (start : Session) : Lexicon → Prop
  | empty : Built start (empty start)
  | addLine {lexicon : Lexicon} (built : Built start lexicon) (line : LexicalLine) :
      Built start (lexicon.addLine line).1
  | lookUpAll {lexicon : Lexicon} (built : Built start lexicon) : Built start lexicon.lookUpAll

/-- A lexicon has an entry with this term. -/
def HasTerm (lexicon : Lexicon) (term : Term) : Prop :=
  ∃ meanings ∈ lexicon.phrases.values, ∃ name, meanings.get? name = some (some term)

/-- The terms of a lexicon have types. -/
def IsTyped (lexicon : Lexicon) : Prop :=
  ∀ term, lexicon.HasTerm term → ∃ type, term.typecheck = .ok type

/-- Whether all terms of a lexicon have types. -/
def checksTypes (lexicon : Lexicon) : Bool :=
  lexicon.phrases.values.all fun meanings => meanings.values.all fun term =>
    term.all fun term => term.typecheck.toBool

theorem isTyped_of_checksTypes {lexicon : Lexicon} (checked : lexicon.checksTypes = true) :
    lexicon.IsTyped := by
  rintro term ⟨meanings, member, name, found⟩
  have inside := List.all_eq_true.1 (List.all_eq_true.1 checked meanings member) (some term)
    (Table.mem_values_of_get? found)
  rw [Option.all_some] at inside
  cases typed : term.typecheck with
  | error failure =>
    rw [typed] at inside
    cases inside
  | ok type => exact ⟨type, rfl⟩

/-- A list of words that a lexicon has cut questions into. -/
def Cuts (lexicon : Lexicon) (words : Array Word) : Prop :=
  ∀ word ∈ words, ∃ question, word ∈ lexicon.words question

/-- The lexicon of a list of lines is built. -/
theorem built_ofLines {start : Session} {lines : List LexicalLine} {lexicon : Lexicon}
    (made : ofLines start lines = .ok lexicon) : lexicon.Built start := by
  unfold ofLines at made
  obtain ⟨last, folded, finished⟩ := bind_eq_ok made
  obtain rfl := Except.ok.inj finished
  refine Built.lookUpAll (foldlM_keeps (fun before line next built added => ?_) Built.empty folded)
  have right := built.addLine line
  split at added
  · rename_i outcome
    obtain rfl := Except.ok.inj added
    rw [outcome] at right
    exact right
  · cases added

/-! ### Terms -/

/-- A line brings in the term of its program, and no other one. -/
theorem HasTerm.of_addLine {lexicon : Lexicon} {line : LexicalLine} {term : Term}
    (has : (lexicon.addLine line).1.HasTerm term) :
    lexicon.HasTerm term ∨ (lexicon.session.read line.code).2 = .ok (some term) := by
  unfold addLine at has
  cases program : lexicon.session.read line.code with
  | mk session found =>
    rw [program] at has
    cases found with
    | error failure => exact Or.inl has
    | ok entered =>
      obtain ⟨meanings, member, name, known⟩ := has
      obtain ⟨phrase, place⟩ := Table.exists_get?_of_mem_values member
      rw [Table.get?_insert] at place
      split at place
      · obtain rfl := Option.some.inj place
        rw [Table.get?_insert] at known
        split at known
        · obtain rfl := Option.some.inj known
          exact Or.inr rfl
        · cases old : lexicon.phrases.get? (Text.lowerCase line.phrase) with
          | none =>
            rw [old] at known
            cases known
          | some before =>
            rw [old] at known
            exact Or.inl ⟨before, Table.mem_values_of_get? old, name, known⟩
      · exact Or.inl ⟨meanings, Table.mem_values_of_get? place, name, known⟩

/-- If a lexicon is built over a session of written terms, its programs are read in sessions of
written terms, and its own terms are written. -/
theorem Built.isWritten {start : Session} {lexicon : Lexicon} (built : lexicon.Built start)
    (written : start.IsWritten) :
    lexicon.session.IsWritten ∧ ∀ term, lexicon.HasTerm term → term.Written := by
  induction built with
  | empty =>
    refine ⟨written, ?_⟩
    rintro term ⟨meanings, member, _⟩
    cases member
  | @addLine lexicon _ line hypothesis =>
    obtain ⟨sessionWritten, termsWritten⟩ := hypothesis
    obtain ⟨after, program⟩ := sessionWritten.read line.code
    refine ⟨?_, fun term has => ?_⟩
    · unfold Lexicon.addLine
      cases outcome : lexicon.session.read line.code with
      | mk session found =>
        rw [outcome] at after
        cases found with
        | error failure => exact after
        | ok entered => exact after
    · rcases has.of_addLine with old | new
      · exact termsWritten term old
      · exact program term new
  | lookUpAll _ hypothesis => exact hypothesis

section Words

variable {start : Session} {lexicon : Lexicon} {words : Array Word}

/-- The terms of words are written. -/
theorem Built.written (built : lexicon.Built start) (written : start.IsWritten)
    (cuts : lexicon.Cuts words) {word : Word} (member : word ∈ words) {name : String} {term : Term}
    (found : word.meanings.get? name = some (some term)) : term.Written := by
  obtain ⟨question, cut⟩ := cuts word member
  rcases get?_words cut found with ⟨_, value, equal⟩ | ⟨meanings, known, entered⟩
  · obtain rfl := Option.some.inj equal
    exact Term.Written.number value
  · exact (built.isWritten written).2 term ⟨meanings, known, name, entered⟩

/-- A parser has a shift for every meaning of words that are cut. -/
theorem Cuts.mem_macros (cuts : lexicon.Cuts words) {word : Word} (member : word ∈ words)
    {name : String} (has : word.meanings.contains name = true) : name ∈ lexicon.macros := by
  obtain ⟨question, cut⟩ := cuts word member
  exact mem_macros_of_contains cut has

/-- The meanings of words that are cut have types if the terms of the lexicon have. -/
theorem Cuts.exists_logicalType (cuts : lexicon.Cuts words) (typed : lexicon.IsTyped)
    {word : Word} (member : word ∈ words) {name : String}
    (has : word.meanings.contains name = true) : ∃ type, word.logicalType name = .ok type := by
  obtain ⟨question, cut⟩ := cuts word member
  exact Lexicon.exists_logicalType
    (fun meanings known name term entered => typed term ⟨meanings, known, name, entered⟩) cut has

end Words

end Lexicon

end WordArithmetic
