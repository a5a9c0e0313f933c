/-
This file substitutes in a term step by step, from left to right.

What is put in the place of a variable may hang on the term itself: where a term is substituted
into itself, each occurrence receives the term as it has become up to that point. It may also be
missing, and then the substitution stops at the first occurrence and leaves the term half changed.
So the replacement is a function from what the term is at present, and the result tells whether the
substitution has come to its end. With a replacement that never changes, this is substitution.
-/

import WordArithmetic.Lambda.Term

namespace WordArithmetic

namespace Term

/-- What is put in the place of a variable, given what the part of the term around it is now. -/
abbrev Supply := Term → Option Term

/-- What a substitution has made of a term, and whether it goes on from there. -/
structure Stage where
  term : Term
  running : Bool

/-- What a substitution has made of the arguments of an external function, of which so many are
still missing, and whether it goes on from there. -/
structure ArgumentStage where
  missing : Int
  arguments : List Term
  running : Bool

mutual

/-- Removes the binder that lies `depth` binders above, as long as the substitution runs. -/
def substituteFrom (name : Option String) (supply : Supply) (depth : Int) (running : Bool) :
    Term → Stage
  | .variable other type index =>
    if !running then ⟨.variable other type index, false⟩
    else if name = some other ∧ index = depth then
      match supply (.variable other type index) with
      | some found => ⟨found.shift (depth - 1) 0, true⟩
      | none => ⟨.variable other type index, false⟩
    else if index - depth > 0 then ⟨.variable other type (index - 1), true⟩
    else ⟨.variable other type index, true⟩
  | .abstraction other type body =>
    let inner := substituteFrom name (fun body => supply (.abstraction other type body)) (depth + 1)
      running body
    ⟨.abstraction other type inner.term, inner.running⟩
  | .application function argument =>
    let left := substituteFrom name (fun function => supply (.application function argument)) depth
      running function
    let right := substituteFrom name (fun argument => supply (.application left.term argument))
      depth left.running argument
    ⟨.application left.term right.term, right.running⟩
  | .external function missing arguments =>
    let own : Bool := depth < missing
    let sought := if own then name.or (some placeholderName) else name
    let inner := substituteEach sought
      (fun missing arguments => supply (.external function missing arguments)) (depth + missing)
      own [] missing running arguments
    ⟨.external function inner.missing inner.arguments, inner.running⟩

/-- Substitutes in the arguments of an external function one after the other. `done` holds those
before them, last one first, and `own` tells whether it is a binder of the function itself that is
removed, so that every placeholder that is replaced is one less missing. -/
def substituteEach (name : Option String) (supply : Int → List Term → Option Term) (depth : Int)
    (own : Bool) (done : List Term) (missing : Int) (running : Bool) :
    List Term → ArgumentStage
  | [] => ⟨missing, done.reverse, running⟩
  | first :: rest =>
    let stage := substituteFrom name
      (fun first => supply missing (done.reverse ++ first :: rest)) depth running first
    let replaced := own && stage.running && first.isVariable name depth
    substituteEach name supply depth own (stage.term :: done)
      (if replaced then missing - 1 else missing) stage.running rest

end

/-! ### Substitution of one term -/

mutual

/-- With a replacement that never changes, the substitution runs to its end and gives the term of
plain substitution. -/
theorem substituteFrom_const (name : Option String) (replacement : Term) :
    ∀ (depth : Int) (term : Term),
      substituteFrom name (fun _ => some replacement) depth true term =
        ⟨substitute name replacement depth term, true⟩
  | depth, .variable other type index => by
    simp only [substituteFrom, substitute, Bool.not_true, Bool.false_eq_true, if_false]
    split
    · rfl
    · split <;> rfl
  | depth, .abstraction other type body => by
    simp only [substituteFrom, substitute, substituteFrom_const name replacement (depth + 1) body]
  | depth, .application function argument => by
    simp only [substituteFrom, substitute, substituteFrom_const name replacement depth function,
      substituteFrom_const name replacement depth argument]
  | depth, .external function missing arguments => by
    simp only [substituteFrom, substitute,
      substituteEach_const _ replacement (depth + missing) _ [] missing arguments,
      List.reverse_nil, List.nil_append]

/-- The same for the arguments of an external function. -/
theorem substituteEach_const (name : Option String) (replacement : Term) :
    ∀ (depth : Int) (own : Bool) (done : List Term) (missing : Int) (arguments : List Term),
      substituteEach name (fun _ _ => some replacement) depth own done missing true arguments =
        ⟨if own then missing - arguments.countP (isVariable name depth) else missing,
          done.reverse ++ substituteAll name replacement depth arguments, true⟩
  | depth, own, done, missing, [] => by
    simp [substituteEach, substituteAll]
  | depth, own, done, missing, first :: rest => by
    simp only [substituteEach, substituteAll, substituteFrom_const name replacement depth first,
      substituteEach_const name replacement depth own _ _ rest, List.reverse_cons,
      List.append_assoc, List.singleton_append, List.countP_cons]
    cases own <;> cases first.isVariable name depth
    · simp
    · simp
    · simp
    · simp
      omega

end

/-- The term that a substitution into a term other than a variable leaves behind, and why it has
stopped before its end, if it has. -/
def substituteInPlace (name : Option String) (supply : Supply) (depth : Int) (term : Term) :
    Term × Except Failure Unit :=
  match term with
  | .variable .. => (term, .error .notSupported)
  | _ =>
    let stage := substituteFrom name supply depth true term
    (stage.term, if stage.running then .ok () else .error .notSupported)

end Term

end WordArithmetic
