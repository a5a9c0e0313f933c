/-
This file holds the terms of the meaning language: a typed lambda calculus over external
functions.

A variable carries its name, its type and an index. The index of a bound variable counts the
binders crossed on the way out to its own, which is number one for the nearest; a variable that
nothing has bound yet carries the reserved index `freeIndex`. An external function carries the
number of arguments it is still waiting for and the list of its arguments. Those not yet supplied
are placeholders, which are variables bound by the function itself as if it were a nest of
abstractions; that is why indexes below an external function are counted past its missing
arguments.
-/

import WordArithmetic.Lambda.TypeCode
import WordArithmetic.Value

namespace WordArithmetic

/-- The four operations of arithmetic. -/
inductive Operator where
  | addition
  | subtraction
  | multiplication
  | division
deriving DecidableEq, Repr

/-- How the denotation of an external function is found. -/
inductive Rule where
  /-- It is always this value. -/
  | fixed (value : Value)
  /-- It is computed from two numbers. -/
  | arithmetic (operator : Operator)

/-- An external function: its printed name, its rule, and the types of what it takes and
returns. A constant is an external function that takes nothing. -/
structure External where
  name : String
  rule : Rule
  argumentTypes : List Symbol
  resultType : Symbol

/-- A term. -/
inductive Term where
  | variable (name : String) (type : TypeCode) (index : Int)
  | abstraction (name : String) (type : TypeCode) (body : Term)
  | application (function argument : Term)
  | external (function : External) (missing : Int) (arguments : List Term)

/-- The index of a variable that nothing has bound. -/
def freeIndex : Int := 100000

/-- The name of the placeholders of external functions. -/
def placeholderName : String := "__x__"

namespace Operator

/-- All operators, in the order in which they are bound. -/
def all : List Operator := [addition, subtraction, multiplication, division]

/-- The sign of an operator. -/
def sign : Operator → String
  | addition => "+"
  | subtraction => "-"
  | multiplication => "*"
  | division => "/"

/-- The external function of an operator: it takes two numbers and returns one. -/
def external (operator : Operator) : External where
  name := operator.sign
  rule := .arithmetic operator
  argumentTypes := [TypeCode.numberName, TypeCode.numberName]
  resultType := TypeCode.numberName

end Operator

namespace External

/-- A constant of the given type. -/
def constant (value : Value) (type : Symbol) : External where
  name := "None"
  rule := .fixed value
  argumentTypes := []
  resultType := type

/-- The type of an external function, arguments and result. -/
def type (function : External) : TypeCode :=
  .tuple (function.argumentTypes ++ [function.resultType])

/-- The placeholders for arguments of the given types, outermost first. -/
def placeholders : List Symbol → List Term
  | [] => []
  | type :: rest => .variable placeholderName type (rest.length + 1) :: placeholders rest

/-- The term of an external function that has received no argument. -/
def term (function : External) : Term :=
  .external function function.argumentTypes.length (placeholders function.argumentTypes)

end External

namespace Term

/-- A number constant. -/
def number (value : Float) : Term :=
  (External.constant (.float value) TypeCode.numberName).term

/-- The variable of a name that nothing has bound. -/
def free (name : String) : Term :=
  .variable name TypeCode.untyped freeIndex

/-- What stands for the term of a program that has none. It shows that it is absent, and nothing
that it is applied to or that is applied to it has a type. -/
def missing : Term :=
  (External.constant .absent TypeCode.untyped).term

/-! ### Binding -/

/-- Binds the free variables of a name: each gets the type, and as index the number of binders
around it, of which `depth` are above the term. An external function shields its arguments. -/
def capture (name : String) (type : TypeCode) (depth : Int) : Term → Term
  | .variable other otherType index =>
    if name = other ∧ index = freeIndex then .variable other type.addBrackets depth
    else .variable other otherType index
  | .abstraction other otherType body =>
    .abstraction other otherType (body.capture name type (depth + 1))
  | .application function argument =>
    .application (function.capture name type depth) (argument.capture name type depth)
  | .external function missing arguments => .external function missing arguments

/-- The abstraction of a term over a name, which binds the free variables of that name in it. -/
def abstract (name : String) (type : TypeCode) (body : Term) : Term :=
  .abstraction name type (body.capture name type 1)

/-! ### Shifting and substitution -/

mutual

/-- Adds `amount` to the indexes that point out of the term, which lies below `depth` binders.
Abstractions are built anew, and so bind what has become free below them. -/
def shift (amount depth : Int) : Term → Term
  | .variable name type index =>
    .variable name type (if index - depth > 0 then index + amount else index)
  | .abstraction name type body => abstract name type (body.shift amount (depth + 1))
  | .application function argument =>
    .application (function.shift amount depth) (argument.shift amount depth)
  | .external function missing arguments =>
    .external function missing (shiftAll amount (depth + missing) arguments)

/-- Shifts the arguments of an external function. -/
def shiftAll (amount depth : Int) : List Term → List Term
  | [] => []
  | first :: rest => first.shift amount depth :: shiftAll amount depth rest

end

/-- Another term with the same content. -/
def copy (term : Term) : Term :=
  term.shift 0 0

/-- Whether a term is the variable of this name with this index. -/
def isVariable (name : Option String) (index : Int) : Term → Bool
  | .variable other _ otherIndex => name = some other && otherIndex = index
  | _ => false

mutual

/-- Removes the binder that lies `depth` binders above: its variable, found by name and index, is
replaced by a shifted copy of the replacement, and indexes that point further out go down by one.
Without a name it is the outermost placeholder binder of an external function that is removed,
and then every argument put in the place of a placeholder is one less missing. -/
def substitute (name : Option String) (replacement : Term) (depth : Int) : Term → Term
  | .variable other type index =>
    if name = some other ∧ index = depth then replacement.shift (depth - 1) 0
    else if index - depth > 0 then .variable other type (index - 1)
    else .variable other type index
  | .abstraction other type body =>
    .abstraction other type (substitute name replacement (depth + 1) body)
  | .application function argument =>
    .application (substitute name replacement depth function)
      (substitute name replacement depth argument)
  | .external function missing arguments =>
    let own : Bool := depth < missing
    let sought := if own then name.or (some placeholderName) else name
    let supplied := arguments.countP (isVariable sought (depth + missing))
    .external function (if own then missing - supplied else missing)
      (substituteAll sought replacement (depth + missing) arguments)

/-- Substitutes in the arguments of an external function. -/
def substituteAll (name : Option String) (replacement : Term) (depth : Int) :
    List Term → List Term
  | [] => []
  | first :: rest =>
    substitute name replacement depth first :: substituteAll name replacement depth rest

end

/-- Whether a variable has this name and index. The question is put to variables only. -/
def isBound (name : String) (index : Int) : Term → Except Failure Bool
  | .variable other _ otherIndex => .ok (name = other && otherIndex = index)
  | _ => .error .notSupported

end Term

end WordArithmetic
