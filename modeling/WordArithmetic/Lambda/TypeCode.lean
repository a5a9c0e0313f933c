/-
This file holds the types of terms, written as symbols.

A type is a tuple whose last part is what a function returns and whose other parts are what it
takes: a number is `('num',)` and a function from numbers to numbers `('num', 'num')`. An argument
that is itself a function stands as a tuple inside the tuple. The bottom symbol stands for the
absence of a type; it is a name and no tuple, so that it can be told from every type. Types given
from outside may be bare names, and the operations below go by their characters as if they were
parts.
-/

import WordArithmetic.Failure
import WordArithmetic.Symbol

namespace WordArithmetic

/-- The written form of a type. -/
abbrev TypeCode := Symbol

namespace TypeCode

/-- The name of the type of numbers. -/
def numberName : Symbol := .name "num"

/-- The type of numbers. -/
def number : TypeCode := .tuple [numberName]

/-- The absence of a type. -/
def untyped : TypeCode := .name "⊥"

/-- The number of parts of a tuple, or of characters of a name. -/
def length : TypeCode → Nat
  | .name text => text.length
  | .tuple parts => parts.length

/-- A tuple whose only part is a tuple is that part. -/
def stripBrackets : TypeCode → TypeCode
  | .tuple [.tuple parts] => .tuple parts
  | code => code

/-- A name becomes a tuple of one part. -/
def addBrackets : TypeCode → TypeCode
  | .name text => .tuple [.name text]
  | code => code

/-- The parts of a function type, given the parts of its argument and of its result: an argument
of one part is spliced in, any other one stands as a tuple. -/
def arrow (argument result : List Symbol) : List Symbol :=
  if argument.length == 1 then argument ++ result else .tuple argument :: result

/-- The type of functions from `argument` to `result`. A result without type leaves none, unless
the argument is a name of one character, which is put in front of the name of the result. -/
def concat (argument result : TypeCode) : Except Failure TypeCode :=
  match argument, result with
  | .tuple argument, .tuple result => .ok (.tuple (arrow argument result))
  | .tuple _, .name _ => .error .untypedBody
  | .name argument, .name result =>
    if argument.length == 1 then .ok (.name (argument ++ result)) else .error .untypedBody
  | .name argument, .tuple result =>
    if argument.length == 1 then .error .untypedBody
    else .ok (.tuple (.name argument :: result))

/-- Splits a type into its first part and the rest. -/
def uncons? : TypeCode → Option (Symbol × TypeCode)
  | .tuple (first :: rest) => some (first, .tuple rest)
  | .tuple [] => none
  | .name text =>
    match text.toList with
    | first :: rest => some (.name first.toString, .name (String.ofList rest))
    | [] => none

/-- The type of an application: what is left of the function's type after an argument of the
type that it takes first, and no type in any other case. -/
def application (function argument : TypeCode) : TypeCode :=
  if argument.length == 0 || function == untyped || argument == untyped then untyped
  else
    match uncons? function with
    | none => untyped
    | some (first, rest) =>
      if addBrackets first == argument && (stripBrackets rest).length != 0 then stripBrackets rest
      else untyped

end TypeCode

end WordArithmetic
