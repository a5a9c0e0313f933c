/-
This file reads programs of the meaning language.

A program is a sequence of definitions, then a term unless there is a definition. A term is a
name, a number, a parenthesised sequence of terms (application, to the left), or an abstraction
over a list of typed parameters, of which the last is the innermost. In the type of a parameter the
arrow associates to the right.

Parentheses open five different constructs, so the reader is a machine that takes one token at a
time and keeps the constructs that are still open. A token with which no program can go on stops
the machine at once. A definition takes effect when the text ends behind it or a token follows that
can start a term; it then stays in effect even if the rest of the program turns out to be wrong.
-/

import WordArithmetic.Lambda.Term
import WordArithmetic.Lambda.Token
import WordArithmetic.Table

namespace WordArithmetic

/-- What the names of a program mean, and the definition that was read last. -/
structure Session where
  names : Table String Term
  lastDefinition : Option (String × Term)

/-- A parameter of an abstraction: its name and the parts of its type. -/
abbrev Parameter := String × List Symbol

/-- A construct that is being read, with what it has so far. -/
inductive Construct where
  /-- A program: a term, a definition, or its end if there is a definition. -/
  | program (defined : Bool)
  /-- A program with its term: its end. -/
  | complete (term : Term)
  /-- An opening parenthesis: the construct that it opens. -/
  | opened
  /-- An application in parentheses: an argument or the closing parenthesis. -/
  | terms (function : Term)
  /-- The word that starts an abstraction: an opening parenthesis. -/
  | abstraction
  /-- The parenthesis before the parameters: the first one. -/
  | parameters
  /-- The name of a parameter: a colon. -/
  | parameter (known : List Parameter) (name : String)
  /-- The type of a parameter: an operand. `inner` holds the operands to the left of the arrows in
  the innermost parenthesis, nearest first, and `outer` those in the parentheses around it. -/
  | operand (known : List Parameter) (name : String) (inner : List (List Symbol))
      (outer : List (List (List Symbol)))
  /-- An operand of a type: an arrow, the end of the parenthesis, or what follows the type. -/
  | typed (known : List Parameter) (name : String) (inner : List (List Symbol))
      (outer : List (List (List Symbol))) (type : List Symbol)
  /-- The parameters of an abstraction: its body. -/
  | body (known : List Parameter)
  /-- An abstraction with its body: the closing parenthesis. -/
  | bodyRead (known : List Parameter) (term : Term)
  /-- The word that starts a definition: a name. -/
  | definition
  /-- The name of a definition: its term. -/
  | defined (name : String)
  /-- A definition with its term: the closing parenthesis. -/
  | definedRead (name : String) (term : Term)
  /-- A definition with its closing parenthesis: what makes it take effect. -/
  | definitionClosed (name : String) (term : Term)

/-- The state of the reader: the innermost construct, those around it, and the session. -/
structure Reading where
  current : Construct
  around : List Construct
  session : Session

namespace Session

/-- The session in which nothing has a meaning. -/
def empty : Session := ⟨.empty, none⟩

/-- The session in which the four operators have their meaning. -/
def arithmetic : Session :=
  ⟨.ofList (Operator.all.map fun operator => (operator.sign, operator.external.term)), none⟩

/-- The term that a name stands for: what it means in the session, or else a free variable. -/
def resolve (session : Session) (name : String) : Term :=
  match session.names.get? name with
  | some term => term.copy
  | none => Term.free name

/-- Gives a name a meaning. -/
def bind (session : Session) (name : String) (term : Term) : Session :=
  { session with names := session.names.insert name term }

/-- Takes a definition into effect. -/
def define (session : Session) (name : String) (term : Term) : Session :=
  ⟨session.names.insert name term, some (name, term)⟩

/-- The meanings of a session, as a list of names. -/
def print (session : Session) : String :=
  "Bound names: " ++ String.intercalate "," session.names.keys

end Session

namespace Reading

/-- The beginning of a program. -/
def start (session : Session) : Reading :=
  ⟨.program false, [], session⟩

/-- Puts a term that has been read into the construct that waits for it. -/
def deliver (term : Term) : Construct → Option Construct
  | .program _ => some (.complete term)
  | .opened => some (.terms term)
  | .terms function => some (.terms (.application function term))
  | .body known => some (.bodyRead known term)
  | .defined name => some (.definedRead name term)
  | _ => none

/-- Whether a construct waits for a term. -/
def waitsForTerm : Construct → Bool
  | .program _ | .opened | .terms _ | .body _ | .defined _ => true
  | _ => false

/-- Puts a term that has been read into the innermost construct. -/
def put (reading : Reading) (term : Term) : Option Reading :=
  (deliver term reading.current).map fun current => { reading with current }

/-- Ends the innermost construct, which has become a term of the one around it. -/
def close (reading : Reading) (term : Term) : Option Reading :=
  match reading.around with
  | outer :: around => (deliver term outer).map fun current => { reading with current, around }
  | [] => none

/-- The type of operands joined by arrows, given the last one and those before it, nearest
first. -/
def joinArrows (last : List Symbol) (before : List (List Symbol)) : List Symbol :=
  before.foldl (fun result argument => TypeCode.arrow argument result) last

/-- The abstraction of a term over parameters, the last one innermost. -/
def abstractAll (known : List Parameter) (term : Term) : Term :=
  known.foldr (fun (name, parts) body => Term.abstract name (.tuple parts) body) term

/-- Reads one token, unless no program goes on with it. -/
def step (reading : Reading) (token : TokenKind) : Option Reading :=
  match reading.current, token with
  | .program defined, .opening =>
    some { reading with current := .opened, around := .program defined :: reading.around }
  | .opened, .opening => some { reading with around := .opened :: reading.around }
  | .terms function, .opening =>
    some { reading with current := .opened, around := .terms function :: reading.around }
  | .body known, .opening =>
    some { reading with current := .opened, around := .body known :: reading.around }
  | .defined name, .opening =>
    some { reading with current := .opened, around := .defined name :: reading.around }
  | .opened, .lambda => some { reading with current := .abstraction }
  | .opened, .define =>
    match reading.around with
    | [.program _] => some { reading with current := .definition }
    | _ => none
  | .terms function, .closing => reading.close function
  | .abstraction, .opening => some { reading with current := .parameters }
  | .parameters, .identifier name => some { reading with current := .parameter [] name }
  | .parameter known name, .colon => some { reading with current := .operand known name [] [] }
  | .operand known name inner outer, .identifier type =>
    some { reading with current := .typed known name inner outer [.name type] }
  | .operand known name inner outer, .opening =>
    some { reading with current := .operand known name [] (inner :: outer) }
  | .typed known name inner outer type, .arrow =>
    some { reading with current := .operand known name (type :: inner) outer }
  | .typed known name inner (next :: outer) type, .closing =>
    some { reading with current := .typed known name next outer (joinArrows type inner) }
  | .typed known name inner [] type, .closing =>
    some { reading with current := .body (known ++ [(name, joinArrows type inner)]) }
  | .typed known name inner [] type, .identifier next =>
    some { reading with current := .parameter (known ++ [(name, joinArrows type inner)]) next }
  | .bodyRead known term, .closing => reading.close (abstractAll known term)
  | .definition, .identifier name => some { reading with current := .defined name }
  | .definedRead name term, .closing =>
    some { reading with current := .definitionClosed name term, around := [] }
  | current, .identifier name =>
    if waitsForTerm current then reading.put (reading.session.resolve name) else none
  | current, .number value =>
    if waitsForTerm current then reading.put (.number value) else none
  | _, _ => none

/-- Takes the definition that was just closed into effect. -/
def settle (reading : Reading) : Reading :=
  match reading.current with
  | .definitionClosed name term =>
    { reading with current := .program true, session := reading.session.define name term }
  | _ => reading

/-- Whether a token can start a term. -/
def startsTerm : TokenKind → Bool
  | .opening | .identifier _ | .number _ => true
  | _ => false

/-- Reads tokens up to the first with which no program goes on, which is returned. -/
def advance (reading : Reading) : List Token → Reading × Option Token
  | [] => (reading, none)
  | token :: rest =>
    let ready := if startsTerm token.kind then reading.settle else reading
    match ready.step token.kind with
    | some next => next.advance rest
    | none => (ready, some token)

/-- The term of a program that ends here; a program of definitions alone has none. -/
def finish (reading : Reading) : Except Failure (Option Term) :=
  match reading.current with
  | .program true => .ok none
  | .complete term => .ok (some term)
  | _ => .error .unexpectedEnd

end Reading

/-- Reads a program. The session afterwards is returned in any case. -/
def Session.read (session : Session) (code : String) :
    Session × Except Failure (Option Term) :=
  let scan := Scan.ofText code
  match (Reading.start session).advance scan.tokens, scan.ending with
  | (reading, some token), _ =>
    (reading.session, .error (.unexpectedToken token.kind.shown token.position))
  | (reading, none), .illegal rest position =>
    (reading.session, .error (.illegalCharacter (String.ofList rest) position))
  | (reading, none), .finished => (reading.settle.session, reading.settle.finish)

end WordArithmetic
