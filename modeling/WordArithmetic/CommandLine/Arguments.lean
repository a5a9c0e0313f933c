/-
This file reads the arguments of the command line.

An argument is either the name of a setting, possibly shortened and possibly with a value attached
by an equals sign, or a value. A value may stand behind the setting that it belongs to; a value
that belongs to no setting names the training data. After a separator all arguments are values.
The settings take effect from left to right, so that asking for help counts unless something before
it is wrong; but a shortened name that fits several settings is refused at once.
-/

import WordArithmetic.CommandLine.Options

namespace WordArithmetic.CommandLine

/-- An argument, as what it is by itself. -/
inductive Argument where
  | value (text : String)
  | separator
  | named (setting : Setting) (attached : Option String)
  | unknown
deriving DecidableEq, Repr

/-- What the arguments ask for: help, or a run with some training data and options. Arguments that
make no sense are refused. -/
inductive Request where
  | help
  | refused
  | run (data : String) (options : Options)

namespace Argument

/-- Whether a text is a negative number in plain digits, which is a value and not a name. One line
feed at its end is overlooked. -/
def isNegativeNumber (characters : List Char) : Bool :=
  let isDigit := fun character : Char => (Text.digitValue? character).isSome
  let kept := if characters.getLast? == some '\n' then characters.dropLast else characters
  match kept with
  | '-' :: rest =>
    match rest.dropWhile isDigit with
    | [] => !rest.isEmpty
    | '.' :: fraction => !fraction.isEmpty && fraction.all isDigit
    | _ => false
  | _ => false

/-- The letter that is the short name of help. -/
def helpLetter : Char := 'h'

/-- The request for help of a short name with letters behind it, which have to be the same letter
again. -/
def askForHelp (letters : List Char) : Argument :=
  .named .help (if letters.all (· == helpLetter) then none else some (String.ofList letters))

/-- An argument that begins with a dash and is not the name of a setting. -/
def ofUnnamed (characters : List Char) : Argument :=
  if isNegativeNumber characters || characters.contains ' ' then .value (String.ofList characters)
  else .unknown

/-- What an argument is by itself; nothing if it is a shortened name that fits several
settings. -/
def ofText (text : String) : Option Argument :=
  let characters := text.toList
  match characters with
  | '-' :: '-' :: _ =>
    let name := characters.takeWhile (· != '=')
    let attached := match characters.drop name.length with
      | _ :: rest => some (String.ofList rest)
      | [] => none
    match Setting.candidates name with
    | [] => some (ofUnnamed characters)
    | [setting] => some (.named setting attached)
    | _ => none
  | ['-', 'h', '='] => some (.named .help (some ""))
  | '-' :: 'h' :: '=' :: letters | '-' :: 'h' :: letters => some (askForHelp letters)
  | '-' :: _ :: _ => some (ofUnnamed characters)
  | _ => some (.value text)

/-- What the arguments are, up to a separator and after it. -/
def ofTexts : List String → Option (List Argument)
  | [] => some []
  | text :: rest =>
    if text == "--" then some (.separator :: rest.map .value)
    else do
      let first ← ofText text
      return first :: (← ofTexts rest)

end Argument

namespace Request

/-- Reads arguments one after the other. `data` is the name of the training data, if it is known,
and `excess` tells whether there was an argument without use. A separator next to the name of the
training data is of use. -/
def ofArguments (data : Option String) (options : Options) (excess : Bool) :
    List Argument → Request
  | [] =>
    match data with
    | some name => if excess then .refused else .run name options
    | none => .refused
  | .named .help attached :: _ => if attached.isSome then .refused else .help
  | .named setting (some value) :: rest =>
    match setting.needsValue, options.set? setting value with
    | true, some changed => ofArguments data changed excess rest
    | _, _ => .refused
  | .named setting none :: .value value :: rest =>
    if setting.needsValue then
      match options.set? setting value with
      | some changed => ofArguments data changed excess rest
      | none => .refused
    else
      match options.set? setting "" with
      | some changed => ofArguments data changed excess (.value value :: rest)
      | none => .refused
  | .named setting none :: rest =>
    match setting.needsValue, options.set? setting "" with
    | false, some changed => ofArguments data changed excess rest
    | _, _ => .refused
  | .unknown :: rest => ofArguments data options true rest
  | .separator :: rest => ofArguments data options (excess || data.isSome) rest
  | .value name :: .separator :: rest =>
    match data with
    | some _ => ofArguments data options true rest
    | none => ofArguments (some name) options excess rest
  | .value name :: rest =>
    match data with
    | some _ => ofArguments data options true rest
    | none => ofArguments (some name) options excess rest

/-- What a list of arguments asks for. -/
def ofTexts (texts : List String) : Request :=
  match Argument.ofTexts texts with
  | some found => ofArguments none Options.default false found
  | none => .refused

end Request

end WordArithmetic.CommandLine
