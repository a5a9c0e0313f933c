/-
This file is the command line program. It reads the files that its arguments name, runs, and
prints the log on the error stream.
-/

import WordArithmetic.CommandLine.Outcome

namespace WordArithmetic.CommandLine

/-- The line that shows how the program is called. -/
def usage : String :=
  "usage: word-arithmetic [-h] [--test TEST] [--lexicon LEXICON] [--learner NAME] " ++
    "[--epochs N] [--margin X] [--hard] [--alpha0 X] [--c X] [--beam N] [--log-level LEVEL] data"

/-- What the program prints when it is asked for help. -/
def helpText : String :=
  usage ++ "\n\nTrains a joint arithmetic semantic parser\n\n" ++ String.intercalate "\n"
    ["  data         training data (json lines with question and answer fields)",
     "  --test       evaluation data (defaults to the training data)",
     "  --lexicon    lexicon file (phrase<TAB>macro<TAB>lambda term)",
     "  --learner    perceptron or stocgrad",
     "  --epochs     number of epochs",
     "  --margin     margin of the perceptron",
     "  --hard       only the best valid parses are positive samples",
     "  --alpha0     first learning rate of stocgrad",
     "  --c          decay of the learning rate of stocgrad",
     "  --beam       width of the beam",
     "  --log-level  least severity of the lines that are shown"]

/-- Reads a file; one that cannot be read counts as missing. -/
def readNamed (name : String) : IO (String × Except Failure String) := do
  try return (name, .ok (← IO.FS.readFile name))
  catch _ => return (name, .error (.missingFile name))

end WordArithmetic.CommandLine

open WordArithmetic CommandLine in
/-- Runs the program; the exit code tells how it went. -/
def main (arguments : List String) : IO UInt32 := do
  let request := Request.ofTexts arguments
  let texts ← request.fileNames.mapM readNamed
  let outcome := request.outcome fun name =>
    (entryOf? name texts).getD (.error (.missingFile name))
  match outcome with
  | .help =>
    IO.println helpText
    return 0
  | .refused =>
    IO.eprintln usage
    return 2
  | .finished log =>
    for line in log do
      IO.eprintln line.print
    return 0
  | .failed failure =>
    IO.eprintln failure.message
    return 1
