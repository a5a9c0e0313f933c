/-
This file says which file a name stands for, and how files are read and written.

A name is a path, in which a slash ends each step but the last. It starts at the root if it begins
with a slash and at the working directory otherwise; an empty step and a single dot stay where they
are, and two dots lead up. Every step has to start from a directory, so that a name with a slash
behind a file cannot be read. Two names that lead to one place stand for one file, and what is
written there last is what is read.

Writing makes a file but never a directory: the place a file lies in has to exist. So the
directories are those that lead to the working directory, and the one of the device that holds
nothing and forgets what it is given.
-/

import WordArithmetic.Failure
import WordArithmetic.Table

namespace WordArithmetic.CommandLine

/-- The steps from the root to a place. -/
abbrev Location := List String

/-- The files that can be read, each with its text. -/
abbrev FileTree := Table Location String

/-- The working directory. Its last step has a name that no path can spell. -/
def workingDirectory : Location := ["tmp", "."]

/-- The file that stays empty whatever is written to it. -/
def nullDevice : Location := ["dev", "null"]

/-- The most bytes of a path. -/
def longestPath : Nat := 4095

/-- The most bytes of the name of a file or a directory. -/
def longestName : Nat := 255

/-- Whether a place is a directory. -/
def isDirectory (place : Location) : Bool :=
  place.isPrefixOf workingDirectory || place.isPrefixOf nullDevice.dropLast

/-- The steps of a path, unless it is no name at all. -/
def stepsOf (path : String) : Except Failure (List String) :=
  if path.contains '\x00' then .error .nullInName
  else if path.isEmpty then .error (.missingFile path)
  else if path.utf8ByteSize > longestPath then .error (.nameTooLong path)
  else .ok (path.splitOn "/")

namespace FileTree

/-- The tree before any file is written. -/
def start : FileTree :=
  Table.empty.insert nullDevice ""

/-- Takes one step of a path. -/
def advance (tree : FileTree) (path : String) (place : Location) (step : String) :
    Except Failure Location :=
  if tree.contains place then .error (.notDirectory path)
  else if !isDirectory place then .error (.missingFile path)
  else if step.isEmpty || step == "." then .ok place
  else if step == ".." then .ok place.dropLast
  else if step.utf8ByteSize > longestName then .error (.nameTooLong path)
  else .ok (place ++ [step])

/-- Follows some first steps of a path from where it starts. -/
def follow (tree : FileTree) (path : String) (steps : List String) : Except Failure Location :=
  steps.foldlM (tree.advance path) (if path.startsWith "/" then [] else workingDirectory)

/-- Reads the file that a path stands for. -/
def read (tree : FileTree) (path : String) : Except Failure String := do
  let place ← tree.follow path (← stepsOf path)
  match tree.get? place with
  | some text => return text
  | none => if isDirectory place then .error (.notFile path) else .error (.missingFile path)

/-- Writes the file that a path stands for. A path with a slash behind its last step stands for a
directory, whether there is one or not. -/
def write (tree : FileTree) (path text : String) : Except Failure FileTree := do
  let steps := (← stepsOf path).filter fun step => !step.isEmpty
  let parent ← tree.follow path steps.dropLast
  let place ← tree.advance path parent (if path.endsWith "/" then "." else steps.getLastD ".")
  if isDirectory place then .error (.notFile path)
  else return if place == nullDevice then tree else tree.insert place text

/-- Writes texts under their names, one after the other. -/
def ofTexts (texts : List (String × String)) : Except Failure FileTree :=
  texts.foldlM (fun tree (path, text) => tree.write path text) start

end FileTree

end WordArithmetic.CommandLine
