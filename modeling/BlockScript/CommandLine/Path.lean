import BlockScript.Text.Basic

/-!
# Paths

Files and folders have places, given by the names that lead to them from the root.  A path leads
to a place by steps from the root or from the working folder.  Where a path leads is a matter of
its steps alone (`Path.target`); whether it can be followed depends on what is there.
-/

namespace BlockScript

/-- A place, by the names that lead to it from the root. -/
abbrev Place := List Text

/-- What can be wrong with a path. -/
inductive PathError where
  | nullCharacter
  | tooLong
  | missing
  | notAFolder
  | isAFolder
  deriving DecidableEq, Repr

/-- The wording of a mistake in the text of a path; the others have none of their own. -/
def PathError.message? : PathError → Option Text
  | nullCharacter => some "embedded null byte".toList
  | _ => none

/-- One step of a path. -/
inductive Step where
  | stay
  | up
  | into (name : Text)
  deriving DecidableEq, Repr

/-- The step that is written like this; nothing between two slashes is no step. -/
def Step.ofText? : Text → Option Step
  | [] => none
  | ['.'] => some .stay
  | ['.', '.'] => some .up
  | name => some (.into name)

/-- The place that a step leads to, be there something or not. -/
def Step.target (place : Place) : Step → Place
  | stay => place
  | up => place.dropLast
  | into name => place ++ [name]

/-- A path: the steps to a folder and the last step from there.  A path that ends in a slash asks
for a folder. -/
structure Path where
  fromRoot : Bool
  way : List Step
  last? : Option Step
  asksForFolder : Bool
  deriving DecidableEq, Repr

namespace Path

/-- How many bytes a name may take. -/
def maxNameSize : Nat := 255

/-- How many bytes a path may take. -/
def maxSize : Nat := 4095

/-- The number of bytes of a text in UTF-8. -/
def sizeOfText (text : Text) : Nat := (String.ofList text).utf8ByteSize

/-- The path that is written like this. -/
def ofText (text : Text) : Except PathError Path :=
  if '\x00' ∈ text then .error .nullCharacter
  else if maxSize < sizeOfText text then .error .tooLong
  else if text.isEmpty then .error .missing
  else
    let steps := (Text.pieces '/' text).filterMap Step.ofText?
    .ok ⟨text.head? = some '/', steps.dropLast, steps.getLast?, text.getLast? = some '/'⟩

/-- The place where a path starts. -/
def start (path : Path) (here : Place) : Place := if path.fromRoot then [] else here

/-- The place that a path leads to, be there something or not. -/
def target (path : Path) (here : Place) : Place :=
  (path.way ++ path.last?.toList).foldl Step.target (path.start here)

/-- The places of the folders that a path leads through. -/
def through (path : Path) (here : Place) : List Place :=
  path.way.scanl Step.target (path.start here)

end Path

end BlockScript
