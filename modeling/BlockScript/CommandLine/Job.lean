import BlockScript.CommandLine.Files
import BlockScript.Format
import BlockScript.Program.Reading

/-!
# Jobs

A job shows one program, given as text or by the name of a script file, on the standard output
or in a file.  Everything that can go wrong with the program is found before anything is written,
and a text can always be written to a file that has been opened.
-/

namespace BlockScript

/-- The text with a line feed for every line end, be it a line feed, a carriage return, or both. -/
def normalizeLineEnds : Text → Text
  | [] => []
  | [c] => [if c = '\r' then '\n' else c]
  | '\r' :: '\n' :: cs => '\n' :: normalizeLineEnds cs
  | c :: d :: cs => (if c = '\r' then '\n' else c) :: normalizeLineEnds (d :: cs)

/-- The text in a file, which has to be UTF-8. -/
def decodeFile? (content : ByteArray) : Option Text :=
  content.utf8Decode?.map fun text => normalizeLineEnds text.toList

/-- What a program is shown from and how. -/
structure Job where
  source : Text
  inline : Bool
  format : Text
  /-- The path to write to; the standard output if empty. -/
  out : Text
  pretty : Bool
  deriving DecidableEq, Repr

/-- The ways in which a job can fail. -/
inductive JobError where
  | notAScript
  | path (error : PathError)
  | notText
  | parse (error : ParseError)
  | format (error : UnsupportedFormat)
  deriving DecidableEq, Repr

/-- A program as it is shown in the format of the given name. -/
def programAs (format source : Text) : Except JobError Text := do
  let blocks ← (parse source).mapError .parse
  (renderAs format blocks).mapError .format

/-- What a job leaves behind: the text on the standard output, the files, and its failure. -/
structure JobOutcome where
  stdout : Text
  files : Files
  failure? : Option JobError

namespace Job

/-- What the name of a script file ends in. -/
def extension : Text := ".pragmash".toList

/-- The source of the program. -/
def sourceText (job : Job) (files : Files) : Except JobError Text :=
  if job.inline then .ok job.source
  else if !extension.isSuffixOf job.source then .error .notAScript
  else do
    let content ← (files.read job.source).mapError .path
    (decodeFile? content).elim (.error .notText) .ok

/-- The program as it is shown. -/
def rendering (job : Job) (files : Files) : Except JobError Text := do
  let source ← job.sourceText files
  programAs job.format source

/-- A rule between the parts of an output. -/
def banner : Text := List.replicate 20 '='

/-- The program as it stands on the standard output. -/
def display (job : Job) (text : Text) : Text :=
  if job.pretty then
    Text.unlines [banner, "Parsed Blocks".toList, banner, text, banner, [], []]
  else text ++ ['\n']

/-- What is left behind once the program is known as it is shown. -/
def deliver (job : Job) (files : Files) (text : Text) : JobOutcome :=
  if job.out.isEmpty then ⟨job.display text, files, none⟩
  else
    match files.write job.out (String.ofList (text ++ ['\n'])).toUTF8 with
    | .error e => ⟨[], files, some (.path e)⟩
    | .ok files =>
      ⟨if job.pretty then "(wrote to ".toList ++ job.out ++ ")\n".toList else [], files, none⟩

/-- Does a job. -/
def run (job : Job) (files : Files) : JobOutcome :=
  match job.rendering files with
  | .ok text => job.deliver files text
  | .error e => ⟨[], files, some e⟩

end Job

/-- The wording of a failure, where it has one of its own. -/
def JobError.message? : JobError → Option Text
  | notAScript => some "Only .pragmash files are supported.".toList
  | parse error => some error.message
  | format error => some error.message
  | path error => error.message?
  | notText => none

end BlockScript
