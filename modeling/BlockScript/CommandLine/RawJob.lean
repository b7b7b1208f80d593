import BlockScript.CommandLine.Job
import BlockScript.Text.Raw

/-!
# Raw jobs

A program that is given as it stands may be a raw text, and so may what it is shown as.  A raw job
is carried out as a sequence of steps on the standard output and the files: the source is read and
its program put into words, then that is printed, or a file is opened, which empties it, and
written to.  A step that fails breaks the job off and leaves the world as it has become.

There may be no bytes for a text: in a file none for lone surrogates, and on the standard output
none for what its encoding lacks.
-/

namespace BlockScript

/-- A program as it is shown in the format of the given name.  In the listing lone surrogates stand
as they are, in JSON by their escapes. -/
def RawText.programAs (format : Text) (source : RawText) : Except JobError RawText :=
  match source.text? with
  | some text => (BlockScript.programAs format text).map .ofText
  | none =>
    let names := source.standIns
    (BlockScript.programAs format (names.lower source)).map fun text =>
      if format = Format.json.name then .ofText (names.raiseEscapes text) else names.raise text

/-- What a raw job shows: the program itself, or the script file of a name. -/
inductive RawSource where
  | program (raw : RawText)
  | script (name : Text)
  deriving DecidableEq, Repr

/-- What a program is shown from and how. -/
structure RawJob where
  source : RawSource
  format : Text
  /-- The path to write to; the standard output if empty. -/
  out : Text
  pretty : Bool
  deriving DecidableEq, Repr

/-- The ways in which a raw job can fail: those of a job, and that there are no bytes for what is to
be written to the file that has been opened, or for what is to be printed. -/
inductive RawJobError where
  | job (error : JobError)
  | write (error : EncodingError)
  | print (error : EncodingError)
  deriving DecidableEq, Repr

/-- What a raw job leaves behind: what is on the standard output, the files, and its failure. -/
structure RawOutcome where
  stdout : RawText
  files : Files
  failure? : Option RawJobError

/-- A job as a raw job. -/
def Job.raw (job : Job) : RawJob :=
  ⟨if job.inline then .program (.ofText job.source) else .script job.source, job.format, job.out,
    job.pretty⟩

/-- What a job leaves behind as what a raw job leaves behind. -/
def JobOutcome.raw (done : JobOutcome) : RawOutcome :=
  ⟨.ofText done.stdout, done.files, done.failure?.map .job⟩

/-! ## Steps -/

/-- What the encoding of the standard output has against a text, if anything. -/
abbrev Console := RawText → Option EncodingError

/-- What a job acts on: what is on the standard output, and the files. -/
structure World where
  stdout : RawText
  files : Files

/-- A step of a job.  It leaves a world behind also when it fails. -/
abbrev Act (α : Type) := ExceptT RawJobError (StateM World) α

namespace Act

variable {α : Type}

/-- The value of a step in a world, and the world it leaves behind. -/
def outcome (x : Act α) (w : World) : Except RawJobError α × World := x.run.run w

/-- Finds something out about the world, which stays as it is. -/
def ask (f : World → Except JobError α) : Act α := do ofExcept ((f (← get)).mapError .job)

/-- Adds to the standard output, unless there are no bytes for the text. -/
def print (console : Console) (text : RawText) : Act Unit := do
  if let some e := console text then throw (.print e)
  modify fun w => { w with stdout := w.stdout ++ text }

/-- Reads the content of a file. -/
def read (path : Text) : Act ByteArray := ask fun w => (w.files.read path).mapError .path

/-- Puts content in the place of a file, which is made new if it is not there. -/
def put (place : Place) (content : ByteArray) : Act Unit :=
  modify fun w =>
    { w with files := { w.files with contents := Files.put place content w.files.contents } }

/-- Opens a file for writing: it is made new, or what it holds is thrown away. -/
def create (path : Text) : Act Place := do
  let place ← ask fun w => (w.files.destination path).mapError .path
  put place .empty
  return place

/-- Adds to the end of a file that has been opened, unless there are no bytes for the text. -/
def append (place : Place) (text : RawText) : Act Unit := do
  let content ← ofExcept (text.encode.mapError .write)
  let old ← ask fun w => (w.files.contents.lookup place).elim (.error (.path .missing)) .ok
  put place (old ++ content)

end Act

namespace RawJob

open Act

/-- Gets hold of the source of the program. -/
def getSource (job : RawJob) : Act RawText :=
  match job.source with
  | .program raw => return raw
  | .script name => do
    if !Job.extension.isSuffixOf name then throw (.job .notAScript)
    let content ← Act.read name
    match decodeFile? content with
    | none => throw (.job .notText)
    | some text => return .ofText text

/-- Puts the program into the words in which it is shown. -/
def getText (job : RawJob) : Act RawText := do
  let source ← job.getSource
  ask fun _ => source.programAs job.format

/-- The program as it stands on the standard output. -/
def display (job : RawJob) (text : RawText) : RawText :=
  if job.pretty then
    .ofText (Text.unlines [Job.banner, "Parsed Blocks".toList, Job.banner, []]) ++ text ++
      .ofText (Text.unlines [[], Job.banner, [], []])
  else text ++ .ofText ['\n']

/-- What is printed when the program has been written to a file. -/
def notice (job : RawJob) : RawText := .ofText ("(wrote to ".toList ++ job.out ++ ")\n".toList)

/-- Carries out a raw job. -/
def perform (console : Console) (job : RawJob) : Act Unit := do
  let text ← job.getText
  if job.out.isEmpty then print console (job.display text)
  else
    let place ← create job.out
    append place (text ++ .ofText ['\n'])
    if job.pretty then print console job.notice

/-- What is left behind when a raw job is carried out. -/
def performed (console : Console) (job : RawJob) (files : Files) : RawOutcome :=
  match (job.perform console).outcome ⟨[], files⟩ with
  | (.ok (), w) => ⟨w.stdout, w.files, none⟩
  | (.error e, w) => ⟨w.stdout, w.files, some e⟩

end RawJob

end BlockScript
