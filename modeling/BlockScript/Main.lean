import BlockScript.CommandLine.Invocation

/-!
# The program

The command line of the program: files and standard streams around the pure definitions.
-/

namespace BlockScript.Program

/-- Carries on a session with the standard streams until it ends. -/
partial def converse (session : Session) (stdin stdout : IO.FS.Stream) : IO Unit := do
  stdout.putStr (String.ofList session.prompt)
  stdout.flush
  let line ← stdin.getLine
  if line.isEmpty then stdout.putStr (String.ofList Session.farewell)
  else
    match session.enter ((Text.chop? '\n' line.toList).getD line.toList) with
    | .error e => throw (IO.userError (String.ofList e.message))
    | .ok (shown, next?) =>
      stdout.putStr (String.ofList shown)
      match next? with
      | none => return
      | some next => converse next stdin stdout

/-- The working folder. -/
def workingFolder : IO Place := do
  return ((← IO.currentDir).components.filter (!·.isEmpty)).map String.toList

/-- Whether there is a folder at a place. -/
def isFolder (place : Place) : IO Bool := (System.mkFilePath ("/" :: place.map String.ofList)).isDir

/-- The part of the file system that a job is about: the folders on the way to its script and to
the file it writes, and the script, if it can be read. -/
def filesOf (job : Job) : IO Files := do
  let here ← workingFolder
  let places (text : Text) : List Place :=
    match Path.ofText text with
    | .ok path => path.target here :: path.through here
    | .error _ => []
  let scripts := if job.inline then [] else [job.source]
  let folders ← ((job.out :: scripts).flatMap places).filterM isFolder
  let contents ← scripts.filterMapM fun text =>
    try
      let content ← IO.FS.readBinFile (String.ofList text)
      return (places text).head?.map (·, content)
    catch _ => return none
  return ⟨here, folders, contents⟩

/-- Writes the file of a job that has been done. -/
def writeFile (job : Job) (outcome : Outcome) : IO Unit := do
  if outcome.failure?.isNone && !job.out.isEmpty then
    if let .ok content := outcome.files.read job.out then
      IO.FS.writeBinFile (String.ofList job.out) content

/-- Writes the texts that an invocation leaves behind, and gives its exit status. -/
def finish (outcome : Outcome) : IO UInt32 := do
  IO.print (String.ofList outcome.stdout)
  IO.eprint (String.ofList outcome.stderr)
  match outcome.status? with
  | some status => return status.toUInt32
  | none =>
    let message? := outcome.failure?.bind JobError.message?
    IO.eprintln (String.ofList (message?.getD "A file cannot be read or written.".toList))
    return 1

end BlockScript.Program

open BlockScript in
/-- Runs the program on the words of its command line. -/
def main (args : List String) : IO UInt32 := do
  let args := args.map String.toList
  match Invocation.ofArguments args with
  | .ok (.session start) =>
    IO.print (String.ofList Session.greeting)
    Program.converse start (← IO.getStdin) (← IO.getStdout)
    return 0
  | .ok (.job job) =>
    let outcome := runCommandLine args [] (← Program.filesOf job)
    Program.writeFile job outcome
    Program.finish outcome
  | .error _ => Program.finish (runCommandLine args [] ⟨[], [], []⟩)
