import BlockScript.CommandLine.Settings
import BlockScript.Session

/-!
# Invocations

A command line either asks for a session, which reads the standard input, or for a job.  A misuse
of the command line ends with status 2 and a mistake in the program with status 1; any other
failure has no status.
-/

namespace BlockScript

/-- What an invocation leaves behind. -/
structure Outcome where
  stdout : Text
  stderr : Text
  files : Files
  /-- The exit status; none after a failure that is not reported as an exit. -/
  status? : Option Nat
  failure? : Option JobError

/-- What is left behind when a job has been done. -/
def Outcome.ofJob (done : JobOutcome) : Outcome :=
  match done.failure? with
  | none => ⟨done.stdout, [], done.files, some 0, none⟩
  | some (.parse e) =>
    ⟨done.stdout, "[error] >>> ".toList ++ e.message ++ ['\n'], done.files, some 1, none⟩
  | some e => ⟨done.stdout, [], done.files, none, some e⟩

/-- What a command line asks for. -/
inductive Invocation where
  | session (session : Session)
  | job (job : Job)
  deriving DecidableEq, Repr

namespace Invocation

/-- What some settings ask for: a session if they say so or give no source. -/
def ofSettings (s : Settings) : Invocation :=
  match s.source? with
  | some source =>
    if s.repl then .session (.start s.format s.verbose)
    else .job ⟨source, s.inline, s.format, s.out, s.pretty⟩
  | none => .session (.start s.format s.verbose)

/-- What a command line asks for, unless it is not acted upon to its end. -/
def ofArguments (args : List Text) : Except CliStop Invocation :=
  (Settings.ofArguments args).map ofSettings

/-- The lines of the standard input; the text behind the last line feed is a line unless it is
empty. -/
def inputLines (stdin : Text) : List Text :=
  let lines := Text.lines stdin
  if lines.getLast? = some [] then lines.dropLast else lines

/-- What a session shows over its inputs, and the mistake that breaks it off. -/
def transcript (session : Session) (inputs : List Input) : Text × Option UnsupportedFormat :=
  let (exchanges, failure?) := session.converse inputs
  (Session.greeting ++ exchanges.flatMap fun e => e.prompt ++ e.shown, failure?)

/-- Carries out an invocation. -/
def run (stdin : Text) (files : Files) : Invocation → Outcome
  | .session start =>
    match transcript start ((inputLines stdin).map .line) with
    | (stdout, none) => ⟨stdout, [], files, some 0, none⟩
    | (stdout, some e) => ⟨stdout, [], files, none, some (.format e)⟩
  | .job task => Outcome.ofJob (task.run files)

end Invocation

/-- Carries out a command line. -/
def runCommandLine (args : List Text) (stdin : Text) (files : Files) : Outcome :=
  match Invocation.ofArguments args with
  | .ok invocation => invocation.run stdin files
  | .error .help => ⟨helpText, [], files, some 0, none⟩
  | .error (.usage e) =>
    ⟨[], usage ++ "pragmash: error: ".toList ++ e.message ++ ['\n'], files, some 2, none⟩

end BlockScript
