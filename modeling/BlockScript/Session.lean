import BlockScript.Format
import BlockScript.Program.Reading
import BlockScript.Text.Whitespace

/-!
# Interactive sessions

A session collects lines until they make up a whole program, shows its blocks, and starts afresh.
While a loop is open or a line is continued it asks for more; two empty lines in a row give up an
open loop.  At a fresh start a few words are commands to the session itself.
-/

namespace BlockScript

/-- Whether a source that was refused with the given message may only be unfinished. -/
def awaitsMore (source message : Text) : Bool :=
  "Unexpected end of script after \\".toList.isPrefixOf message ||
    ("Missing \x7d.".toList.isSuffixOf message && !List.isSuffixOf ['\n', '\n'] source)

/-- A session: the name of its format, whether it shows JSON as well, and the lines that have been
entered since the last fresh start. -/
structure Session where
  format : Text
  verbose : Bool
  pending : List Text
  deriving DecidableEq, Repr

/-- What a session is given when it asks: a line without its line feed, or an interruption. -/
inductive Input where
  | line (text : Text)
  | interrupt
  deriving DecidableEq, Repr

/-- One question of a session and what is shown after the answer. -/
structure Exchange where
  prompt : Text
  shown : Text
  deriving DecidableEq, Repr

namespace Session

/-- What is shown before the first question. -/
def greeting : Text := "pragmash REPL. Type 'exit' to quit.\n".toList

/-- What is shown when the input ends or is interrupted. -/
def farewell : Text := "\nExiting pragmash REPL.\n".toList

/-- A session at its start. -/
def start (format : Text) (verbose : Bool) : Session := ⟨format, verbose, []⟩

/-- How a session asks for a line. -/
def prompt (s : Session) : Text :=
  if s.pending.isEmpty then "pragmash> ".toList else "...> ".toList

/-- What is shown for the blocks of a program; nothing if it has none. -/
def display (s : Session) (blocks : List Block) : Except UnsupportedFormat Text :=
  if blocks.isEmpty then .ok []
  else do
    let text ← renderAs s.format blocks
    if s.verbose && s.format != Format.json.name then
      return text ++ '\n' :: (Block.json blocks ++ ['\n'])
    else return text ++ ['\n']

/-- Adds a line to the pending ones: what is shown, and the session afterwards. -/
def submit (s : Session) (line : Text) : Except UnsupportedFormat (Text × Option Session) :=
  let lines := s.pending ++ [line]
  let source := Text.unlines lines
  match parse source with
  | .ok blocks => (s.display blocks).map fun shown => (shown, some { s with pending := [] })
  | .error e =>
    if awaitsMore source e.message then .ok ([], some { s with pending := lines })
    else .ok ("[error] >>> ".toList ++ e.message ++ ['\n'], some { s with pending := [] })

/-- What is shown when showing JSON has been turned on or off. -/
def verboseNotice (verbose : Bool) : Text :=
  "[mode] >>> Verbose mode ".toList ++ (if verbose then "ON" else "OFF").toList ++ ['\n']

/-- Answers a line: what is shown, and the session afterwards unless it ends. -/
def enter (s : Session) (line : Text) : Except UnsupportedFormat (Text × Option Session) :=
  let word := line.trim
  if !s.pending.isEmpty then s.submit line
  else if word = "exit".toList ∨ word = "quit".toList then .ok ([], none)
  else if word = "verbose-mode".toList then
    .ok (verboseNotice !s.verbose, some { s with verbose := !s.verbose })
  else if word.isEmpty then .ok ([], some s)
  else s.submit line

/-- The exchanges of a session over its inputs, whose end is like an interruption, and the mistake
that breaks it off, if there is one. -/
def converse (s : Session) : List Input → List Exchange × Option UnsupportedFormat
  | .line text :: rest =>
    match s.enter text with
    | .error e => ([⟨s.prompt, []⟩], some e)
    | .ok (shown, none) => ([⟨s.prompt, shown⟩], none)
    | .ok (shown, some next) =>
      let (exchanges, failure) := next.converse rest
      (⟨s.prompt, shown⟩ :: exchanges, failure)
  | _ => ([⟨s.prompt, farewell⟩], none)

end Session

end BlockScript
