import BlockScript.Program.Reading

/-!
# Cursors

A cursor stands at a line of a script and reads blocks from there.  Positions from `0` to the
number of lines count from the front, and nothing is left behind the last line.  A negative
position counts from the back; reading from there runs through the end of the script and goes on
with its first line.  A reading leaves the cursor behind the lines it has passed, even if it fails.
-/

namespace BlockScript

/-- A script with the position of the line that is read next. -/
structure Cursor where
  script : Script
  position : Int
  deriving DecidableEq, Repr

/-- The ways in which a cursor can fail to read. -/
inductive CursorError where
  | parse (error : ParseError)
  | outOfRange (position : Int)
  deriving DecidableEq, Repr

/-- The wording of a failed reading. -/
def CursorError.message : CursorError → Text
  | parse error => error.message
  | outOfRange position => noSuchIndex "list".toList position

namespace Cursor

/-- The cursor in front of a script. -/
def ofScript (script : Script) : Cursor := ⟨script, 0⟩

variable (c : Cursor)

/-- Whether no line is left. -/
def atEnd : Bool := c.script.lines.length ≤ c.position

/-- The line that is read next. -/
def line? : Option Line := do
  c.script.lines[← signedIndex? c.script.lines.length c.position]?

/-- The text of the line that is read next. -/
def currentText : Except CursorError Text :=
  match c.line? with
  | some line => .ok line.text
  | none => .error (.outOfRange c.position)

/-- What is put in front of a message about the line that is read next. -/
def currentLabel : Except CursorError Text :=
  match c.line? with
  | some line => .ok (ParseError.label line.number)
  | none => .error (.outOfRange c.position)

/-- The lines that a reading from the position goes through, unless the position is in front of
all lines even when counted from the back. -/
def ahead? : Option (List Line) :=
  let lines := c.script.lines
  if 0 ≤ c.position then some (lines.drop c.position.toNat)
  else if -lines.length ≤ c.position then
    some (lines.drop (lines.length + c.position).toNat ++ lines)
  else none

variable {α : Type}

/-- The cursor behind the lines of a reading, with its result. -/
def follow (r : Reading α) : Except CursorError α × Cursor :=
  (r.result.mapError .parse, { c with position := c.position + r.passed })

/-- Reads from the position with a reader that looks at the first line before all else. -/
def run (reader : List Line → Reading α) : Except CursorError α × Cursor :=
  match c.ahead? with
  | some lines => c.follow (reader lines)
  | none => (.error (.outOfRange c.position), c)

/-- Reads the block at the position; there is none on a line without tokens or behind the last. -/
def readBlock : Except CursorError (Option Block) × Cursor := c.run Block.read

/-- Reads all blocks from the position on. -/
def readAll : Except CursorError (List Block) × Cursor := c.run Block.readAll

/-- Reads the body of a loop from the position on. -/
def readBody (allowExtra : Bool) : Except CursorError (List Block) × Cursor :=
  c.run (Block.readBodyWith Block.read allowExtra)

/-- Reads the loop whose header stands in front of the position.  Where no line can be looked at,
what is wrong with the header still comes first. -/
def readLoop (loop : (List Line → Reading (List Block)) → List Line → Reading Block) :
    Except CursorError Block × Cursor :=
  match c.ahead? with
  | some lines => c.follow (loop (Block.readBody maxNesting) lines)
  | none =>
    match (loop (fun _ => ⟨.ok [], 0⟩) []).result with
    | .ok _ => (.error (.outOfRange c.position), c)
    | .error e => (.error (.parse e), c)

/-- Reads the loop over values with the given header. -/
def readForEach (header : List Token) : Except CursorError Block × Cursor :=
  c.readLoop (Block.readForEach maxNesting · header)

/-- Reads the loop under a condition with the given header. -/
def readWhile (header : List Token) : Except CursorError Block × Cursor :=
  c.readLoop (Block.readWhile maxNesting · header)

end Cursor

end BlockScript
