import BlockScript.Script
import BlockScript.Syntax.OfTokens

/-!
# Reading blocks

The readers of this file take a list of lines and say what stands at its front and how many of
the lines they have passed, also when they fail.  A line that opens a loop is followed by the lines
of its body up to the line that begins with the closing mark; every other line with tokens is a
command.  Each level of loops or of commands in parentheses uses up one of the `depth` levels that
are left.
-/

namespace BlockScript

/-- What reading some lines has come to, and the number of lines passed on the way. -/
structure Reading (α : Type) where
  result : Except ParseError α
  passed : Nat

namespace Reading

variable {α β : Type}

/-- A failure with no line in its trace. -/
def fail (cause : Cause) (passed : Nat) : Reading α := ⟨.error ⟨[], cause⟩, passed⟩

/-- The reading with its failure seen from the line that contains it. -/
def within (line : Int) (r : Reading α) : Reading α :=
  { r with result := r.result.mapError (·.within line) }

/-- The reading with `n` more lines passed in front of it. -/
def after (n : Nat) (r : Reading α) : Reading α := { r with passed := n + r.passed }

/-- The reading with `f` applied to its value. -/
def map (f : α → β) (r : Reading α) : Reading β := { r with result := r.result.map f }

/-- A value that needs no line. -/
def ofExcept (result : Except Cause α) : Reading α := ⟨result.mapError (⟨[], ·⟩), 0⟩

/-- The reading that goes on with the value of another, behind the lines the other has passed. -/
def andThen (r : Reading α) (next : α → Reading β) : Reading β :=
  match r.result with
  | .error e => ⟨.error e, r.passed⟩
  | .ok a => (next a).after r.passed

@[simp]
theorem passed_within (line : Int) (r : Reading α) : (r.within line).passed = r.passed := rfl

@[simp]
theorem passed_after (n : Nat) (r : Reading α) : (r.after n).passed = n + r.passed := rfl

@[simp]
theorem result_after (n : Nat) (r : Reading α) : (r.after n).result = r.result := rfl

@[simp]
theorem passed_map (f : α → β) (r : Reading α) : (r.map f).passed = r.passed := rfl

end Reading

namespace Block

/-- Whether some tokens are a header: more than one, and the last is the mark that opens a body. -/
def opensBody (tokens : List Token) : Bool :=
  1 < tokens.length && tokens.getLast? == some .bodyMark

/-- The arguments in a header, between its first token and its last. -/
def headerArguments (depth : Nat) (tokens : List Token) : Except Cause (List Argument) :=
  Argument.ofTokens depth tokens.tail.dropLast

section Readers

variable (depth : Nat) (readBody : List Line → Reading (List Block))

/-- The loop over values with the given header, its body read from `lines`. -/
def readForEach (header : List Token) (lines : List Line) : Reading Block :=
  if !opensBody header then .fail .unopenedFor 0
  else
    match header.tail.dropLast with
    | [value] =>
      (Reading.ofExcept (Argument.ofToken depth value)).andThen fun value =>
        (readBody lines).map (.forEach none value)
    | [key, value] =>
      (Reading.ofExcept (Argument.ofToken depth key)).andThen fun key =>
        (Reading.ofExcept (Argument.ofToken depth value)).andThen fun value =>
          (readBody lines).map (.forEach (some key) value)
    | _ => .fail .forArity 0

/-- The loop under a condition with the given header, its body read from `lines`. -/
def readWhile (header : List Token) (lines : List Line) : Reading Block :=
  if !opensBody header then .fail .unopenedWhile 0
  else
    (Reading.ofExcept (headerArguments depth header)).andThen fun condition =>
      (readBody lines).map (.whileLoop condition)

/-- The block that begins with a line of the given tokens, `lines` being those that follow. -/
def readStatement (tokens : List Token) (lines : List Line) : Reading Block :=
  if tokens.head? = some .forWord then readForEach depth readBody tokens lines
  else if tokens.head? = some .whileWord then readWhile depth readBody tokens lines
  else Reading.ofExcept ((Command.ofTokens depth tokens).map .command)

/-- The block that begins at the first line, or nothing if that line has no tokens. -/
def readWith : List Line → Reading (Option Block)
  | [] => ⟨.ok none, 0⟩
  | line :: lines =>
    match tokenize line.text with
    | .error cause => (Reading.fail cause 0).within line.number
    | .ok [] => ⟨.ok none, 1⟩
    | .ok (first :: rest) =>
      (((readStatement depth readBody (first :: rest) lines).within line.number).map some).after 1

end Readers

/-- The tokens after the mark that closes a body, if the line begins with that mark. -/
def closing? (line : Line) : Option (List Token) :=
  match tokenize line.text with
  | .ok (first :: extra) => if first = .bodyMark then some extra else none
  | _ => none

/-- The blocks in front of the line that closes the body, each read by `read`.  Tokens after the
closing mark are a mistake unless `allowExtra` is set. -/
def readBodyWith (read : List Line → Reading (Option Block)) (allowExtra : Bool) :
    List Line → Reading (List Block)
  | [] => .fail .unclosedBody 0
  | line :: lines =>
    match closing? line with
    | some extra => if extra ≠ [] ∧ !allowExtra then .fail .textAfterClose 0 else ⟨.ok [], 1⟩
    | none =>
      let first := read (line :: lines)
      match first.result with
      | .error e => ⟨.error e, first.passed⟩
      | .ok block =>
        ((readBodyWith read allowExtra (lines.drop (first.passed - 1))).map
          (block.toList ++ ·)).after first.passed
termination_by lines => lines.length
decreasing_by simp only [List.length_drop, List.length_cons]; omega

/-- The body of a loop, when `depth` levels are left in front of it. -/
def readBody : Nat → List Line → Reading (List Block)
  | 0, _ => .fail .nestingTooDeep 0
  | depth + 1, lines => readBodyWith (readWith depth (readBody depth)) false lines

/-- The block that begins at the first line, or nothing if that line has no tokens. -/
def read (lines : List Line) : Reading (Option Block) :=
  readWith maxNesting (readBody maxNesting) lines

/-- All blocks of some lines. -/
def readAll : List Line → Reading (List Block)
  | [] => ⟨.ok [], 0⟩
  | line :: lines =>
    let first := read (line :: lines)
    match first.result with
    | .error e => ⟨.error (e.atTopLevel line.number), first.passed⟩
    | .ok block =>
      ((readAll (lines.drop (first.passed - 1))).map (block.toList ++ ·)).after first.passed
termination_by lines => lines.length
decreasing_by simp only [List.length_drop, List.length_cons]; omega

end Block

/-! ## Whole programs -/

/-- The blocks of a script. -/
def Script.blocks (script : Script) : Except ParseError (List Block) :=
  (Block.readAll script.lines).result

/-- The blocks of a source. -/
def parse (source : Text) : Except ParseError (List Block) := do
  (← Script.ofSource source).blocks

end BlockScript
