import BlockScript.Error
import BlockScript.Index

/-!
# Scripts

A script is read in logical lines.  `Script.ofSource` cuts a source at its line feeds and joins
every line that ends in a backslash with the one after it; a logical line keeps the number of
its first physical line.
-/

namespace BlockScript

/-- A logical line with the number it is reported under. -/
structure Line where
  text : Text
  number : Int
  deriving DecidableEq, Repr

/-- The logical lines of a source. -/
structure Script where
  lines : List Line
  deriving DecidableEq, Repr

namespace Script

/-- The script of the given lines and line numbers, if there are as many of the one as of the
other. -/
def ofParts? (texts : List Text) (numbers : List Int) : Option Script :=
  if texts.length = numbers.length then some ⟨List.zipWith Line.mk texts numbers⟩ else none

/-- The number of the line at a signed position. -/
def number? (script : Script) (i : Int) : Option Int := do
  let line ← script.lines[← signedIndex? script.lines.length i]?
  return line.number

/-! ## From a source -/

/-- A piece between line feeds without the carriage return at its end. -/
def physicalLine (piece : Text) : Text := (Text.chop? '\r' piece).getD piece

/-- The logical lines of the physical lines from number `n` on, `pending` being the logical line
that the line before has left unfinished. -/
def joinContinued (n : Nat) (pending : Option Line) : List Text → Except Cause (List Line)
  | [] =>
    match pending with
    | none => .ok []
    | some line => .error (.danglingContinuation line.number)
  | piece :: rest =>
    let line := pending.getD ⟨[], n⟩
    match Text.chop? '\\' piece with
    | some front => joinContinued (n + 1) (some { line with text := line.text ++ front }) rest
    | none =>
      (joinContinued (n + 1) none rest).map ({ line with text := line.text ++ piece } :: ·)

/-- The script of a source; only a source that ends in a continued line has none. -/
def ofSource (source : Text) : Except ParseError Script :=
  match joinContinued 1 none ((Text.lines source).map physicalLine) with
  | .ok lines => .ok ⟨lines⟩
  | .error cause => .error ⟨[], cause⟩

end Script

end BlockScript
