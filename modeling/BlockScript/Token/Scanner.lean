import BlockScript.Index
import BlockScript.Token.Lexer

/-!
# Scanners

A scanner stands at a position of a source and reads from there.  Positions from `0` to the length
of the source count from its front, and larger ones are past its end.  Negative positions down to
minus the length count from the back: reading one character from there works and moves on towards
the front of the source, but nothing can be seen ahead of such a position, so the readers that
look before they move (`skipBlanks`, `nextToken`, `readWord`) behave there as at the front or not
at all.
-/

namespace BlockScript

/-- A source with the position that is read next. -/
structure Scanner where
  source : Text
  position : Int
  deriving DecidableEq, Repr

/-- The ways in which a scanner can fail to read. -/
inductive ScanError where
  | malformed (cause : Cause)
  | pastEnd (position : Int)
  | outOfRange (position : Int)
  deriving DecidableEq, Repr

/-- The wording of a failed reading. -/
def ScanError.message : ScanError → Text
  | malformed cause => cause.message
  | pastEnd position =>
    "CharacterStreamError: Attempted to read past end of source at position=<".toList ++
      Text.decimal position ++ ['>']
  | outOfRange position => noSuchIndex "string".toList position

namespace Scanner

variable (s : Scanner)

/-- Whether the position is past the last character. -/
def atEnd : Bool := s.source.length ≤ s.position

/-- Whether the position is in front of all characters even when counted from the back. -/
def outOfRange : Bool := s.position < -s.source.length

/-- The scanner of the same source that has `rest` in front of it. -/
def before (rest : Text) : Scanner :=
  { s with position := s.source.length - rest.length }

/-- The source from the position on, from its front if the position is negative. -/
def visible : Text := s.source.drop s.position.toNat

/-- The characters that are read one by one from the position on; from a negative position the
whole source comes once more after its end. -/
def ahead : Text :=
  if s.position < 0 then
    s.source.drop (s.source.length + s.position).toNat ++ s.source
  else s.visible

/-- The character `offset` places further on, if it is one of the source counted from the front. -/
def peek (offset : Int) : Option Char :=
  if s.position + offset < 0 then none else s.source[(s.position + offset).toNat]?

/-- Reads one character. -/
def next : Except ScanError Char × Scanner :=
  if s.outOfRange then (.error (.outOfRange s.position), s)
  else
    match s.ahead with
    | [] => (.error (.pastEnd s.position), s)
    | c :: _ => (.ok c, { s with position := s.position + 1 })

/-- Moves to the next token. -/
def skipBlanks : Except ScanError Unit × Scanner :=
  if s.outOfRange then (.error (.outOfRange s.position), s)
  else if s.atEnd then (.ok (), s)
  else (.ok (), s.before (Lexer.skipBlanks s.visible))

/-- Reads the next token, if there is one.  A stray parenthesis is not passed. -/
def nextToken : Except ScanError (Option Token) × Scanner :=
  if s.outOfRange then (.error (.outOfRange s.position), s)
  else if s.atEnd then (.ok none, s)
  else
    match Lexer.nextToken s.visible with
    | .ok none => (.ok none, s.before [])
    | .ok (some (token, rest)) => (.ok (some token), s.before rest)
    | .error .strayParenthesis =>
      (.error (.malformed .strayParenthesis), s.before (Lexer.skipBlanks s.visible))
    | .error cause => (.error (.malformed cause), s.before [])

/-- Reads the characters up to the next delimiter. -/
def readWord : Text × Scanner :=
  if s.position < 0 || s.atEnd then ([], s)
  else (Lexer.word s.visible, s.before (Lexer.afterWord s.visible))

/-- Passes one character and reads a quoted string up to its closing quote. -/
def readString : Except ScanError Text × Scanner :=
  match s.next with
  | (.error e, s) => (.error e, s)
  | (.ok _, _) =>
    match Lexer.readString s.ahead.tail with
    | .ok (value, rest) => (.ok value, s.before rest)
    | .error cause => (.error (.malformed cause), s.before [])

/-- Passes one character and reads a command up to its closing parenthesis.  From a start counted
from the back, the source of the command is cut out of the text in front of that parenthesis. -/
def readCommand : Except ScanError Text × Scanner :=
  match s.next with
  | (.error e, s) => (.error e, s)
  | (.ok _, start) =>
    match Lexer.readCommand 0 false start.visible with
    | .ok (raw, rest) =>
      if start.position < 0 then
        let front := s.source.take (s.source.length - rest.length - 1)
        (.ok (front.drop (s.source.length + start.position).toNat), s.before rest)
      else (.ok raw, s.before rest)
    | .error cause => (.error (.malformed cause), s.before [])

end Scanner

end BlockScript
