import BlockScript.Text.Basic
import BlockScript.Text.Unprintable

/-!
# Quoted texts

A text is shown between quotation marks in a form that lets every character be seen: the mark and
the backslash are escaped by a backslash, and unprintable characters are written by their
hexadecimal numbers.  The mark is a single quote unless that would need more escapes than a double
quote.
-/

namespace BlockScript

namespace Text

/-- The mark a text is quoted with: a double quote if the text has a single quote and no double
one, and a single quote otherwise. -/
def quoteMark (text : Text) : Char :=
  if text.contains '\x27' && !text.contains '"' then '"' else '\x27'

/-- The number of a character in hexadecimal, with two, four or eight digits. -/
def numericEscape (c : Char) : Text :=
  if c.toNat < 0x100 then '\\' :: 'x' :: hex 2 c.toNat
  else if c.toNat < 0x10000 then '\\' :: 'u' :: hex 4 c.toNat
  else '\\' :: 'U' :: hex 8 c.toNat

/-- A character as it stands between two quotation marks. -/
def escapeQuoted (mark c : Char) : Text :=
  if c = mark ∨ c = '\\' then ['\\', c]
  else if c = '\n' then ['\\', 'n']
  else if c = '\r' then ['\\', 'r']
  else if c = '\t' then ['\\', 't']
  else if c.toNat < 0x20 ∨ c.toNat = 0x7f then numericEscape c
  else if c.toNat < 0x7f then [c]
  else if isUnprintable c then numericEscape c
  else [c]

/-- The text between quotation marks. -/
def quoted (text : Text) : Text :=
  let mark := quoteMark text
  mark :: (text.flatMap (escapeQuoted mark) ++ [mark])

end Text

end BlockScript
