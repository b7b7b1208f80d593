import BlockScript.Text.Basic

/-!
# Tokens

A token of a line is a word or a quoted string, of which only the text is kept, or a command in
parentheses, kept as the source between them.
-/

namespace BlockScript

/-- One unit of a line. -/
inductive Token where
  | literal (text : Text)
  | command (source : Text)
  deriving DecidableEq, Repr

namespace Token

/-- The word that opens a loop over values. -/
def forWord : Token := .literal "for".toList

/-- The word that opens a loop under a condition. -/
def whileWord : Token := .literal "while".toList

/-- The mark that ends the header of a loop and begins the line that closes its body. -/
def bodyMark : Token := .literal ['\x7d']

end Token

end BlockScript
