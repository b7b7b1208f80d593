import BlockScript.Text.Basic

/-!
# White space

The characters that are blank on a page: the Unicode white space together with the four
information separators.  Texts are trimmed of them at one end or at both.
-/

namespace BlockScript

/-- The first and last characters of the runs of white space. -/
def whitespaceRanges : List (Nat × Nat) :=
  [(0x0009, 0x000d), (0x001c, 0x0020), (0x0085, 0x0085), (0x00a0, 0x00a0), (0x1680, 0x1680),
    (0x2000, 0x200a), (0x2028, 0x2029), (0x202f, 0x202f), (0x205f, 0x205f), (0x3000, 0x3000)]

/-- Whether a character is white space. -/
def isWhitespace (c : Char) : Bool :=
  whitespaceRanges.any fun (first, last) => first ≤ c.toNat && c.toNat ≤ last

namespace Text

/-- The text without the white space at its end. -/
def trimEnd (text : Text) : Text := (text.reverse.dropWhile isWhitespace).reverse

/-- The text without the white space at its two ends. -/
def trim (text : Text) : Text := trimEnd (text.dropWhile isWhitespace)

end Text

end BlockScript
