import BlockScript.Text.Basic

/-!
# Raw texts

What a program is given need not be a text.  A byte of a command line that is no UTF-8 is read as a
lone surrogate, half of a pair of UTF-16 without the other half.  A raw text may hold lone
surrogates among its characters.  It cannot be written to a file then, as UTF-8 has no form for
them (`RawText.encode`).

To what works on characters, a lone surrogate is a character like any other without a meaning of
its own.  So that a raw text can be worked on, characters that it does not have stand for its lone
surrogates (`RawText.standIns`), and what comes out is put back (`StandIns.raise`).
-/

namespace BlockScript

/-- A character, or the lone surrogate with a number from `U+D800` on. -/
inductive Letter where
  | char (c : Char)
  | surrogate (n : Fin 0x800)
  deriving DecidableEq, Repr

namespace Letter

/-- The character that a letter is. -/
def char? : Letter → Option Char
  | char c => some c
  | surrogate _ => none

/-- The number of a lone surrogate. -/
def surrogate? : Letter → Option (Fin 0x800)
  | char _ => none
  | surrogate n => some n

end Letter

/-- A text that may hold lone surrogates. -/
abbrev RawText := List Letter

/-- The lone surrogates in a row, from a position on, that keep a raw text from being written. -/
structure EncodingError where
  position : Nat
  surrogates : List (Fin 0x800)
  deriving DecidableEq, Repr

/-- The escape of a lone surrogate: the hexadecimal number of its code point. -/
def surrogateEscape (n : Fin 0x800) : Text := '\\' :: 'u' :: Text.hex 4 (0xd800 + n)

/-- The wording of the mistake. -/
def EncodingError.message (e : EncodingError) : Text :=
  let place := match e.surrogates with
    | [n] => "character '".toList ++ surrogateEscape n ++ "' in position ".toList ++
        Text.decimal e.position
    | _ => "characters in position ".toList ++ Text.decimal e.position ++ ['-'] ++
        Text.decimal (e.position + e.surrogates.length - 1)
  "'utf-8' codec can't encode ".toList ++ place ++ ": surrogates not allowed".toList

namespace RawText

/-- A text as a raw text. -/
def ofText (text : Text) : RawText := text.map .char

/-- The characters among the letters. -/
def chars (raw : RawText) : Text := raw.filterMap Letter.char?

/-- The lone surrogates among the letters. -/
def surrogates (raw : RawText) : List (Fin 0x800) := raw.filterMap Letter.surrogate?

/-- The text that a raw text without lone surrogates is. -/
def text? (raw : RawText) : Option Text := if raw.surrogates.isEmpty then some raw.chars else none

/-- The first lone surrogates of a raw text. -/
def encodingError (raw : RawText) : EncodingError :=
  ⟨(raw.takeWhile (·.char?.isSome)).length,
    ((raw.dropWhile (·.char?.isSome)).takeWhile (·.surrogate?.isSome)).filterMap
      Letter.surrogate?⟩

/-- The bytes of a raw text in UTF-8, unless it has lone surrogates. -/
def encode (raw : RawText) : Except EncodingError ByteArray :=
  match raw.text? with
  | some text => .ok (String.ofList text).toUTF8
  | none => .error raw.encodingError

/-! ## Stand-ins -/

/-- The characters of the first plane that are left to private use. -/
def privateUse : Text := (List.range' 0xe000 0x1900).map Char.ofNat

end RawText

/-- Characters that stand for lone surrogates. -/
abbrev StandIns := List (Fin 0x800 × Char)

/-- For each lone surrogate of a raw text a character of its own that the raw text does not have;
there are enough of them unless it has more than four thousand characters for private use. -/
def RawText.standIns (raw : RawText) : StandIns :=
  ((List.finRange 0x800).filter (raw.surrogates.contains ·)).zip
    (privateUse.filter fun c => !raw.chars.contains c)

namespace StandIns

variable (names : StandIns)

/-- The character that stands for a letter. -/
def lowerLetter : Letter → Char
  | .char c => c
  | .surrogate n => (names.lookup n).getD '\ufffd'

/-- The text with characters for the lone surrogates. -/
def lower (raw : RawText) : Text := raw.map (lowerLetter names)

/-- The letter that a character stands for. -/
def raiseChar (c : Char) : Letter :=
  match names.find? fun name => name.2 = c with
  | some (n, _) => .surrogate n
  | none => .char c

/-- The raw text with the lone surrogates that characters stand for. -/
def raise (text : Text) : RawText := text.map (raiseChar names)

/-- The four digits of an escape, with the number of a lone surrogate for that of the character
that stands for it. -/
def raiseDigits (digits : Text) : Text :=
  match names.find? fun name => Text.hex 4 name.2.toNat = digits with
  | some (n, _) => Text.hex 4 (0xd800 + n)
  | none => digits

/-- The text, in which characters outside ASCII are escaped, with the escapes of the lone
surrogates. -/
def raiseEscapes : Text → Text
  | '\\' :: 'u' :: a :: b :: c :: d :: rest =>
    '\\' :: 'u' :: (raiseDigits names [a, b, c, d] ++ raiseEscapes rest)
  | '\\' :: c :: rest => '\\' :: c :: raiseEscapes rest
  | c :: rest => c :: raiseEscapes rest
  | [] => []

end StandIns

end BlockScript
