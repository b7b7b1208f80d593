import BlockScript.Text.Basic

/-!
# JSON documents

The part of JSON that syntax trees need: `null`, strings, arrays and objects.  Documents are
written in ASCII, one element or member to a line, indented by two spaces for each level; a
character outside ASCII is written by its UTF-16 units.
-/

namespace BlockScript

/-- A JSON document. -/
inductive Json where
  | null
  | string (text : Text)
  | array (items : List Json)
  | object (members : List (Text × Json))
  deriving Repr

namespace Json

/-- One UTF-16 unit as an escape. -/
def unitEscape (unit : Nat) : Text := '\\' :: 'u' :: Text.hex 4 unit

/-- A character as it stands in a string. -/
def escape (c : Char) : Text :=
  if c = '"' ∨ c = '\\' then ['\\', c]
  else if c = '\n' then ['\\', 'n']
  else if c = '\r' then ['\\', 'r']
  else if c = '\t' then ['\\', 't']
  else if c = '\x0c' then ['\\', 'f']
  else if c = '\x08' then ['\\', 'b']
  else if 0x20 ≤ c.toNat ∧ c.toNat < 0x7f then [c]
  else if c.toNat < 0x10000 then unitEscape c.toNat
  else
    unitEscape (0xd800 + (c.toNat - 0x10000) / 0x400) ++
      unitEscape (0xdc00 + (c.toNat - 0x10000) % 0x400)

/-- A string between its quotes. -/
def encodeString (text : Text) : Text := '"' :: (text.flatMap escape ++ ['"'])

/-- A line feed and the indentation of the next line. -/
def newline (level : Nat) : Text := '\n' :: List.replicate (2 * level) ' '

mutual

/-- A document written at the given level of indentation. -/
def pretty (level : Nat) : Json → Text
  | .null => "null".toList
  | .string text => encodeString text
  | .array [] => "[]".toList
  | .array (item :: items) =>
    '[' :: (newline (level + 1) ++ (pretty (level + 1) item ++
      (prettyItems (level + 1) items ++ (newline level ++ [']']))))
  | .object [] => "\x7b\x7d".toList
  | .object ((name, value) :: members) =>
    '\x7b' :: (newline (level + 1) ++ (encodeString name ++ (": ".toList ++
      (pretty (level + 1) value ++ (prettyMembers (level + 1) members ++
        (newline level ++ ['\x7d']))))))

/-- Elements after the first, each on a line of its own. -/
def prettyItems (level : Nat) : List Json → Text
  | [] => []
  | item :: items => ',' :: (newline level ++ (pretty level item ++ prettyItems level items))

/-- Members after the first, each on a line of its own. -/
def prettyMembers (level : Nat) : List (Text × Json) → Text
  | [] => []
  | (name, value) :: members =>
    ',' :: (newline level ++ (encodeString name ++ (": ".toList ++
      (pretty level value ++ prettyMembers level members))))

end

/-- A document as a text. -/
def render (document : Json) : Text := pretty 0 document

end Json

end BlockScript
