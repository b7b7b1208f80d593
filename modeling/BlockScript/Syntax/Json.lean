import BlockScript.Json
import BlockScript.Syntax.Listing

/-!
# Syntax trees as JSON

Each syntax tree is a JSON object whose members name its parts; those of a block begin with its
kind.
-/

namespace BlockScript

mutual

/-- An argument as JSON. -/
def Argument.toJson : Argument → Json
  | .literal text => .object [("text".toList, .string text)]
  | .nested name args =>
    .object [("command".toList,
      .object [("name".toList, name.toJson), ("args".toList, .array (Argument.allToJson args))])]

/-- Some arguments as JSON. -/
def Argument.allToJson : List Argument → List Json
  | [] => []
  | a :: as => a.toJson :: Argument.allToJson as

end

/-- A command as JSON. -/
def Command.toJson (command : Command) : Json :=
  .object [("name".toList, command.name.toJson),
    ("args".toList, .array (Argument.allToJson command.args))]

mutual

/-- A block as JSON. -/
def Block.toJson : Block → Json
  | .command c =>
    .object [("kind".toList, .string "command".toList), ("command".toList, c.toJson)]
  | .forEach key? value body =>
    .object [("kind".toList, .string "for".toList),
      ("key".toList, (key?.map Argument.toJson).getD .null), ("value".toList, value.toJson),
      ("body".toList, .array (Block.allToJson body))]
  | .whileLoop condition body =>
    .object [("kind".toList, .string "while".toList),
      ("condition".toList, .array (Argument.allToJson condition)),
      ("body".toList, .array (Block.allToJson body))]

/-- Some blocks as JSON. -/
def Block.allToJson : List Block → List Json
  | [] => []
  | b :: bs => b.toJson :: Block.allToJson bs

end

/-- The JSON text of a program. -/
def Block.json (blocks : List Block) : Text := (Json.array (Block.allToJson blocks)).render

end BlockScript
