import BlockScript.Script
import BlockScript.Syntax
import BlockScript.Text.Quoted
import BlockScript.Token

/-!
# Inspection

Every value has a form for inspection that shows how it is built: the name of its kind and, in
parentheses, what it consists of.
-/

namespace BlockScript

/-- The form of a list, given those of its elements. -/
def inspectList (items : List Text) : Text := '[' :: (Text.join ", ".toList items ++ [']'])

/-- The form of a token; the source of a command is shown as it is. -/
def Token.inspect : Token → Text
  | .literal text => "Token(".toList ++ text.quoted ++ [')']
  | .command source => "Token((".toList ++ source ++ "))".toList

/-- The form of a script. -/
def Script.inspect (script : Script) : Text :=
  "Script(".toList ++ inspectList (script.lines.map (·.text.quoted)) ++ ", ".toList ++
    inspectList (script.lines.map (Text.decimal ·.number)) ++ [')']

/-- The form of a command, given those of its name and arguments. -/
def inspectCommand (name : Text) (args : List Text) : Text :=
  "Command(name=".toList ++ name ++ ", args=".toList ++ inspectList args ++ [')']

mutual

/-- The form of an argument. -/
def Argument.inspect : Argument → Text
  | .literal text => "Argument(".toList ++ text.quoted ++ [')']
  | .nested name args =>
    "Argument(command=".toList ++ inspectCommand name.inspect (Argument.inspectAll args) ++ [')']

/-- The forms of some arguments. -/
def Argument.inspectAll : List Argument → List Text
  | [] => []
  | a :: as => a.inspect :: Argument.inspectAll as

end

/-- The form of a command. -/
def Command.inspect (command : Command) : Text :=
  inspectCommand command.name.inspect (Argument.inspectAll command.args)

mutual

/-- The form of a block. -/
def Block.inspect : Block → Text
  | .command c => "CommandBlock(".toList ++ c.inspect ++ [')']
  | .forEach key? value body =>
    "ForBlock(key=".toList ++ (key?.map Argument.inspect).getD "None".toList ++
      ", value=".toList ++ value.inspect ++
      ", body=".toList ++ inspectList (Block.inspectAll body) ++ [')']
  | .whileLoop condition body =>
    "WhileBlock(condition=".toList ++ inspectList (Argument.inspectAll condition) ++
      ", body=".toList ++ inspectList (Block.inspectAll body) ++ [')']

/-- The forms of some blocks. -/
def Block.inspectAll : List Block → List Text
  | [] => []
  | b :: bs => b.inspect :: Block.inspectAll bs

end

end BlockScript
