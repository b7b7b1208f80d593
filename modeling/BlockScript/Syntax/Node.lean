import BlockScript.Inspect

/-!
# Nodes

A node is any one value of the syntax: a token, an argument, a command or a block.  Nodes of
different kinds are never equal, and no part of a node can be changed.
-/

namespace BlockScript

/-- A value of the syntax. -/
inductive Node where
  | token (value : Token)
  | argument (value : Argument)
  | command (value : Command)
  | block (value : Block)
  deriving DecidableEq, Repr

namespace Node

/-- The name of the kind of a node. -/
def typeName : Node → Text
  | .token _ => "Token".toList
  | .argument _ => "Argument".toList
  | .command _ => "Command".toList
  | .block (.command _) => "CommandBlock".toList
  | .block (.forEach _ _ _) => "ForBlock".toList
  | .block (.whileLoop _ _) => "WhileBlock".toList

/-- The form of a node for inspection. -/
def inspect : Node → Text
  | .token value => value.inspect
  | .argument value => value.inspect
  | .command value => value.inspect
  | .block value => value.inspect

/-- The answer to an attempt at changing a part of a node. -/
def refusal (node : Node) : Text := node.typeName ++ " is immutable".toList

/-- For each node, the place of the first node equal to it. -/
def firstPlaces (nodes : List Node) : List Nat := nodes.map (nodes.idxOf ·)

/-- How many different nodes there are. -/
def countDistinct (nodes : List Node) : Nat := nodes.eraseDups.length

end Node

end BlockScript
