import BlockScript.Syntax
import BlockScript.Token.Lexer

/-!
# Commands from tokens

The first token of a line is the name of a command and the others are its arguments.  A token in
parentheses is read again as a command of its own, one level deeper; below `maxNesting` levels
nothing is read.
-/

namespace BlockScript

/-- How many levels of loops and commands in parentheses may be open at once. -/
def maxNesting : Nat := 256

/-- The command of some tokens, given how to read one of them. -/
def Command.ofTokensWith (read : Token → Except Cause Argument) :
    List Token → Except Cause Command
  | [] => .error .emptyCommand
  | name :: args => do return ⟨← read name, ← args.mapM read⟩

/-- The argument that a token stands for, with at most `depth` levels of commands inside. -/
def Argument.ofToken : Nat → Token → Except Cause Argument
  | _, .literal text => .ok (.literal text)
  | 0, .command _ => .error .nestingTooDeep
  | depth + 1, .command source => do
    let tokens ← tokenize source
    return .ofCommand (← Command.ofTokensWith (Argument.ofToken depth) tokens)

/-- The command of some tokens, with at most `depth` levels of commands inside. -/
def Command.ofTokens (depth : Nat) (tokens : List Token) : Except Cause Command :=
  Command.ofTokensWith (Argument.ofToken depth) tokens

/-- The arguments that some tokens stand for. -/
def Argument.ofTokens (depth : Nat) (tokens : List Token) : Except Cause (List Argument) :=
  tokens.mapM (Argument.ofToken depth)

end BlockScript
