import BlockScript.Text.Basic

/-!
# Syntax trees

A script is a list of blocks.  A block is a command, a loop over values, or a loop under a
condition; the body of a loop is a list of blocks.  A command is a name with arguments, and each
of them is a literal text or a command of its own.  Equality of trees is decidable.
-/

namespace BlockScript

/-- An argument: a text as it is, or a command given by its name and arguments. -/
inductive Argument where
  | literal (text : Text)
  | nested (name : Argument) (args : List Argument)
  deriving Repr

/-- A name with the arguments it is given. -/
structure Command where
  name : Argument
  args : List Argument
  deriving Repr

/-- A statement of a script. -/
inductive Block where
  | command (command : Command)
  | forEach (key? : Option Argument) (value : Argument) (body : List Block)
  | whileLoop (condition : List Argument) (body : List Block)
  deriving Repr

namespace Argument

/-- The argument that stands for the result of a command. -/
def ofCommand (command : Command) : Argument := .nested command.name command.args

/-- The command of an argument, unless it is a literal text. -/
def command? : Argument → Option Command
  | .literal _ => none
  | .nested name args => some ⟨name, args⟩

/-- Whether the argument is a command. -/
def isCommand (a : Argument) : Bool := a.command?.isSome

/-- The argument with the given text or command, if it is given exactly one of them. -/
def ofParts? : Option Text → Option Command → Option Argument
  | some text, none => some (.literal text)
  | none, some command => some (.ofCommand command)
  | _, _ => none

end Argument

/-! ## Decidable equality -/

mutual

/-- Decides whether two arguments are equal. -/
def Argument.decEq : (a b : Argument) → Decidable (a = b)
  | .literal s, .literal t => decidable_of_iff (s = t) (by simp)
  | .literal _, .nested _ _ => isFalse nofun
  | .nested _ _, .literal _ => isFalse nofun
  | .nested f as, .nested g bs =>
    have := Argument.decEq f g
    have := Argument.decEqList as bs
    decidable_of_iff (f = g ∧ as = bs) (by simp)

/-- Decides whether two lists of arguments are equal. -/
def Argument.decEqList : (as bs : List Argument) → Decidable (as = bs)
  | [], [] => isTrue rfl
  | [], _ :: _ => isFalse nofun
  | _ :: _, [] => isFalse nofun
  | a :: as, b :: bs =>
    have := Argument.decEq a b
    have := Argument.decEqList as bs
    decidable_of_iff (a = b ∧ as = bs) (by simp)

end

instance : DecidableEq Argument := Argument.decEq

deriving instance DecidableEq for Command

mutual

/-- Decides whether two blocks are equal. -/
def Block.decEq : (a b : Block) → Decidable (a = b)
  | .command c, .command d => decidable_of_iff (c = d) (by simp)
  | .forEach k v as, .forEach l w bs =>
    have := Block.decEqList as bs
    decidable_of_iff (k = l ∧ v = w ∧ as = bs) (by simp)
  | .whileLoop c as, .whileLoop d bs =>
    have := Block.decEqList as bs
    decidable_of_iff (c = d ∧ as = bs) (by simp)
  | .command _, .forEach _ _ _ => isFalse nofun
  | .command _, .whileLoop _ _ => isFalse nofun
  | .forEach _ _ _, .command _ => isFalse nofun
  | .forEach _ _ _, .whileLoop _ _ => isFalse nofun
  | .whileLoop _ _, .command _ => isFalse nofun
  | .whileLoop _ _, .forEach _ _ _ => isFalse nofun

/-- Decides whether two lists of blocks are equal. -/
def Block.decEqList : (as bs : List Block) → Decidable (as = bs)
  | [], [] => isTrue rfl
  | [], _ :: _ => isFalse nofun
  | _ :: _, [] => isFalse nofun
  | a :: as, b :: bs =>
    have := Block.decEq a b
    have := Block.decEqList as bs
    decidable_of_iff (a = b ∧ as = bs) (by simp)

end

instance : DecidableEq Block := Block.decEq

end BlockScript
