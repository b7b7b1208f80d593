import BlockScript.Syntax

/-!
# Shapes of trees

How many levels of loops and of commands in parentheses a tree has one inside the other
(`levels`): the arguments of a loop stand on the level of the loop, its body one level further in.
And which trees can be told from their source (`Block.WellFormed`): a command whose name is a word
of the language would be taken for the beginning of a loop or the end of a body.
-/

namespace BlockScript

mutual

/-- How many commands in parentheses an argument has one inside the other. -/
def Argument.levels : Argument → Nat
  | .literal _ => 0
  | .nested name args => max name.levels (Argument.levelsAll args) + 1

/-- The levels of the deepest of some arguments. -/
def Argument.levelsAll : List Argument → Nat
  | [] => 0
  | a :: as => max a.levels (Argument.levelsAll as)

end

/-- The levels of the deepest name or argument of a command. -/
def Command.levels (c : Command) : Nat := Argument.levelsAll (c.name :: c.args)

mutual

/-- How many loops and commands in parentheses a block has one inside the other. -/
def Block.levels : Block → Nat
  | .command c => c.levels
  | .forEach key? value body =>
    max (Argument.levelsAll (key?.toList ++ [value])) (Block.levelsAll body + 1)
  | .whileLoop condition body => max (Argument.levelsAll condition) (Block.levelsAll body + 1)

/-- The levels of the deepest of some blocks. -/
def Block.levelsAll : List Block → Nat
  | [] => 0
  | b :: bs => max b.levels (Block.levelsAll bs)

end

theorem Argument.levelsAll_cons_le_iff {a : Argument} {as : List Argument} {n : Nat} :
    levelsAll (a :: as) ≤ n ↔ a.levels ≤ n ∧ levelsAll as ≤ n := by
  rw [levelsAll, Nat.max_le]

theorem Block.levelsAll_cons_le_iff {b : Block} {bs : List Block} {n : Nat} :
    levelsAll (b :: bs) ≤ n ↔ b.levels ≤ n ∧ levelsAll bs ≤ n := by
  rw [levelsAll, Nat.max_le]

theorem Block.levelsAll_append (bs cs : List Block) :
    levelsAll (bs ++ cs) = max (levelsAll bs) (levelsAll cs) := by
  induction bs with
  | nil => rw [List.nil_append, levelsAll, Nat.zero_max]
  | cons b bs ih => rw [List.cons_append, levelsAll, levelsAll, ih, Nat.max_assoc]

/-! ## Well-formed blocks -/

mutual

/-- No command is named like the beginning of a loop, and none in a body like its end; `inBody`
tells whether the block itself stands in a body. -/
def Block.WellFormed : (inBody : Bool) → Block → Prop
  | inBody, .command c =>
    c.name ≠ .literal "for".toList ∧ c.name ≠ .literal "while".toList ∧
      (inBody → c.name ≠ .literal ['\x7d'])
  | _, .forEach _ _ body => Block.AllWellFormed true body
  | _, .whileLoop _ body => Block.AllWellFormed true body

/-- All of some blocks are well-formed. -/
def Block.AllWellFormed : (inBody : Bool) → List Block → Prop
  | _, [] => True
  | inBody, b :: bs => b.WellFormed inBody ∧ Block.AllWellFormed inBody bs

end

end BlockScript
