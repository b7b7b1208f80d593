import BlockScript.Syntax
import BlockScript.Token.Lexer

/-!
# Source form

Every syntax tree can be written as source that reads back as the same tree.  A literal text is
quoted exactly if it is empty or has a character that the lexer treats specially; a command in an
argument stands between parentheses.
-/

namespace BlockScript

namespace Text

/-- Whether a literal text has to be quoted in source. -/
def needsQuotes (text : Text) : Bool :=
  text.isEmpty || text.any fun c => isDelimiter c || c == '#' || c == '\\'

/-- A character as it stands in a quoted string of source. -/
def escapeSource (c : Char) : Text :=
  if c = '\n' then ['\\', 'n']
  else if c = '\t' then ['\\', 't']
  else if c = '\r' then ['\\', 'r']
  else if c = '"' ∨ c = '\\' then ['\\', c]
  else [c]

/-- A literal text in source. -/
def toSource (text : Text) : Text :=
  if needsQuotes text then '"' :: (text.flatMap escapeSource ++ ['"']) else text

/-- A character is written in a string as itself or as an escape that stands for it, and neither
breaks a line. -/
theorem escapeSource_cases (c : Char) :
    (escapeSource c = [c] ∧ c ≠ '\n' ∧ c ≠ '\r' ∧ c ≠ '"' ∧ c ≠ '\\') ∨
      ∃ e, escapeSource c = ['\\', e] ∧ e ≠ '\n' ∧ e ≠ '\r' ∧ Lexer.escaped e = [c] := by
  by_cases hn : c = '\n'
  · exact .inr ⟨'n', by simp [escapeSource, hn], by simp [Lexer.escaped, hn]⟩
  by_cases ht : c = '\t'
  · exact .inr ⟨'t', by simp [escapeSource, ht], by simp [Lexer.escaped, ht]⟩
  by_cases hr : c = '\r'
  · exact .inr ⟨'r', by simp [escapeSource, hr], by simp [Lexer.escaped, hr]⟩
  by_cases hq : c = '"' ∨ c = '\\'
  · refine .inr ⟨c, by rw [escapeSource, if_neg hn, if_neg ht, if_neg hr, if_pos hq], hn, hr, ?_⟩
    rcases hq with rfl | rfl <;> rfl
  · refine .inl ⟨by rw [escapeSource, if_neg hn, if_neg ht, if_neg hr, if_neg hq], hn, hr, ?_, ?_⟩
    · exact fun h => hq (.inl h)
    · exact fun h => hq (.inr h)

theorem not_needsQuotes_iff {text : Text} :
    ¬ needsQuotes text ↔ text ≠ [] ∧ ∀ c ∈ text, isDelimiter c = false ∧ c ≠ '#' ∧ c ≠ '\\' := by
  simp [needsQuotes, and_assoc]

theorem toSource_of_needsQuotes {text : Text} (h : needsQuotes text) :
    text.toSource = '"' :: (text.flatMap escapeSource ++ ['"']) := by
  rw [toSource, if_pos h]

theorem toSource_of_not_needsQuotes {text : Text} (h : ¬ needsQuotes text) :
    text.toSource = text := by
  rw [toSource, if_neg h]

end Text

mutual

/-- An argument in source. -/
def Argument.toSource : Argument → Text
  | .literal text => text.toSource
  | .nested name args => '(' :: (name.toSource ++ Argument.trailing args ++ [')'])

/-- Arguments in source, each with a space in front. -/
def Argument.trailing : List Argument → Text
  | [] => []
  | a :: as => ' ' :: (a.toSource ++ Argument.trailing as)

end

theorem Argument.trailing_append (as bs : List Argument) :
    trailing (as ++ bs) = trailing as ++ trailing bs := by
  induction as with
  | nil => rw [trailing]; rfl
  | cons a as ih =>
    rw [List.cons_append, trailing, trailing, ih, List.cons_append, List.append_assoc]

/-- A command in source. -/
def Command.toSource (command : Command) : Text :=
  command.name.toSource ++ Argument.trailing command.args

mutual

/-- The lines of a block in source. -/
def Block.sourceLines : Block → List Text
  | .command c => [c.toSource]
  | .forEach key? value body =>
    ("for".toList ++ Argument.trailing (key?.toList ++ [value]) ++ " \x7d".toList) ::
      (Block.allSourceLines body ++ [['\x7d']])
  | .whileLoop condition body =>
    ("while".toList ++ Argument.trailing condition ++ " \x7d".toList) ::
      (Block.allSourceLines body ++ [['\x7d']])

/-- The lines of some blocks in source. -/
def Block.allSourceLines : List Block → List Text
  | [] => []
  | b :: bs => b.sourceLines ++ Block.allSourceLines bs

end

/-- A program in source. -/
def Block.toSource (blocks : List Block) : Text := Text.unlines (Block.allSourceLines blocks)

end BlockScript
