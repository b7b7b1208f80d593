import BlockScript.Proofs.Nesting
import BlockScript.Proofs.Reading

/-!
# What a line says

A line with tokens opens a loop or is a command (`Statement`), and which of them it is does not
depend on the lines that follow.  Reading the block that begins with the line is deciding this and
then, for a loop, reading the body (`readStatement_eq`).
-/

namespace BlockScript

/-- What the line that opens a loop says about it. -/
inductive LoopHeader where
  | forEach (key? : Option Argument) (value : Argument)
  | whileLoop (condition : List Argument)
  deriving DecidableEq, Repr

/-- The loop with the given header and body. -/
def LoopHeader.block : LoopHeader → List Block → Block
  | .forEach key? value, body => .forEach key? value body
  | .whileLoop condition, body => .whileLoop condition body

/-- What a line with tokens says. -/
inductive Statement where
  | opening (header : LoopHeader)
  | command (command : Command)
  deriving DecidableEq, Repr

section Tokens

variable (read : Token → Except Cause Argument)

/-- The header of a loop over values, which has three or four tokens. -/
def LoopHeader.ofForTokens (tokens : List Token) : Except Cause LoopHeader :=
  if !Block.opensBody tokens then .error .unopenedFor
  else
    match tokens with
    | [_, value, _] => do return .forEach none (← read value)
    | [_, key, value, _] => do return .forEach (some (← read key)) (← read value)
    | _ => .error .forArity

/-- The header of a loop under a condition. -/
def LoopHeader.ofWhileTokens (tokens : List Token) : Except Cause LoopHeader :=
  if !Block.opensBody tokens then .error .unopenedWhile
  else do return .whileLoop (← tokens.tail.dropLast.mapM read)

/-- What a line of the given tokens says, by how each of them is read. -/
def Statement.ofTokensWith (tokens : List Token) : Except Cause Statement :=
  if tokens.head? = some .forWord then
    (LoopHeader.ofForTokens read tokens).map .opening
  else if tokens.head? = some .whileWord then
    (LoopHeader.ofWhileTokens read tokens).map .opening
  else (Command.ofTokensWith read tokens).map .command

end Tokens

/-- The tokens that are read as arguments in the header of a loop over values. -/
def LoopHeader.forOperands (tokens : List Token) : List Token :=
  if !Block.opensBody tokens then []
  else
    match tokens with
    | [_, value, _] => [value]
    | [_, key, value, _] => [key, value]
    | _ => []

/-- The tokens that are read as arguments in the header of a loop under a condition. -/
def LoopHeader.whileOperands (tokens : List Token) : List Token :=
  if !Block.opensBody tokens then [] else tokens.tail.dropLast

/-- The tokens of a line that are read as arguments. -/
def Statement.operands (tokens : List Token) : List Token :=
  if tokens.head? = some .forWord then LoopHeader.forOperands tokens
  else if tokens.head? = some .whileWord then LoopHeader.whileOperands tokens
  else tokens

/-- How many levels are entered in reading what a line of the given tokens says. -/
def Statement.levels (tokens : List Token) : Nat := Token.levelsAll (operands tokens)

/-- The mistakes that a line can be refused for although each of its tokens is read. -/
def Cause.OfStatement : Cause → Prop
  | .emptyCommand | .unopenedFor | .unopenedWhile | .forArity => True
  | _ => False

theorem Cause.OfStatement.inLine {cause : Cause} (h : cause.OfStatement) : cause.InLine := by
  cases cause <;> trivial

namespace Statement

variable {f g : Token → Except Cause Argument}

theorem ofTokensWith_approximates (h : ∀ t, Approximates (f t) (g t)) (tokens : List Token) :
    Approximates (ofTokensWith f tokens) (ofTokensWith g tokens) := by
  have hfor : Approximates (LoopHeader.ofForTokens f tokens) (LoopHeader.ofForTokens g tokens) := by
    unfold LoopHeader.ofForTokens
    split
    · exact .refl _
    · split
      · exact (h _).bind fun _ => .refl _
      · exact (h _).bind fun _ => (h _).bind fun _ => .refl _
      · exact .refl _
  have hwhile : Approximates (LoopHeader.ofWhileTokens f tokens)
      (LoopHeader.ofWhileTokens g tokens) := by
    unfold LoopHeader.ofWhileTokens
    split
    · exact .refl _
    · exact (Approximates.mapM h _).bind fun _ => .refl _
  unfold ofTokensWith
  split
  · exact hfor.map _
  · split
    · exact hwhile.map _
    · exact (Command.ofTokensWith_approximates h tokens).map _

/-- A line is refused for anything but its own statement exactly if one of its arguments is. -/
theorem ofTokensWith_eq_error_iff {tokens : List Token} {cause : Cause}
    (hc : ¬ cause.OfStatement) :
    ofTokensWith f tokens = .error cause ↔ (operands tokens).mapM f = .error cause := by
  have hown : ∀ {α β : Type} {own : Cause}, own.OfStatement →
      ((.error own : Except Cause α) = .error cause ↔
        (.ok [] : Except Cause (List β)) = .error cause) :=
    fun hown => ⟨fun h => absurd (Except.error.inj h ▸ hown) hc, nofun⟩
  have hfor : LoopHeader.ofForTokens f tokens = .error cause ↔
      (LoopHeader.forOperands tokens).mapM f = .error cause := by
    unfold LoopHeader.ofForTokens LoopHeader.forOperands
    split
    · exact hown trivial
    · split
      · simp [bind_eq_error_iff, pure, Except.pure]
      · simp [bind_eq_error_iff, pure, Except.pure]
      · exact hown trivial
  have hwhile : LoopHeader.ofWhileTokens f tokens = .error cause ↔
      (LoopHeader.whileOperands tokens).mapM f = .error cause := by
    unfold LoopHeader.ofWhileTokens LoopHeader.whileOperands
    split
    · exact hown trivial
    · simp [bind_eq_error_iff, pure, Except.pure]
  have hne : cause ≠ .emptyCommand := by
    rintro rfl
    exact hc trivial
  unfold ofTokensWith operands
  split
  · rw [map_eq_error_iff, hfor]
  · split
    · rw [map_eq_error_iff, hwhile]
    · exact map_eq_error_iff.trans (Command.ofTokensWith_eq_error_iff hne)

theorem mem_of_mem_operands {tokens : List Token} {t : Token} (h : t ∈ operands tokens) :
    t ∈ tokens := by
  have hfor : t ∈ LoopHeader.forOperands tokens → t ∈ tokens := by
    unfold LoopHeader.forOperands
    split
    · exact nofun
    · split
      · exact fun h => List.mem_cons_of_mem _ (List.mem_append_left [_] h)
      · exact fun h => List.mem_cons_of_mem _ (List.mem_append_left [_] h)
      · exact nofun
  have hwhile : t ∈ LoopHeader.whileOperands tokens → t ∈ tokens := by
    unfold LoopHeader.whileOperands
    split
    · exact nofun
    · exact fun h => List.mem_of_mem_tail ((List.dropLast_sublist _).subset h)
  unfold operands at h
  split at h
  · exact hfor h
  · split at h
    · exact hwhile h
    · exact h

/-- A line is refused for its own statement or for one of its tokens. -/
theorem exists_mem_of_ofTokensWith {tokens : List Token} {cause : Cause}
    (h : ofTokensWith f tokens = .error cause) :
    cause.OfStatement ∨ ∃ t ∈ tokens, f t = .error cause := by
  by_cases hc : cause.OfStatement
  · exact .inl hc
  · obtain ⟨t, ht, he⟩ := exists_mem_of_mapM_eq_error ((ofTokensWith_eq_error_iff hc).1 h)
    exact .inr ⟨t, mem_of_mem_operands ht, he⟩

/-- What a line says is refused for a mistake in the line, if its arguments are. -/
theorem inLine_of_ofTokensWith {tokens : List Token} {cause : Cause}
    (hf : ∀ t c, f t = .error c → c.InLine) (h : ofTokensWith f tokens = .error cause) :
    cause.InLine := by
  rcases exists_mem_of_ofTokensWith h with hc | ⟨t, -, ht⟩
  · exact hc.inLine
  · exact hf t cause ht

/-- What a line says is refused for its nesting exactly if it enters more levels than are left. -/
theorem ofTokensWith_ofToken_eq_nestingTooDeep_iff {depth : Nat} {tokens : List Token} :
    ofTokensWith (Argument.ofToken depth) tokens = .error .nestingTooDeep ↔
      depth < levels tokens := by
  have hc : ¬ Cause.nestingTooDeep.OfStatement := id
  rw [ofTokensWith_eq_error_iff hc, Argument.mapM_ofToken_eq_nestingTooDeep_iff, levels]

/-- The block that begins with a line, its body read from the lines that follow. -/
def reading (body : List Line → Reading (List Block)) (lines : List Line) :
    Statement → Reading Block
  | .opening header => (body lines).map header.block
  | .command c => ⟨.ok (.command c), 0⟩

end Statement

namespace Block

variable {depth : Nat} {body : List Line → Reading (List Block)} {tokens : List Token}
  {lines : List Line}

theorem readForEach_eq :
    readForEach depth body tokens lines =
      (Reading.ofExcept (LoopHeader.ofForTokens (Argument.ofToken depth) tokens)).andThen
        fun header => (body lines).map header.block := by
  unfold readForEach LoopHeader.ofForTokens
  split
  · rfl
  · rcases tokens with _ | ⟨a, _ | ⟨b, _ | ⟨c, _ | ⟨d, _ | ⟨e, tokens⟩⟩⟩⟩⟩
    · rfl
    · rfl
    · rfl
    · show (Reading.ofExcept (Argument.ofToken depth b)).andThen _ = _
      rw [Reading.ofExcept_bind_andThen]
      congr 1
      funext value
      exact (Reading.ofExcept_ok_andThen (LoopHeader.forEach none value)
        fun header => (body lines).map header.block).symm
    · show (Reading.ofExcept (Argument.ofToken depth b)).andThen _ = _
      rw [Reading.ofExcept_bind_andThen]
      congr 1
      funext key
      rw [Reading.ofExcept_bind_andThen]
      congr 1
      funext value
      exact (Reading.ofExcept_ok_andThen (LoopHeader.forEach (some key) value)
        fun header => (body lines).map header.block).symm
    · rfl

theorem readWhile_eq :
    readWhile depth body tokens lines =
      (Reading.ofExcept (LoopHeader.ofWhileTokens (Argument.ofToken depth) tokens)).andThen
        fun header => (body lines).map header.block := by
  unfold readWhile LoopHeader.ofWhileTokens headerArguments Argument.ofTokens
  split
  · rfl
  · cases hm : tokens.tail.dropLast.mapM (Argument.ofToken depth) with
    | error cause => rfl
    | ok condition => rfl

theorem readStatement_eq :
    readStatement depth body tokens lines =
      (Reading.ofExcept (Statement.ofTokensWith (Argument.ofToken depth) tokens)).andThen
        (Statement.reading body lines) := by
  unfold readStatement Statement.ofTokensWith
  split
  · rw [readForEach_eq]
    cases LoopHeader.ofForTokens (Argument.ofToken depth) tokens <;> rfl
  · split
    · rw [readWhile_eq]
      cases LoopHeader.ofWhileTokens (Argument.ofToken depth) tokens <;> rfl
    · unfold Command.ofTokens
      cases Command.ofTokensWith (Argument.ofToken depth) tokens <;> rfl

end Block

end BlockScript
