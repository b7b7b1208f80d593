import BlockScript.Proofs.Statement

/-!
# A stack of open loops

`LoopStack.run` reads the lines of a script once, from the first to the last, and keeps the open
loops on a stack instead of reading their bodies by recursion.  A mistake is put down to the lines
of the open loops, and to its own line as well unless it is about the end of a body.  The machine
has no limit of nesting, but `LoopStack.levels` says how many levels it enters.
-/

namespace BlockScript

/-- A loop whose body has not been closed: the number of the line that opened it, what that line
says, and the blocks of the body so far. -/
structure OpenLoop where
  number : Int
  header : LoopHeader
  body : List Block
  deriving DecidableEq, Repr

/-- The open loops, the innermost first, and the blocks so far at top level. -/
structure LoopStack where
  loops : List OpenLoop
  blocks : List Block
  deriving DecidableEq, Repr

namespace LoopStack

/-- The stack in front of all lines. -/
def empty : LoopStack := ⟨[], []⟩

/-- The stack with more blocks in the innermost body, or at top level if no loop is open. -/
def add (s : LoopStack) (bs : List Block) : LoopStack :=
  match s.loops with
  | [] => { s with blocks := s.blocks ++ bs }
  | loop :: outer => { s with loops := { loop with body := loop.body ++ bs } :: outer }

/-- The stack with one more open loop. -/
def push (s : LoopStack) (number : Int) (header : LoopHeader) : LoopStack :=
  { s with loops := ⟨number, header, []⟩ :: s.loops }

/-- The stack with the innermost loop closed and added to the blocks around it. -/
def close (s : LoopStack) : LoopStack :=
  match s.loops with
  | [] => s
  | loop :: outer => { s with loops := outer }.add [loop.header.block loop.body]

/-- A mistake, reported under the lines of the open loops, the outermost first, and then under
`numbers`. -/
def failure (s : LoopStack) (numbers : List Int) (cause : Cause) : ParseError :=
  ⟨(s.loops.map (·.number)).reverse ++ numbers, cause⟩

/-- The stack after what a line says. -/
def perform (s : LoopStack) (number : Int) : Statement → LoopStack
  | .opening header => s.push number header
  | .command c => s.add [.command c]

/-- The stack after one more line. -/
def step (s : LoopStack) (line : Line) : Except ParseError LoopStack :=
  match tokenize line.text with
  | .error cause => .error (s.failure [line.number] cause)
  | .ok [] => .ok s
  | .ok (first :: rest) =>
    if s.loops ≠ [] ∧ first = .bodyMark then
      if rest = [] then .ok s.close else .error (s.failure [] .textAfterClose)
    else
      match Statement.ofTokensWith Token.argument (first :: rest) with
      | .error cause => .error (s.failure [line.number] cause)
      | .ok statement => .ok (s.perform line.number statement)

/-- The blocks at the end of the lines, where no loop may be open. -/
def finish (s : LoopStack) : Except ParseError (List Block) :=
  if s.loops = [] then .ok s.blocks else .error (s.failure [] .unclosedBody)

/-- The blocks of a script whose front has led to the stack and whose rest is `lines`. -/
def runFrom (s : LoopStack) (lines : List Line) : Except ParseError (List Block) :=
  (lines.foldlM step s).bind finish

/-- The blocks of some lines. -/
def run (lines : List Line) : Except ParseError (List Block) := empty.runFrom lines

/-- How many levels are entered by the time that a line is read: those of the open loops and,
unless the line closes one, those of its tokens. -/
def lineLevels (s : LoopStack) (line : Line) : Nat :=
  match tokenize line.text with
  | .ok (first :: rest) =>
    if s.loops ≠ [] ∧ first = .bodyMark then s.loops.length
    else s.loops.length + Statement.levels (first :: rest)
  | _ => s.loops.length

/-- How many levels are entered, one inside the other, on the way through the lines up to the
first that is refused. -/
def levels (s : LoopStack) : List Line → Nat
  | [] => s.loops.length
  | line :: lines =>
    match s.step line with
    | .ok t => max (s.lineLevels line) (t.levels lines)
    | .error _ => s.lineLevels line

/-- What the machine comes to, unless it enters more levels than the limit. -/
def outcome (limit : Nat) (s : LoopStack) (lines : List Line) :
    Option (Except ParseError (List Block)) :=
  if limit < s.levels lines then none else some (s.runFrom lines)

/-- What comes of a mistake in a body of the innermost loop, or at top level; one of nesting is not
the machine's. -/
def refusal (s : LoopStack) (e : ParseError) : Option (Except ParseError (List Block)) :=
  if e.cause = .nestingTooDeep then none else some (.error (s.failure e.trace e.cause))

variable {s : LoopStack} {line : Line} {lines : List Line}

/-! ## Steps -/

@[simp]
theorem add_nil (s : LoopStack) : s.add [] = s := by
  obtain ⟨loops, blocks⟩ := s
  cases loops <;> simp [add]

theorem add_add (s : LoopStack) (bs cs : List Block) : (s.add bs).add cs = s.add (bs ++ cs) := by
  obtain ⟨loops, blocks⟩ := s
  cases loops <;> simp [add]

theorem length_loops_add (bs : List Block) : (s.add bs).loops.length = s.loops.length := by
  obtain ⟨loops, blocks⟩ := s
  cases loops <;> simp [add]

theorem loops_add_eq_nil_iff {bs : List Block} : (s.add bs).loops = [] ↔ s.loops = [] := by
  rw [← List.length_eq_zero_iff, length_loops_add, List.length_eq_zero_iff]

theorem failure_add (bs : List Block) (numbers : List Int) (cause : Cause) :
    (s.add bs).failure numbers cause = s.failure numbers cause := by
  obtain ⟨loops, blocks⟩ := s
  cases loops <;> simp [add, failure]

theorem failure_push (number : Int) (header : LoopHeader) (numbers : List Int) (cause : Cause) :
    (s.push number header).failure numbers cause = s.failure (number :: numbers) cause := by
  simp [push, failure]

theorem refusal_add (bs : List Block) (e : ParseError) : (s.add bs).refusal e = s.refusal e := by
  rw [refusal, refusal, failure_add]

theorem refusal_push (number : Int) (header : LoopHeader) (e : ParseError) :
    (s.push number header).refusal e = s.refusal (e.within number) := by
  by_cases hc : e.cause = .nestingTooDeep
  · rw [ParseError.within, if_pos hc, refusal, refusal, if_pos hc, if_pos hc]
  · have hw : e.within number = ⟨number :: e.trace, e.cause⟩ := if_neg hc
    rw [hw, refusal, refusal, if_neg hc, if_neg hc, failure_push]

theorem refusal_atTopLevel (number : Int) (e : ParseError) :
    s.refusal (e.atTopLevel number) = s.refusal e := by
  by_cases hc : e.cause = .nestingTooDeep
  · rw [ParseError.atTopLevel, if_pos hc, refusal, refusal, if_pos hc, if_pos hc]
  · rw [ParseError.atTopLevel, if_neg hc]

theorem close_add_push (number : Int) (header : LoopHeader) (bs : List Block) :
    ((s.push number header).add bs).close = s.add [header.block bs] := by
  simp [push, add, close]

theorem step_of_error {cause : Cause} (h : tokenize line.text = .error cause) :
    s.step line = .error (s.failure [line.number] cause) ∧ s.lineLevels line = s.loops.length := by
  rw [step, lineLevels, h]
  exact ⟨rfl, rfl⟩

theorem step_of_nil (h : tokenize line.text = .ok []) :
    s.step line = .ok s ∧ s.lineLevels line = s.loops.length := by
  rw [step, lineLevels, h]
  exact ⟨rfl, rfl⟩

theorem step_of_closing {extra : List Token} (hs : s.loops ≠ [])
    (h : Block.closing? line = some extra) :
    (s.step line = if extra = [] then .ok s.close else .error (s.failure [] .textAfterClose)) ∧
      s.lineLevels line = s.loops.length := by
  have hc : s.loops ≠ [] ∧ Token.bodyMark = .bodyMark := ⟨hs, rfl⟩
  rw [Block.closing?_eq_some_iff] at h
  rw [step, lineLevels, h]
  exact ⟨if_pos hc, if_pos hc⟩

theorem step_of_cons {first : Token} {rest : List Token}
    (hs : s.loops = [] ∨ Block.closing? line = none)
    (h : tokenize line.text = .ok (first :: rest)) :
    (s.step line =
      match Statement.ofTokensWith Token.argument (first :: rest) with
      | .error cause => .error (s.failure [line.number] cause)
      | .ok statement => .ok (s.perform line.number statement)) ∧
      s.lineLevels line = s.loops.length + Statement.levels (first :: rest) := by
  have hc : ¬ (s.loops ≠ [] ∧ first = .bodyMark) := by
    rintro ⟨hne, rfl⟩
    have hn := Block.closing?_eq_some_iff.2 h
    rw [hs.resolve_left hne] at hn
    cases hn
  rw [step, lineLevels, h]
  exact ⟨if_neg hc, if_neg hc⟩

/-! ## Levels -/

theorem length_loops_le_lineLevels : s.loops.length ≤ s.lineLevels line := by
  unfold lineLevels
  split
  · split
    · exact Nat.le_refl _
    · exact Nat.le_add_right _ _
  · exact Nat.le_refl _

theorem lineLevels_le_levels : s.lineLevels line ≤ s.levels (line :: lines) := by
  rw [levels]
  split
  · exact Nat.le_max_left _ _
  · exact Nat.le_refl _

theorem length_loops_le_levels : s.loops.length ≤ s.levels lines := by
  cases lines with
  | nil => exact Nat.le_refl _
  | cons line lines => exact Nat.le_trans length_loops_le_lineLevels lineLevels_le_levels

theorem levels_of_step_eq_ok {t : LoopStack} (h : s.step line = .ok t) :
    s.levels (line :: lines) = max (s.lineLevels line) (t.levels lines) := by
  rw [levels, h]

/-! ## Outcomes -/

variable {limit : Nat}

theorem outcome_nil (hs : s.loops.length ≤ limit) : s.outcome limit [] = some s.finish :=
  if_neg (Nat.not_lt.2 hs)

theorem outcome_of_lt (h : limit < s.lineLevels line) : s.outcome limit (line :: lines) = none :=
  if_pos (Nat.lt_of_lt_of_le h lineLevels_le_levels)

theorem outcome_of_step_eq_ok {t : LoopStack} (h : s.step line = .ok t)
    (hl : s.lineLevels line ≤ limit) :
    s.outcome limit (line :: lines) = t.outcome limit lines := by
  have hr : s.runFrom (line :: lines) = t.runFrom lines := by
    rw [runFrom, List.foldlM_cons, h]
    rfl
  have hm : limit < s.levels (line :: lines) ↔ limit < t.levels lines := by
    rw [levels_of_step_eq_ok h]
    omega
  simp only [outcome, hr, hm]

theorem outcome_of_step_eq_error {e : ParseError} (h : s.step line = .error e)
    (hl : s.lineLevels line ≤ limit) : s.outcome limit (line :: lines) = some (.error e) := by
  have hr : s.runFrom (line :: lines) = .error e := by
    rw [runFrom, List.foldlM_cons, h]
    rfl
  have hm : s.levels (line :: lines) = s.lineLevels line := by rw [levels, h]
  rw [outcome, hr, hm, if_neg (Nat.not_lt.2 hl)]

theorem outcome_of_length_loops (h : limit < s.loops.length) : s.outcome limit lines = none :=
  if_pos (Nat.lt_of_lt_of_le h length_loops_le_levels)

end LoopStack

/-- How many levels of loops and of commands in parentheses are entered, one inside the other, in
reading a script. -/
def Script.levels (script : Script) : Nat := LoopStack.empty.levels script.lines

end BlockScript
