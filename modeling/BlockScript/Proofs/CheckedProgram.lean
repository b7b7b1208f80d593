import BlockScript.Proofs.CheckedReading
import BlockScript.Session

/-!
# Programs read with every step checked

A program is read block by block, and too deep a nesting is put down to the line of the block that
was being read.  So a source is read or refused, whatever it is and however many levels there are,
and no line makes a session come upon another fault (`checked_parse_refuses_or_reads`).
-/

namespace BlockScript

namespace Checked

/-! ## Programs -/

/-- One round of reading a program with at most `limit` levels. -/
def programRound (limit : Nat) :
    List Block × Cursor → Except Fault (Round (List Block × Cursor) (List Block))
  | (blocks, c) =>
    if c.atEnd then .ok (.done blocks)
    else do
      let line ← currentLine c
      let (block?, c) ←
        (nextBlock limit (readBody limit) c).mapError (.atTopLevel line.number)
      return .again (blocks ++ block?.toList, c)

/-- The blocks of a source, read with at most `limit` levels. -/
def parse (limit : Nat) (source : Text) : Except Fault (List Block) := do
  let script ← script source
  loop (·.2.left) (programRound limit) ([], .ofScript script)

section Program

variable {c : Cursor} {line : Line} {lines : List Line} {limit : Nat}

theorem loop_programRound_nil (limit : Nat) (c : Cursor) (blocks : List Block) :
    loop (·.2.left) (programRound limit) (blocks, c.before []) = .ok blocks := by
  refine loop_of_done ?_
  rw [programRound, Cursor.atEnd_before]
  rfl

theorem programRound_cons (limit : Nat) (h : line :: lines <:+ c.script.lines)
    (blocks : List Block) :
    programRound limit (blocks, c.before (line :: lines)) =
      ((Block.readWith limit (Block.readBody limit) (line :: lines)).result.map fun block? =>
        .again (blocks ++ block?.toList, c.before ((line :: lines).drop
          (Block.readWith limit (Block.readBody limit) (line :: lines)).passed))).mapError
            fun e => .refused (e.atTopLevel line.number) := by
  rw [programRound, Cursor.atEnd_before, currentLine_before h]
  show (nextBlock limit (readBody limit) _).mapError _ >>= _ = _
  rw [agrees_nextBlock (agrees_readBody limit) c _ h, outcome]
  cases (Block.readWith limit (Block.readBody limit) (line :: lines)).result with
  | error e => exact congrArg Except.error (Fault.atTopLevel_ofError line.number e)
  | ok block? => rfl

/-- A program is refused for the mistake in its first block. -/
theorem loop_programRound_of_error (h : line :: lines <:+ c.script.lines) {e : ParseError}
    (hr : (Block.readWith limit (Block.readBody limit) (line :: lines)).result = .error e)
    (blocks : List Block) :
    loop (·.2.left) (programRound limit) (blocks, c.before (line :: lines)) =
      .error (.refused (e.atTopLevel line.number)) := by
  have hround := programRound_cons limit h blocks
  rw [hr] at hround
  exact loop_of_error hround

/-- Behind a block that is read, the program goes on. -/
theorem loop_programRound_of_ok (h : line :: lines <:+ c.script.lines) {block? : Option Block}
    {n : Nat}
    (hr : Block.readWith limit (Block.readBody limit) (line :: lines) = ⟨.ok block?, n + 1⟩)
    (blocks : List Block) :
    loop (·.2.left) (programRound limit) (blocks, c.before (line :: lines)) =
      loop (·.2.left) (programRound limit)
        (blocks ++ block?.toList, c.before (lines.drop n)) := by
  have hround := programRound_cons limit h blocks
  rw [hr] at hround
  exact loop_of_again hround (c.left_before_drop_lt line lines n)

/-- However many levels there are, the lines of a script are read or refused. -/
theorem loop_programRound_ok_or_refused (limit : Nat) (c : Cursor) :
    ∀ (lines : List Line) (blocks : List Block), lines <:+ c.script.lines →
      (∃ bs, loop (·.2.left) (programRound limit) (blocks, c.before lines) = .ok bs) ∨
        ∃ e, loop (·.2.left) (programRound limit) (blocks, c.before lines) = .error (.refused e)
  | [], blocks, h => .inl ⟨blocks, loop_programRound_nil limit c blocks⟩
  | line :: lines, blocks, h => by
    cases hr : (Block.readWith limit (Block.readBody limit) (line :: lines)).result with
    | error e => exact .inr ⟨_, loop_programRound_of_error h hr blocks⟩
    | ok block? =>
      obtain ⟨n, hn⟩ := Block.exists_passed_of_readWith hr
      rw [loop_programRound_of_ok h hn]
      exact loop_programRound_ok_or_refused limit c (lines.drop n) _ (drop_isSuffix h n)
termination_by lines => lines.length
decreasing_by simp only [List.length_drop, List.length_cons]; omega

/-- With as many levels as may be open at once, the blocks of the lines are those of
`Block.readAll`. -/
theorem loop_programRound (c : Cursor) :
    ∀ (lines : List Line) (blocks : List Block), lines <:+ c.script.lines →
      loop (·.2.left) (programRound maxNesting) (blocks, c.before lines) =
        ((Block.readAll lines).result.map (blocks ++ ·)).mapError .refused
  | [], blocks, h => by
    rw [loop_programRound_nil, Block.readAll_nil]
    simp [Except.map, Except.mapError]
  | line :: lines, blocks, h => by
    cases hr : (Block.read (line :: lines)).result with
    | error e =>
      rw [loop_programRound_of_error h hr, Block.readAll_of_error hr]
      rfl
    | ok block? =>
      obtain ⟨n, hn⟩ : ∃ n, Block.read (line :: lines) = ⟨.ok block?, n + 1⟩ :=
        Block.exists_passed_of_readWith hr
      rw [loop_programRound_of_ok h hn, Block.readAll_of_ok hn,
        loop_programRound c (lines.drop n) _ (drop_isSuffix h n)]
      cases hrest : (Block.readAll (lines.drop n)).result <;>
        simp [Reading.map, Except.map, Except.mapError, hrest]
termination_by lines => lines.length
decreasing_by simp only [List.length_drop, List.length_cons]; omega

theorem ofScript_eq_before (script : Script) :
    Cursor.ofScript script = (Cursor.ofScript script).before script.lines := by
  simp [Cursor.ofScript, Cursor.before]

theorem parse_ok_or_refused (limit : Nat) (source : Text) :
    (∃ blocks, parse limit source = .ok blocks) ∨
      ∃ e, parse limit source = .error (.refused e) := by
  rw [parse, script_eq]
  cases Script.ofSource source with
  | error e => exact .inr ⟨e, rfl⟩
  | ok script =>
    have hloop := loop_programRound_ok_or_refused limit (.ofScript script) script.lines []
      List.suffix_rfl
    rw [← ofScript_eq_before] at hloop
    exact hloop

/-- With as many levels as may be open at once, a source is read as it is by `BlockScript.parse`. -/
theorem parse_eq (source : Text) :
    parse maxNesting source = (BlockScript.parse source).mapError .refused := by
  rw [parse, script_eq, BlockScript.parse]
  cases Script.ofSource source with
  | error e => rfl
  | ok script =>
    show loop _ _ ([], Cursor.ofScript script) = script.blocks.mapError .refused
    have hloop := loop_programRound (.ofScript script) script.lines [] List.suffix_rfl
    rw [← ofScript_eq_before] at hloop
    rw [hloop, Script.blocks]
    cases (Block.readAll script.lines).result <;> rfl

end Program

/-! ## Sessions -/

/-- How a session answers a line: it shows a text and goes on, unless it ends; or it shows how a
reading came upon a fault that is no reason to refuse the source. -/
inductive Answer where
  | shown (text : Text) (next? : Option Session)
  | traceback (fault : Fault)

/-- Adds a line to the pending ones of a session. -/
def submit (limit : Nat) (s : Session) (line : Text) : Except UnsupportedFormat Answer :=
  let lines := s.pending ++ [line]
  let source := Text.unlines lines
  match parse limit source with
  | .ok blocks => (s.display blocks).map fun text => .shown text (some { s with pending := [] })
  | .error (.refused e) =>
    if awaitsMore source e.message then .ok (.shown [] (some { s with pending := lines }))
    else
      .ok (.shown ("[error] >>> ".toList ++ e.message ++ ['\n']) (some { s with pending := [] }))
  | .error fault => .ok (.traceback fault)

/-- Answers a line. -/
def enter (limit : Nat) (s : Session) (line : Text) : Except UnsupportedFormat Answer :=
  let word := line.trim
  if !s.pending.isEmpty then submit limit s line
  else if word = "exit".toList ∨ word = "quit".toList then .ok (.shown [] none)
  else if word = "verbose-mode".toList then
    .ok (.shown (Session.verboseNotice !s.verbose) (some { s with verbose := !s.verbose }))
  else if word.isEmpty then .ok (.shown [] (some s))
  else submit limit s line

theorem submit_ne_traceback (limit : Nat) (s : Session) (line : Text) (fault : Fault) :
    submit limit s line ≠ .ok (.traceback fault) := by
  rw [submit]
  rcases parse_ok_or_refused limit (Text.unlines (s.pending ++ [line])) with ⟨blocks, h⟩ | ⟨e, h⟩
  · simp only [h]
    cases s.display blocks <;> nofun
  · simp only [h]
    split <;> nofun

theorem enter_ne_traceback (limit : Nat) (s : Session) (line : Text) (fault : Fault) :
    enter limit s line ≠ .ok (.traceback fault) := by
  have hsubmit := submit_ne_traceback limit s line fault
  unfold enter
  dsimp only
  split_ifs
  · exact hsubmit
  · nofun
  · nofun
  · nofun
  · exact hsubmit

theorem submit_eq (s : Session) (line : Text) :
    submit maxNesting s line = (s.submit line).map fun (text, next?) => .shown text next? := by
  rw [submit, parse_eq, Session.submit]
  cases BlockScript.parse (Text.unlines (s.pending ++ [line])) with
  | ok blocks =>
    show (s.display blocks).map _ = ((s.display blocks).map _).map _
    cases s.display blocks <;> rfl
  | error e =>
    show (if _ then _ else _) = (if _ then _ else _ : Except _ _).map _
    split <;> rfl

theorem enter_eq (s : Session) (line : Text) :
    enter maxNesting s line = (s.enter line).map fun (text, next?) => .shown text next? := by
  have hsubmit := submit_eq s line
  unfold enter Session.enter
  dsimp only
  split_ifs
  · exact hsubmit
  · rfl
  · rfl
  · rfl
  · exact hsubmit

end Checked

/-- However many levels there are, reading a source with every step checked gives its blocks or
refuses it, and with as many levels as may be open at once it does so as `parse` does.  So no line
makes a session come upon a fault; it is answered as by `Session.enter`. -/
theorem checked_parse_refuses_or_reads :
    (∀ (limit : Nat) (source : Text), (∃ blocks, Checked.parse limit source = .ok blocks) ∨
        ∃ e, Checked.parse limit source = .error (.refused e)) ∧
      (∀ source, Checked.parse maxNesting source = (parse source).mapError .refused) ∧
      (∀ (limit : Nat) (s : Session) (line : Text) (fault : Fault),
        Checked.enter limit s line ≠ .ok (.traceback fault)) ∧
      ∀ (s : Session) (line : Text), Checked.enter maxNesting s line =
        (s.enter line).map fun (text, next?) => .shown text next? :=
  ⟨Checked.parse_ok_or_refused, Checked.parse_eq, Checked.enter_ne_traceback, Checked.enter_eq⟩

end BlockScript
