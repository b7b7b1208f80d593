import Mathlib
import BlockScript.Proofs.LoopStack

/-!
# Blocks by a stack of open loops

While a recursive reader goes through the lines of a body, the machine goes through the same lines
with the loop on top of its stack (`LoopStack.Follows`).  So a script is refused for its nesting
exactly if the machine enters more levels than the limit (`exists_nestingTooDeep_iff`), and every
other script has the blocks that the machine gives, or is refused for the same mistake with the
same lines (`blocks_eq_run`).
-/

namespace BlockScript

namespace LoopStack

variable {s : LoopStack} {line : Line} {lines : List Line} {limit : Nat}
variable {α β : Type} {r : Reading α} {next : α → LoopStack}

/-! ## Following a reader -/

/-- From the stack, the machine goes through the lines that a reading has passed and stands at
`next` behind them, or it fails as the reading does; and it enters more levels than the limit
exactly if the reading fails for its nesting. -/
def Follows (limit : Nat) (s : LoopStack) (lines : List Line) (r : Reading α)
    (next : α → LoopStack) : Prop :=
  s.outcome limit lines =
    match r.result with
    | .ok a => (next a).outcome limit (lines.drop r.passed)
    | .error e => s.refusal e

/-- The machine follows a reader of bodies to which `depth` levels are left. -/
def FollowsBody (limit depth : Nat) (body : List Line → Reading (List Block)) : Prop :=
  ∀ (s : LoopStack) (lines : List Line), s.loops ≠ [] → s.loops.length + depth = limit + 1 →
    s.Follows limit lines (body lines) fun bs => (s.add bs).close

theorem Follows.map {f : α → β} {next : β → LoopStack}
    (h : s.Follows limit lines r fun a => next (f a)) : s.Follows limit lines (r.map f) next := by
  obtain ⟨result, passed⟩ := r
  cases result <;> exact h

/-- Two readings are followed one after the other if only blocks have been added between them. -/
theorem Follows.after {bs : List Block} {n : Nat}
    (hrun : s.outcome limit lines = (s.add bs).outcome limit (lines.drop n))
    (h : (s.add bs).Follows limit (lines.drop n) r next) :
    s.Follows limit lines (r.after n) next := by
  obtain ⟨result, passed⟩ := r
  rw [Follows] at h ⊢
  rw [hrun, h]
  cases result with
  | ok a =>
    show (next a).outcome limit ((lines.drop n).drop passed) =
      (next a).outcome limit (lines.drop (n + passed))
    rw [List.drop_drop]
  | error e => exact refusal_add bs e

/-- A mistake in a line that is not one of nesting is reported under the line. -/
theorem follows_of_step_eq_error {cause : Cause} (hc : cause ≠ .nestingTooDeep) (n : Nat)
    (h : s.step line = .error (s.failure [line.number] cause)) (hl : s.lineLevels line ≤ limit) :
    s.Follows limit (line :: lines) ((Reading.fail cause n).within line.number) next := by
  have hw : (⟨[], cause⟩ : ParseError).within line.number = ⟨[line.number], cause⟩ := if_neg hc
  rw [Follows, outcome_of_step_eq_error h hl, Reading.fail, Reading.within_error, hw]
  exact (if_neg hc).symm

/-- What is read behind the line that opens a loop is followed with the loop on the stack. -/
theorem Follows.within {header : LoopHeader}
    (hs : s.step line = .ok (s.push line.number header)) (hl : s.lineLevels line ≤ limit)
    (h : (s.push line.number header).Follows limit lines r next) :
    s.Follows limit (line :: lines) ((r.within line.number).after 1) next := by
  obtain ⟨result, passed⟩ := r
  rw [Follows] at h ⊢
  rw [outcome_of_step_eq_ok hs hl, h]
  cases result with
  | ok a =>
    show (next a).outcome limit (lines.drop passed) =
      (next a).outcome limit ((line :: lines).drop (1 + passed))
    rw [Nat.add_comm, List.drop_succ_cons]
  | error e => exact refusal_push line.number header e

/-- The machine follows the reader of the block that begins at a line, unless the line closes the
body that is open. -/
theorem follows_readWith {depth : Nat} {body : List Line → Reading (List Block)}
    (hbody : FollowsBody limit depth body) (hd : s.loops.length + depth = limit)
    (hs : s.loops = [] ∨ Block.closing? line = none) :
    s.Follows limit (line :: lines) (Block.readWith depth body (line :: lines))
      fun block => s.add block.toList := by
  have hloops : s.loops.length ≤ limit := hd ▸ Nat.le_add_right _ _
  cases ht : tokenize line.text with
  | error cause =>
    obtain ⟨hstep, hl⟩ := s.step_of_error ht
    have hc : cause ≠ .nestingTooDeep := by
      rintro rfl
      simpa [Cause.IsLexical] using isLexical_of_tokenize ht
    rw [Block.readWith_of_error ht]
    exact follows_of_step_eq_error hc 0 hstep (hl ▸ hloops)
  | ok tokens =>
    cases tokens with
    | nil =>
      obtain ⟨hstep, hl⟩ := s.step_of_nil ht
      rw [Block.readWith_of_nil ht, Follows, outcome_of_step_eq_ok hstep (hl ▸ hloops)]
      show s.outcome limit lines = (s.add []).outcome limit lines
      rw [add_nil]
    | cons first rest =>
      obtain ⟨hstep, hl⟩ := step_of_cons hs ht
      have hdeep := @Statement.ofTokensWith_ofToken_eq_nestingTooDeep_iff depth (first :: rest)
      rw [Block.readWith_of_cons ht, Block.readStatement_eq]
      by_cases hx : depth < Statement.levels (first :: rest)
      · have hlt : limit < s.lineLevels line := by omega
        rw [hdeep.2 hx, Follows, outcome_of_lt hlt]
        rfl
      · have hle : s.lineLevels line ≤ limit := by omega
        have hne := fun h => hx (hdeep.1 h)
        have heq := (Statement.ofTokensWith_approximates (Argument.ofToken_approximates depth)
          (first :: rest)).resolve_left hne
        rw [heq] at hne ⊢
        cases hst : Statement.ofTokensWith Token.argument (first :: rest) with
        | error cause =>
          rw [hst] at hstep hne
          exact follows_of_step_eq_error (fun h => hne (h ▸ rfl)) 1 hstep hle
        | ok statement =>
          rw [hst] at hstep
          rw [Reading.ofExcept_ok_andThen]
          cases statement with
          | command c => exact outcome_of_step_eq_ok hstep hle
          | opening header =>
            have hpush : (s.push line.number header).loops ≠ [] := List.cons_ne_nil _ _
            have hlen : (s.push line.number header).loops.length + depth = limit + 1 := by
              rw [push, List.length_cons]
              omega
            have hb := hbody (s.push line.number header) lines hpush hlen
            simp only [close_add_push] at hb
            exact Follows.map (Follows.within hstep hle (Follows.map hb))

/-- The machine follows the reader of a body if it follows those of the bodies inside. -/
theorem follows_readBodyWith {depth : Nat} {body : List Line → Reading (List Block)}
    (hbody : FollowsBody limit depth body) (s : LoopStack) (lines : List Line) (hs : s.loops ≠ [])
    (hd : s.loops.length + depth = limit) :
    s.Follows limit lines (Block.readBodyWith (Block.readWith depth body) false lines)
      fun bs => (s.add bs).close := by
  have hloops : s.loops.length ≤ limit := hd ▸ Nat.le_add_right _ _
  cases lines with
  | nil =>
    rw [Block.readBodyWith_nil, Follows, outcome_nil hloops, finish, if_neg hs]
    rfl
  | cons line lines =>
    cases hc : Block.closing? line with
    | some extra =>
      obtain ⟨hstep, hl⟩ := step_of_closing hs hc
      have hle : s.lineLevels line ≤ limit := hl ▸ hloops
      rw [Block.readBodyWith_of_closing hc]
      by_cases he : extra = []
      · rw [if_pos he] at hstep
        rw [if_neg (by simp [he]), Follows, outcome_of_step_eq_ok hstep hle]
        show s.close.outcome limit lines = (s.add []).close.outcome limit lines
        rw [add_nil]
      · rw [if_neg he] at hstep
        rw [if_pos ⟨he, rfl⟩, Follows, outcome_of_step_eq_error hstep hle]
        rfl
    | none =>
      have hfirst : s.Follows limit (line :: lines) (Block.readWith depth body (line :: lines))
          fun block => s.add block.toList := follows_readWith hbody hd (.inr hc)
      cases hr : (Block.readWith depth body (line :: lines)).result with
      | error e =>
        rw [Follows, hr] at hfirst
        rw [Block.readBodyWith_of_error hc hr]
        exact hfirst
      | ok block =>
        obtain ⟨n, hn⟩ := Block.exists_passed_of_readWith hr
        have hs' : (s.add block.toList).loops ≠ [] := fun h => hs (loops_add_eq_nil_iff.1 h)
        have hd' : (s.add block.toList).loops.length + depth = limit := by
          rw [length_loops_add, hd]
        have hrest := follows_readBodyWith hbody (s.add block.toList) (lines.drop n) hs' hd'
        simp only [add_add] at hrest
        rw [hn] at hfirst
        rw [Block.readBodyWith_of_ok hc hn]
        exact Follows.after hfirst (Follows.map hrest)
termination_by lines.length
decreasing_by simp only [List.length_drop, List.length_cons]; omega

theorem followsBody_readBody (limit depth : Nat) :
    FollowsBody limit depth (Block.readBody depth) := by
  induction depth with
  | zero =>
    intro s lines _ hd
    have hlt : limit < s.loops.length := by omega
    rw [Follows, outcome_of_length_loops hlt]
    rfl
  | succ depth ih =>
    intro s lines hs hd
    rw [Block.readBody_succ]
    exact follows_readBodyWith ih s lines hs (by omega)

/-! ## Programs -/

/-- At top level the machine ends as the reader of all blocks does. -/
theorem outcome_eq_of_readAll (s : LoopStack) (lines : List Line) (hs : s.loops = []) :
    s.outcome maxNesting lines =
      match (Block.readAll lines).result with
      | .ok bs => some (.ok (s.blocks ++ bs))
      | .error e => s.refusal e := by
  have hloops : s.loops.length + maxNesting = maxNesting := by rw [hs]; rfl
  cases lines with
  | nil =>
    rw [Block.readAll_nil, outcome_nil (hloops ▸ Nat.le_add_right _ _), finish, if_pos hs]
    simp
  | cons line lines =>
    have hfirst : s.Follows maxNesting (line :: lines) (Block.read (line :: lines))
        fun block => s.add block.toList :=
      follows_readWith (followsBody_readBody maxNesting maxNesting) hloops (.inl hs)
    cases hr : (Block.read (line :: lines)).result with
    | error e =>
      rw [Follows, hr] at hfirst
      rw [Block.readAll_of_error hr, hfirst]
      exact (refusal_atTopLevel line.number e).symm
    | ok block =>
      obtain ⟨n, hn⟩ : ∃ n, Block.read (line :: lines) = ⟨.ok block, n + 1⟩ :=
        Block.exists_passed_of_readWith hr
      have hb : (s.add block.toList).blocks = s.blocks ++ block.toList := by rw [add, hs]
      have ih := outcome_eq_of_readAll (s.add block.toList) (lines.drop n)
        (loops_add_eq_nil_iff.2 hs)
      have hrun : s.outcome maxNesting (line :: lines) =
          (s.add block.toList).outcome maxNesting (lines.drop n) := by
        rw [Follows, hn] at hfirst
        exact hfirst
      rw [hrun, ih, hb, Block.readAll_of_ok hn]
      cases hrest : (Block.readAll (lines.drop n)).result with
      | ok bs => simp [Reading.map, hrest, Except.map]
      | error e => simp [Reading.map, hrest, Except.map, refusal_add]
termination_by lines.length
decreasing_by simp only [List.length_drop, List.length_cons]; omega

end LoopStack

namespace Script

variable {script : Script}

theorem outcome_eq (script : Script) :
    LoopStack.empty.outcome maxNesting script.lines =
      match script.blocks with
      | .ok bs => some (.ok bs)
      | .error e => if e.cause = .nestingTooDeep then none else some (.error e) :=
  LoopStack.outcome_eq_of_readAll LoopStack.empty script.lines rfl

/-- A script is refused for its nesting exactly if it enters more levels than there are. -/
theorem exists_nestingTooDeep_iff :
    (∃ trace, script.blocks = .error ⟨trace, .nestingTooDeep⟩) ↔ maxNesting < script.levels := by
  have hl : maxNesting < script.levels ↔
      LoopStack.empty.outcome maxNesting script.lines = none := by
    rw [LoopStack.outcome, levels]
    split <;> simp [*]
  rw [hl, outcome_eq]
  cases script.blocks with
  | ok bs => simp
  | error e =>
    obtain ⟨trace, cause⟩ := e
    simp

end Script

/-- Within the nesting limit, one pass of the machine gives the blocks of a script or the mistake
that it is refused for, with the lines that it is reported under. -/
theorem blocks_eq_run (script : Script) (h : script.levels ≤ maxNesting) :
    script.blocks = LoopStack.run script.lines := by
  have hrun : LoopStack.empty.outcome maxNesting script.lines =
      some (LoopStack.run script.lines) := if_neg (Nat.not_lt.2 h)
  have hblocks := script.outcome_eq
  rw [hrun] at hblocks
  cases hb : script.blocks with
  | ok bs =>
    rw [hb] at hblocks
    exact (Option.some.inj hblocks).symm
  | error e =>
    rw [hb] at hblocks
    by_cases hc : e.cause = .nestingTooDeep
    · simp [hc] at hblocks
    · simp only [if_neg hc] at hblocks
      exact (Option.some.inj hblocks).symm

/-- A command without a name in the body of a loop is reported under the line of the loop and under
its own, whatever their numbers are. -/
theorem blocks_eq_run_emptyCommand :
    Script.levels ⟨[⟨"for x \x7d".toList, 10⟩, ⟨"# a".toList, 3⟩, ⟨"a (b) ()".toList, 7⟩]⟩ = 2 ∧
      Script.blocks ⟨[⟨"for x \x7d".toList, 10⟩, ⟨"# a".toList, 3⟩, ⟨"a (b) ()".toList, 7⟩]⟩ =
        .error ⟨[10, 7], .emptyCommand⟩ := by
  have h : Script.levels ⟨[⟨"for x \x7d".toList, 10⟩, ⟨"# a".toList, 3⟩,
      ⟨"a (b) ()".toList, 7⟩]⟩ = 2 := by
    cbv
  refine ⟨h, (blocks_eq_run _ (h ▸ by decide)).trans ?_⟩
  cbv

end BlockScript
