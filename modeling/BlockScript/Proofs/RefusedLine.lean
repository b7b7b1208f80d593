import Mathlib
import BlockScript.Proofs.DeepNesting
import BlockScript.Proofs.EmbeddedCommand

/-!
# The line that is refused

`LoopStack.refusedAt` says where the machine that keeps the open loops on a stack stops with a
mistake: at one of the lines, or behind the last.  The readers of blocks stop at the same line with
the same mistake (`LoopStack.locates_readWith`, `LoopStack.locates_readBody`), and what is wrong
there tells how far they have passed (`Refusal`): a line whose tokens are taken up is passed even if
it is refused for what they say, and a line that has no tokens to take up is not.
-/

namespace BlockScript

/-! ## What is wrong with a line -/

/-- What some lines can be refused for at their front, with the number of lines that a reader has
passed there. -/
inductive Refusal : List Line → Cause → (passed : Nat) → Prop where
  | tokens {line : Line} {lines : List Line} {cause : Cause}
      (hline : tokenize line.text = .error cause) : Refusal (line :: lines) cause 0
  | close {line : Line} {lines : List Line} {extra : List Token}
      (hline : Block.closing? line = some extra) (hextra : extra ≠ []) :
      Refusal (line :: lines) .textAfterClose 0
  | statement {line : Line} {lines : List Line} {first : Token} {rest : List Token} {cause : Cause}
      (hline : tokenize line.text = .ok (first :: rest))
      (hmeaning : Statement.ofTokensWith Token.argument (first :: rest) = .error cause)
      (hcause : cause.OfStatement) : Refusal (line :: lines) cause 1
  | ends : Refusal [] .unclosedBody 0

/-- The tokens of a line are refused for what the line says, unless they run out of levels. -/
theorem Statement.ofStatement_of_tokenize {line : Text} {tokens : List Token} {depth : Nat}
    {cause : Cause} (ht : tokenize line = .ok tokens)
    (h : ofTokensWith (Argument.ofToken depth) tokens = .error cause)
    (hdeep : cause ≠ .nestingTooDeep) : cause.OfStatement := by
  rcases exists_mem_of_ofTokensWith h with hc | ⟨t, hm, he⟩
  · exact hc
  · rcases Argument.cause_of_ofToken ht hm he with hc | ⟨rfl, -⟩
    · exact absurd hc hdeep
    · trivial

namespace LoopStack

/-! ## Where the machine stops -/

/-- The number of lines that the machine gets through from the stack before a mistake, with the
mistake; there is none if it gets through them all and no loop is left open. -/
def refusedAt (s : LoopStack) : List Line → Option (Nat × ParseError)
  | [] => if s.loops = [] then none else some (0, s.failure [] .unclosedBody)
  | line :: lines =>
    match s.step line with
    | .error e => some (0, e)
    | .ok t => (t.refusedAt lines).map fun (k, e) => (k + 1, e)

variable {s t : LoopStack} {line : Line} {lines : List Line} {e : ParseError}

/-- A line is refused under its number, or for what follows a closing mark. -/
theorem failure_of_step_eq_error (h : s.step line = .error e) :
    (∃ cause, e = s.failure [line.number] cause) ∨ e = s.failure [] .textAfterClose := by
  cases ht : tokenize line.text with
  | error cause =>
    rw [(s.step_of_error ht).1] at h
    cases h
    exact .inl ⟨cause, rfl⟩
  | ok tokens =>
    cases tokens with
    | nil =>
      rw [(s.step_of_nil ht).1] at h
      cases h
    | cons first rest =>
      simp only [step, ht] at h
      split at h
      · split at h
        · cases h
        · cases h
          exact .inr rfl
      · split at h
        · cases h
          exact .inl ⟨_, rfl⟩
        · cases h

theorem refusedAt_of_step_eq_error (h : s.step line = .error e) :
    s.refusedAt (line :: lines) = some (0, e) := by
  rw [refusedAt, h]

theorem refusedAt_of_step_eq_ok (h : s.step line = .ok t) :
    s.refusedAt (line :: lines) = (t.refusedAt lines).map fun (k, e) => (k + 1, e) := by
  rw [refusedAt, h]

/-- A mistake in the tokens of a line or in what the line says is reported under its number. -/
theorem getLast?_trace_of_refusedAt {k : Nat} (h : s.refusedAt lines = some (k, e))
    (hc : e.cause.IsLexical ∨ e.cause.OfStatement) :
    e.trace.getLast? = lines[k]?.map (·.number) := by
  induction lines generalizing s k with
  | nil =>
    rw [refusedAt] at h
    split at h
    · cases h
    · cases h
      exact absurd hc (by simp [failure, Cause.IsLexical, Cause.OfStatement])
  | cons line lines ih =>
    cases hstep : s.step line with
    | error d =>
      rw [refusedAt_of_step_eq_error hstep] at h
      cases h
      rcases failure_of_step_eq_error hstep with ⟨cause, rfl⟩ | rfl
      · exact List.getLast?_concat
      · exact absurd hc (by simp [failure, Cause.IsLexical, Cause.OfStatement])
    | ok t =>
      rw [refusedAt_of_step_eq_ok hstep] at h
      obtain ⟨⟨j, d⟩, hat, heq⟩ := Option.map_eq_some_iff.1 h
      cases heq
      exact ih hat

/-- The machine stops with a mistake exactly if its run ends with that mistake. -/
theorem exists_refusedAt_iff (s : LoopStack) (lines : List Line) (e : ParseError) :
    (∃ k, s.refusedAt lines = some (k, e)) ↔ s.runFrom lines = .error e := by
  induction lines generalizing s with
  | nil =>
    have hrun : s.runFrom [] = s.finish := rfl
    rw [hrun, refusedAt, finish]
    split <;> simp
  | cons line lines ih =>
    cases hstep : s.step line with
    | error d =>
      have hrun : s.runFrom (line :: lines) = .error d := by
        rw [runFrom, List.foldlM_cons, hstep]
        rfl
      rw [refusedAt_of_step_eq_error hstep, hrun]
      simp
    | ok t =>
      have hrun : s.runFrom (line :: lines) = t.runFrom lines := by
        rw [runFrom, List.foldlM_cons, hstep]
        rfl
      rw [refusedAt_of_step_eq_ok hstep, hrun, ← ih]
      simp

/-- The machine gets through lines that are blocks, and adds these. -/
theorem refusedAt_append_of_writtenOn {inBody : Bool} {front : List Line} {bs : List Block}
    (h : Block.WrittenOn inBody front bs) :
    ∀ (s : LoopStack) (rest : List Line), (inBody = false → s.loops = []) →
      s.refusedAt (front ++ rest) =
        ((s.add bs).refusedAt rest).map fun (k, e) => (k + front.length, e) := by
  induction h with
  | nil =>
    intro s rest _
    simp
  | @blank inBody line lines bs ht _ ih =>
    intro s rest hs
    rw [List.cons_append, refusedAt_of_step_eq_ok (s.step_of_nil ht).1, ih s rest hs,
      Option.map_map]
    rfl
  | @command inBody line lines c bs hline hopen _ ih =>
    intro s rest hs
    have hc : s.loops = [] ∨ Block.closing? line = none := by
      cases inBody with
      | false => exact .inl (hs rfl)
      | true => exact .inr (hopen rfl)
    have hadd : s.perform line.number (.command c) = s.add [.command c] := rfl
    have ih := ih (s.add [.command c]) rest fun h => loops_add_eq_nil_iff.2 (hs h)
    rw [add_add, List.singleton_append] at ih
    rw [List.cons_append, refusedAt_of_step_eq_ok (step_of_means hc hline).1, hadd, ih,
      Option.map_map]
    rfl
  | @loop inBody line close inner lines header body bs hline _ hclose _ ihbody ih =>
    intro s rest hs
    have hopen : s.loops = [] ∨ Block.closing? line = none :=
      .inr (Block.closing?_of_means_opening hline)
    have hpush : s.perform line.number (.opening header) = s.push line.number header := rfl
    have ihbody := ihbody (s.push line.number header) (close :: (lines ++ rest)) (by simp)
    -- the line that closes the loop adds it to the blocks around
    have hne : ((s.push line.number header).add body).loops ≠ [] := fun h =>
      List.cons_ne_nil _ _ (loops_add_eq_nil_iff.1 h)
    have hclosed := (step_of_closing hne hclose).1
    rw [if_pos rfl, close_add_push] at hclosed
    have ih := ih (s.add [header.block body]) rest fun h => loops_add_eq_nil_iff.2 (hs h)
    rw [add_add, List.singleton_append] at ih
    rw [List.cons_append, List.append_assoc, List.cons_append,
      refusedAt_of_step_eq_ok (step_of_means hopen hline).1, hpush, ihbody,
      refusedAt_of_step_eq_ok hclosed, ih]
    simp only [Option.map_map, Function.comp_def, List.length_cons, List.length_append]
    congr 1
    funext ⟨k, e⟩
    simp only [Prod.mk.injEq, and_true]
    omega

/-! ## Where the readers stop -/

variable {α β : Type} {r : Reading α} {depth : Nat} {body : List Line → Reading (List Block)}

/-- If the reading has failed, and not for its nesting, the machine stops at a line with the same
mistake, and the reading has passed the lines in front of it and what it has passed there. -/
def Locates (s : LoopStack) (lines : List Line) (r : Reading α) : Prop :=
  ∀ e, r.result = .error e → e.cause ≠ .nestingTooDeep →
    ∃ k n, s.refusedAt lines = some (k, s.failure e.trace e.cause) ∧
      Refusal (lines.drop k) e.cause n ∧ r.passed = k + n

theorem locates_ok (a : α) (n : Nat) : s.Locates lines (⟨.ok a, n⟩ : Reading α) := nofun

theorem Locates.map (f : α → β) (h : s.Locates lines r) : s.Locates lines (r.map f) :=
  fun e he => h e (map_eq_error_iff.1 he)

/-- A mistake that is reported under the first line. -/
theorem locates_fail {cause : Cause} {n : Nat}
    (hstep : s.step line = .error (s.failure [line.number] cause))
    (hr : cause ≠ .nestingTooDeep → Refusal (line :: lines) cause n) :
    s.Locates (line :: lines) ((Reading.fail cause n : Reading α).within line.number) := by
  intro e he hdeep
  obtain rfl : (⟨[], cause⟩ : ParseError).within line.number = e := Except.error.inj he
  rw [ParseError.cause_within] at hdeep
  have hw : (⟨[], cause⟩ : ParseError).within line.number = ⟨[line.number], cause⟩ := if_neg hdeep
  rw [hw]
  exact ⟨0, n, refusedAt_of_step_eq_error hstep, hr hdeep, (Nat.zero_add n).symm⟩

/-- A mistake behind lines that are blocks. -/
theorem Locates.behind {inBody : Bool} {front : List Line} {bs : List Block}
    (hw : Block.WrittenOn inBody front bs) (hs : inBody = false → s.loops = [])
    (h : (s.add bs).Locates lines r) : s.Locates (front ++ lines) (r.after front.length) := by
  intro e he hdeep
  obtain ⟨k, n, hat, hr, hp⟩ := h e he hdeep
  refine ⟨k + front.length, n, ?_, ?_, ?_⟩
  · rw [refusedAt_append_of_writtenOn hw s lines hs, hat, failure_add]
    rfl
  · rw [Nat.add_comm, List.drop_length_add_append]
    exact hr
  · rw [Reading.passed_after, hp]
    omega

/-- A mistake behind the line that opens a loop. -/
theorem Locates.within {header : LoopHeader} (hstep : s.step line = .ok (s.push line.number header))
    (h : (s.push line.number header).Locates lines r) :
    s.Locates (line :: lines) ((r.within line.number).after 1) := by
  obtain ⟨result, passed⟩ := r
  cases result with
  | ok a => exact locates_ok a _
  | error d =>
    intro e he hdeep
    obtain rfl : d.within line.number = e := Except.error.inj he
    rw [ParseError.cause_within] at hdeep
    have hw : d.within line.number = ⟨line.number :: d.trace, d.cause⟩ := if_neg hdeep
    obtain ⟨k, n, hat, hr, hp⟩ := h d rfl hdeep
    rw [hw]
    refine ⟨k + 1, n, ?_, hr, ?_⟩
    · rw [refusedAt_of_step_eq_ok hstep, hat, failure_push]
      rfl
    · show 1 + passed = k + 1 + n
      rw [show passed = k + n from hp]
      omega

/-- The machine locates the mistakes of a reader of bodies. -/
def LocatesBody (body : List Line → Reading (List Block)) : Prop :=
  ∀ (s : LoopStack) (lines : List Line), s.loops ≠ [] → s.Locates lines (body lines)

/-- The machine locates the mistakes of the reader of the block that begins at a line, unless the
line closes the body that is open. -/
theorem locates_readWith (hbody : LocatesBody body)
    (hs : s.loops = [] ∨ Block.closing? line = none) :
    s.Locates (line :: lines) (Block.readWith depth body (line :: lines)) := by
  cases ht : tokenize line.text with
  | error cause =>
    rw [Block.readWith_of_error ht]
    exact locates_fail (s.step_of_error ht).1 fun _ => .tokens ht
  | ok tokens =>
    cases tokens with
    | nil =>
      rw [Block.readWith_of_nil ht]
      exact locates_ok none 1
    | cons first rest =>
      have hstep := (step_of_cons hs ht).1
      rw [Block.readWith_of_cons ht, Block.readStatement_eq]
      rcases Statement.ofTokensWith_approximates (Argument.ofToken_approximates depth)
        (first :: rest) with hdeep | heq
      · rw [hdeep]
        intro e he hne
        cases he
        exact absurd rfl hne
      · rw [heq]
        cases hst : Statement.ofTokensWith Token.argument (first :: rest) with
        | error cause =>
          rw [hst] at hstep heq
          exact locates_fail hstep fun hdeep =>
            .statement ht hst (Statement.ofStatement_of_tokenize ht heq hdeep)
        | ok statement =>
          rw [hst] at hstep
          rw [Reading.ofExcept_ok_andThen]
          cases statement with
          | command c => exact locates_ok _ _
          | opening header =>
            have hpush : (s.push line.number header).loops ≠ [] := List.cons_ne_nil _ _
            have hb := hbody (s.push line.number header) lines hpush
            exact Locates.map some (Locates.within hstep (hb.map header.block))

/-- The machine locates the mistakes of the reader of a body if it does in the bodies inside. -/
theorem locates_readBodyWith (hbody : LocatesBody body) (hgrammar : Block.KeepsGrammar depth body)
    (s : LoopStack) (lines : List Line) (hs : s.loops ≠ []) :
    s.Locates lines (Block.readBodyWith (Block.readWith depth body) false lines) := by
  cases lines with
  | nil =>
    rw [Block.readBodyWith_nil]
    intro e he _
    cases he
    exact ⟨0, 0, if_neg hs, .ends, rfl⟩
  | cons line lines =>
    cases hc : Block.closing? line with
    | some extra =>
      have hstep := (step_of_closing hs hc).1
      rw [Block.readBodyWith_of_closing hc]
      split
      · next h =>
        rw [if_neg h.1] at hstep
        intro e he _
        cases he
        exact ⟨0, 0, refusedAt_of_step_eq_error hstep, .close hc h.1, rfl⟩
      · exact locates_ok [] 1
    | none =>
      have hfirst : s.Locates (line :: lines) (Block.readWith depth body (line :: lines)) :=
        locates_readWith hbody (.inr hc)
      cases hr : (Block.readWith depth body (line :: lines)).result with
      | error e =>
        rw [Block.readBodyWith_of_error hc hr]
        intro d hd
        cases hd
        exact hfirst e hr
      | ok block =>
        obtain ⟨n, hn⟩ := Block.exists_passed_of_readWith hr
        have hopen : true = true → Block.closing? line = none := fun _ => hc
        obtain ⟨hle, hw, -⟩ := Block.writtenOn_of_readWith hgrammar hopen hn
        have hs' : (s.add block.toList).loops ≠ [] := fun h => hs (loops_add_eq_nil_iff.1 h)
        have hrest := locates_readBodyWith hbody hgrammar (s.add block.toList) (lines.drop n) hs'
        have hall := Locates.behind hw nofun (hrest.map (block.toList ++ ·))
        rw [List.cons_append, List.take_append_drop, List.length_cons, List.length_take,
          Nat.min_eq_left hle] at hall
        rw [Block.readBodyWith_of_ok hc hn]
        exact hall
termination_by lines.length
decreasing_by simp only [List.length_drop, List.length_cons]; omega

theorem locates_readBody (depth : Nat) : LocatesBody (Block.readBody depth) := by
  induction depth with
  | zero =>
    intro s lines _ e he hdeep
    cases he
    exact absurd rfl hdeep
  | succ depth ih =>
    intro s lines hs
    rw [Block.readBody_succ]
    exact locates_readBodyWith ih (Block.keepsGrammar_readBody depth) s lines hs

/-- The machine stops at the mistake that a block at top level is refused for. -/
theorem exists_refusedAt_of_read {e : ParseError} (h : (Block.read lines).result = .error e)
    (hdeep : e.cause ≠ .nestingTooDeep) :
    ∃ k n, empty.refusedAt lines = some (k, e) ∧ Refusal (lines.drop k) e.cause n ∧
      (Block.read lines).passed = k + n := by
  cases lines with
  | nil =>
    rw [Block.read, Block.readWith] at h
    cases h
  | cons line lines => exact locates_readWith (locates_readBody maxNesting) (.inl rfl) e h hdeep

end LoopStack

end BlockScript
