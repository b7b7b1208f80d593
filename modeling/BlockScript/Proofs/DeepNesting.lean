import Mathlib
import BlockScript.Proofs.Grammar
import BlockScript.Proofs.Locality
import BlockScript.Proofs.StackRefinement
import BlockScript.Proofs.Wording

/-!
# Too deep a nesting

While every other mistake is reported under the lines of all loops around it, too deep a nesting
passes the readers of loops without a trace (`Block.untraced_readBody`), and the reader of all
blocks puts it down to the line of the block at top level (`Block.exists_block_of_nestingTooDeep`).
Whether it occurs depends on how many levels are entered before any other mistake, and these are
the levels of the blocks if there is no other (`Script.levels_of_writtenOn`); lines that follow
make no difference any more (`nestingTooDeep_reported_once`).
-/

namespace BlockScript

/-! ## No trace -/

namespace Reading

variable {α β : Type} {r : Reading α}

/-- If the reading has failed for its nesting, it has failed under no line. -/
def Untraced (r : Reading α) : Prop :=
  ∀ e, r.result = .error e → e.cause = .nestingTooDeep → e.trace = []

theorem untraced_ok (a : α) (n : Nat) : (⟨.ok a, n⟩ : Reading α).Untraced := nofun

theorem untraced_fail (cause : Cause) (n : Nat) : (fail cause n : Reading α).Untraced := by
  intro e he _
  cases he
  rfl

theorem Untraced.map (f : α → β) (h : r.Untraced) : (r.map f).Untraced :=
  fun e he hc => h e (map_eq_error_iff.1 he) hc

theorem Untraced.after (n : Nat) (h : r.Untraced) : (r.after n).Untraced := h

theorem Untraced.within (line : Int) (h : r.Untraced) : (r.within line).Untraced := by
  obtain ⟨result, n⟩ := r
  cases result with
  | ok a => exact untraced_ok a n
  | error d =>
    intro e he hc
    obtain rfl : d.within line = e := Except.error.inj he
    rw [ParseError.cause_within] at hc
    have hd : d.within line = d := if_pos hc
    rw [hd]
    exact h d rfl hc

end Reading

namespace Block

open Reading

variable {depth : Nat} {body : List Line → Reading (List Block)}

theorem untraced_readStatement (hbody : ∀ lines, (body lines).Untraced) (tokens : List Token)
    (lines : List Line) : (readStatement depth body tokens lines).Untraced := by
  rw [readStatement_eq]
  cases Statement.ofTokensWith (Argument.ofToken depth) tokens with
  | error cause => exact untraced_fail cause 0
  | ok statement =>
    rw [ofExcept_ok_andThen]
    cases statement with
    | opening header => exact (hbody lines).map header.block
    | command c => exact untraced_ok _ 0

theorem untraced_readWith (hbody : ∀ lines, (body lines).Untraced) (lines : List Line) :
    (readWith depth body lines).Untraced := by
  cases lines with
  | nil => exact untraced_ok none 0
  | cons line lines =>
    cases ht : tokenize line.text with
    | error cause =>
      rw [readWith_of_error ht]
      exact (untraced_fail cause 0).within line.number
    | ok tokens =>
      cases tokens with
      | nil =>
        rw [readWith_of_nil ht]
        exact untraced_ok none 1
      | cons first rest =>
        have hs : (readStatement depth body (first :: rest) lines).Untraced :=
          untraced_readStatement hbody (first :: rest) lines
        rw [readWith_of_cons ht]
        exact ((hs.within line.number).map some).after 1

theorem untraced_readBodyWith (hbody : ∀ lines, (body lines).Untraced) (allowExtra : Bool)
    (lines : List Line) : (readBodyWith (readWith depth body) allowExtra lines).Untraced := by
  cases lines with
  | nil =>
    rw [readBodyWith_nil]
    exact untraced_fail _ 0
  | cons line lines =>
    cases hc : closing? line with
    | some extra =>
      rw [readBodyWith_of_closing hc]
      split
      · exact untraced_fail _ 0
      · exact untraced_ok [] 1
    | none =>
      have hfirst : (readWith depth body (line :: lines)).Untraced :=
        untraced_readWith hbody (line :: lines)
      cases hr : (readWith depth body (line :: lines)).result with
      | error e =>
        rw [readBodyWith_of_error hc hr]
        intro d hd
        cases hd
        exact hfirst e hr
      | ok block =>
        obtain ⟨n, hn⟩ := exists_passed_of_readWith hr
        have hrest := untraced_readBodyWith hbody allowExtra (lines.drop n)
        rw [readBodyWith_of_ok hc hn]
        exact (hrest.map (block.toList ++ ·)).after (n + 1)
termination_by lines.length
decreasing_by simp only [List.length_drop, List.length_cons]; omega

theorem untraced_readBody (depth : Nat) (lines : List Line) : (readBody depth lines).Untraced := by
  induction depth generalizing lines with
  | zero => exact untraced_fail _ 0
  | succ depth ih =>
    rw [readBody_succ]
    exact untraced_readBodyWith ih false lines

/-- Too deep a nesting is reported under the line of the block at top level that was being read,
behind lines that are whole blocks. -/
theorem exists_block_of_nestingTooDeep : ∀ {lines : List Line} {e : ParseError},
    (readAll lines).result = .error e → e.cause = .nestingTooDeep →
      ∃ done line rest bs, lines = done ++ line :: rest ∧ (readAll done).result = .ok bs ∧
        (read (line :: rest)).result = .error ⟨[], .nestingTooDeep⟩ ∧
        e = ⟨[line.number], .nestingTooDeep⟩
  | [], e, h, _ => by
    rw [readAll_nil] at h
    cases h
  | line :: lines, e, h, hc => by
    cases hr : (read (line :: lines)).result with
    | error d =>
      rw [readAll_of_error hr] at h
      obtain rfl : d.atTopLevel line.number = e := Except.error.inj h
      rw [ParseError.cause_atTopLevel] at hc
      have htrace : d.trace = [] :=
        untraced_readWith (untraced_readBody maxNesting) (line :: lines) d hr hc
      obtain ⟨trace, cause⟩ := d
      obtain rfl : trace = [] := htrace
      obtain rfl : cause = .nestingTooDeep := hc
      exact ⟨[], line, lines, [], rfl, by rw [readAll_nil], hr, rfl⟩
    | ok block =>
      obtain ⟨n, hn⟩ : ∃ n, read (line :: lines) = ⟨.ok block, n + 1⟩ :=
        exists_passed_of_readWith hr
      have hopen : false = true → closing? line = none := nofun
      obtain ⟨-, hw, hd⟩ := writtenOn_of_readWith (keepsGrammar_readBody maxNesting) hopen hn
      rw [readAll_of_ok hn] at h
      obtain ⟨done, top, rest, bs, hlines, hdone, hread, he⟩ :=
        exists_block_of_nestingTooDeep (map_eq_error_iff.1 h) hc
      have hfront : (readAll (line :: lines.take n)).result = .ok block.toList := by
        rw [readAll_of_writtenOn hw hd]
      refine ⟨line :: lines.take n ++ done, top, rest, block.toList ++ bs, ?_, ?_, hread, he⟩
      · rw [List.append_assoc, ← hlines, List.cons_append, List.take_append_drop]
      · rw [readAll_append_of_ok done _ hfront, Reading.result_after, Reading.map, hdone]
        rfl
termination_by lines => lines.length
decreasing_by simp only [List.length_drop, List.length_cons]; omega

end Block

/-! ## Levels -/

/-- A line that says something has tokens, and they enter the levels of its arguments. -/
theorem Line.Means.exists_tokens {line : Line} {statement : Statement}
    (h : line.Means statement) :
    ∃ first rest, tokenize line.text = .ok (first :: rest) ∧
      Statement.ofTokensWith Token.argument (first :: rest) = .ok statement ∧
      Statement.levels (first :: rest) = Argument.levelsAll statement.arguments := by
  obtain ⟨tokens, ht, hs⟩ := h
  cases tokens with
  | nil => cases hs
  | cons first rest => exact ⟨first, rest, ht, hs, Statement.levels_of_ofTokensWith hs⟩

namespace LoopStack

variable {s : LoopStack} {line : Line} {lines : List Line}

theorem step_of_means {statement : Statement} (hs : s.loops = [] ∨ Block.closing? line = none)
    (h : line.Means statement) :
    s.step line = .ok (s.perform line.number statement) ∧
      s.lineLevels line = s.loops.length + Argument.levelsAll statement.arguments := by
  obtain ⟨first, rest, ht, hst, hlevels⟩ := h.exists_tokens
  obtain ⟨hstep, hl⟩ := step_of_cons hs ht
  rw [hst] at hstep
  rw [hlevels] at hl
  exact ⟨hstep, hl⟩

/-- Lines that are blocks enter the levels of these, inside the loops that are open, and what
follows goes on with the blocks added. -/
theorem levels_append_of_writtenOn {inBody : Bool} {front : List Line} {bs : List Block}
    (h : Block.WrittenOn inBody front bs) :
    ∀ (s : LoopStack) (rest : List Line), (inBody = false → s.loops = []) →
      s.levels (front ++ rest) =
        max (s.loops.length + Block.levelsAll bs) ((s.add bs).levels rest) := by
  induction h with
  | nil =>
    intro s rest _
    have hle : s.loops.length ≤ s.levels rest := length_loops_le_levels
    rw [List.nil_append, add_nil, Block.levelsAll]
    omega
  | @blank inBody line lines bs ht _ ih =>
    intro s rest hs
    obtain ⟨hstep, hl⟩ := s.step_of_nil ht
    rw [List.cons_append, levels_of_step_eq_ok hstep, hl, ih s rest hs]
    omega
  | @command inBody line lines c bs hline hopen _ ih =>
    intro s rest hs
    have hc : s.loops = [] ∨ Block.closing? line = none := by
      cases inBody with
      | false => exact .inl (hs rfl)
      | true => exact .inr (hopen rfl)
    obtain ⟨hstep, hl⟩ := step_of_means hc hline
    have ih := ih (s.add [.command c]) rest fun h => loops_add_eq_nil_iff.2 (hs h)
    rw [add_add, length_loops_add] at ih
    have hadd : s.perform line.number (.command c) = s.add [.command c] := rfl
    have hargs : Argument.levelsAll (Statement.command c).arguments = c.levels := rfl
    rw [List.cons_append, levels_of_step_eq_ok hstep, hl, hadd, ih, hargs, Block.levelsAll,
      Block.levels]
    simp only [List.singleton_append]
    omega
  | @loop inBody line close inner lines header body bs hline _ hclose _ ihbody ih =>
    intro s rest hs
    have hopen : s.loops = [] ∨ Block.closing? line = none :=
      .inr (Block.closing?_of_means_opening hline)
    obtain ⟨hstep, hl⟩ := step_of_means hopen hline
    have hpush : s.perform line.number (.opening header) = s.push line.number header := rfl
    have hlen : (s.push line.number header).loops.length = s.loops.length + 1 := rfl
    have ihbody := ihbody (s.push line.number header) (close :: (lines ++ rest)) (by simp)
    -- the line that closes the loop adds it to the blocks around
    have hne : ((s.push line.number header).add body).loops ≠ [] := fun h =>
      List.cons_ne_nil _ _ (loops_add_eq_nil_iff.1 h)
    obtain ⟨hclosed, hlclose⟩ := step_of_closing hne hclose
    rw [if_pos rfl, close_add_push] at hclosed
    rw [length_loops_add, hlen] at hlclose
    have ih := ih (s.add [header.block body]) rest fun h => loops_add_eq_nil_iff.2 (hs h)
    rw [add_add, length_loops_add, List.singleton_append] at ih
    have hargs : (Statement.opening header).arguments = header.arguments := rfl
    rw [List.cons_append, List.append_assoc, List.cons_append, levels_of_step_eq_ok hstep, hl,
      hpush, ihbody, levels_of_step_eq_ok hclosed, hlclose, ih, hlen, hargs, Block.levelsAll,
      header.levels_block]
    omega

/-- Each line that opens a loop is a level. -/
theorem length_le_levels_of_opening (h : ∀ line ∈ lines, ∃ header, line.Means (.opening header)) :
    s.loops.length + lines.length ≤ s.levels lines := by
  induction lines generalizing s with
  | nil => exact Nat.le_refl _
  | cons line lines ih =>
    obtain ⟨header, hline⟩ := h line (by simp)
    have hopen : s.loops = [] ∨ Block.closing? line = none :=
      .inr (Block.closing?_of_means_opening hline)
    have hstep := (step_of_means hopen hline).1
    have ih : (s.push line.number header).loops.length + lines.length ≤
        (s.push line.number header).levels lines := ih fun l hl => h l (by simp [hl])
    have hlen : (s.push line.number header).loops.length = s.loops.length + 1 := rfl
    have hpush : s.perform line.number (.opening header) = s.push line.number header := rfl
    rw [levels_of_step_eq_ok hstep, hpush, List.length_cons]
    omega

end LoopStack

namespace Script

/-- The levels that are entered in reading a script without a mistake are those of its blocks. -/
theorem levels_of_writtenOn {script : Script} {bs : List Block}
    (h : Block.WrittenOn false script.lines bs) : script.levels = Block.levelsAll bs := by
  have hlevels := LoopStack.levels_append_of_writtenOn h LoopStack.empty [] fun _ => rfl
  have hloops : LoopStack.empty.loops.length = 0 := rfl
  rw [List.append_nil, LoopStack.levels.eq_1, LoopStack.length_loops_add, hloops] at hlevels
  rw [levels, hlevels]
  omega

end Script

/-! ## One report -/

/-- Too deep a nesting is reported under one line, that of the block at top level that was being
read, whatever was open.  It is not reported if no more than 60 levels are entered; it always is if
450 are entered before any other mistake, and lines that follow make no difference. -/
theorem nestingTooDeep_reported_once (script : Script) :
    (∀ e, script.blocks = .error e → "Nesting too deep.".toList <:+ e.message →
      ∃ done line rest bs, script.lines = done ++ line :: rest ∧
        Script.blocks ⟨done⟩ = .ok bs ∧
        (Block.read (line :: rest)).result = .error ⟨[], .nestingTooDeep⟩ ∧
        e.message =
          "Error at line ".toList ++ Text.decimal line.number ++ ": Nesting too deep.".toList) ∧
    (script.levels ≤ 60 →
      ∀ e, script.blocks = .error e → ¬ "Nesting too deep.".toList <:+ e.message) ∧
    (450 ≤ script.levels → ∃ line ∈ script.lines, ∀ rest, ∃ e,
      Script.blocks ⟨script.lines ++ rest⟩ = .error e ∧
        e.message =
          "Error at line ".toList ++ Text.decimal line.number ++ ": Nesting too deep.".toList) := by
  have hmax : maxNesting = 256 := rfl
  have hdeep : ∀ e, script.blocks = .error e → e.cause = .nestingTooDeep →
      maxNesting < script.levels := by
    rintro ⟨trace, cause⟩ he rfl
    exact Script.exists_nestingTooDeep_iff.1 ⟨trace, he⟩
  refine ⟨fun e he hm => ?_, fun hl e he hm => ?_, fun hl => ?_⟩
  · obtain ⟨done, line, rest, bs, hlines, hdone, hread, rfl⟩ :=
      Block.exists_block_of_nestingTooDeep he (ParseError.isSuffix_message_nestingTooDeep_iff.1 hm)
    have hmessage := ParseError.message_nestingTooDeep line.number
    exact ⟨done, line, rest, bs, hlines, hdone, hread, hmessage⟩
  · have hlt := hdeep e he (ParseError.isSuffix_message_nestingTooDeep_iff.1 hm)
    omega
  · obtain ⟨trace, he⟩ : ∃ trace, script.blocks = .error ⟨trace, .nestingTooDeep⟩ :=
      Script.exists_nestingTooDeep_iff.2 (by omega)
    obtain ⟨done, line, behind, bs, hlines, -, -, he'⟩ :=
      Block.exists_block_of_nestingTooDeep he rfl
    rw [he'] at he
    have hmessage := ParseError.message_nestingTooDeep line.number
    refine ⟨line, by simp [hlines], fun rest => ⟨_, ?_, hmessage⟩⟩
    exact Block.readAll_append_of_error rest script.lines he nofun

/-- A line that opens a loop, 450 times, and a mistake in a loop that is not about its nesting. -/
theorem nestingTooDeep_reported_once_openLoops :
    450 ≤ Script.levels ⟨List.replicate 450 ⟨"for x \x7d".toList, 7⟩⟩ ∧
      (∃ e, Script.blocks ⟨List.replicate 450 ⟨"for x \x7d".toList, 7⟩⟩ = .error e ∧
        "Nesting too deep.".toList <:+ e.message ∧
        e.message =
          "Error at line ".toList ++ Text.decimal 7 ++ ": Nesting too deep.".toList) ∧
      Script.levels ⟨[⟨"for (a) \x7d".toList, 3⟩, ⟨"b )".toList, 4⟩]⟩ ≤ 60 ∧
      Script.blocks ⟨[⟨"for (a) \x7d".toList, 3⟩, ⟨"b )".toList, 4⟩]⟩ =
        .error ⟨[3, 4], .strayParenthesis⟩ ∧
      ¬ "Nesting too deep.".toList <:+ ParseError.message ⟨[3, 4], .strayParenthesis⟩ := by
  have hline : Line.Means ⟨"for x \x7d".toList, 7⟩ (.opening (.forEach none (.literal ['x']))) :=
    ⟨[.forWord, .literal ['x'], .bodyMark], by cbv, by cbv⟩
  have hlevels : LoopStack.empty.loops.length +
      (List.replicate 450 (⟨"for x \x7d".toList, 7⟩ : Line)).length ≤
        Script.levels ⟨List.replicate 450 ⟨"for x \x7d".toList, 7⟩⟩ :=
    LoopStack.length_le_levels_of_opening fun line hl =>
      ⟨_, List.eq_of_mem_replicate hl ▸ hline⟩
  have hopen : 450 ≤ Script.levels ⟨List.replicate 450 ⟨"for x \x7d".toList, 7⟩⟩ := by
    rw [List.length_replicate] at hlevels
    exact hlevels
  have hshort : Script.levels ⟨[⟨"for (a) \x7d".toList, 3⟩, ⟨"b )".toList, 4⟩]⟩ = 1 := by cbv
  have hstray : Script.blocks ⟨[⟨"for (a) \x7d".toList, 3⟩, ⟨"b )".toList, 4⟩]⟩ =
      .error ⟨[3, 4], .strayParenthesis⟩ := by cbv
  obtain ⟨honce, -, hdeep⟩ :=
    nestingTooDeep_reported_once ⟨List.replicate 450 ⟨"for x \x7d".toList, 7⟩⟩
  obtain ⟨line, hl, hall⟩ := hdeep hopen
  obtain ⟨e, he, hm⟩ := hall []
  rw [List.append_nil] at he
  have hends : "Nesting too deep.".toList <:+ e.message := by
    rw [hm]
    exact List.suffix_append_of_suffix ⟨": ".toList, String.toList_append.symm⟩
  obtain ⟨done, top, rest, bs, hlines, -, -, hm'⟩ := honce e he hends
  have hmem : top ∈ done ++ top :: rest := by simp
  rw [← hlines] at hmem
  rw [List.eq_of_mem_replicate hmem] at hm'
  refine ⟨hopen, ⟨e, he, hends, hm'⟩, hshort ▸ by decide, hstray, ?_⟩
  exact (nestingTooDeep_reported_once _).2.1 (hshort ▸ by decide) _ hstray

end BlockScript
