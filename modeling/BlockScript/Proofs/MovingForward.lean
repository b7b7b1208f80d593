import BlockScript.Proofs.LoopBody
import BlockScript.Proofs.RefusedLine

/-!
# Where readings leave a cursor

A reading leaves the cursor where it has come to, even if it fails: not in front of where it was and
not behind the end (`Cursor.leadsTo_run`).  A block that is not read leaves it at the line that
is refused, or behind that line if the line is refused for what it says, or at the end if a body is
left open (`Cursor.exists_refusedAt_of_readBlock`).  Only a line that cannot be tokenized is not
passed, so reading block after block comes to the end (`Cursor.le_position_of_readBlocks`).
-/

namespace BlockScript

namespace Refusal

variable {lines : List Line} {cause : Cause} {n : Nat}

theorem eq_zero (h : Refusal lines cause n) (hc : cause.IsLexical ∨ cause = .textAfterClose) :
    n = 0 := by
  cases h with
  | statement _ _ hcause =>
    exfalso
    rcases hc with (rfl | rfl | rfl) | rfl <;> exact hcause
  | _ => rfl

theorem eq_one (h : Refusal lines cause n) (hc : cause.OfStatement) : n = 1 := by
  cases h with
  | tokens hline =>
    exfalso
    rcases isLexical_of_tokenize hline with rfl | rfl | rfl <;> exact hc
  | close => exact hc.elim
  | statement => rfl
  | ends => exact hc.elim

theorem eq_nil (h : Refusal lines .unclosedBody n) : lines = [] ∧ n = 0 := by
  cases h with
  | tokens hline => exact absurd (isLexical_of_tokenize hline) (by simp [Cause.IsLexical])
  | statement _ _ hcause => exact hcause.elim
  | ends => exact ⟨rfl, rfl⟩

end Refusal

namespace Block

theorem passed_readAll_le : ∀ lines : List Line, (readAll lines).passed ≤ lines.length
  | [] => by
    rw [readAll_nil]
    exact Nat.le_refl 0
  | line :: lines => by
    have hfirst : (read (line :: lines)).passed ≤ (line :: lines).length :=
      passed_readWith_le (local_readBody maxNesting) (line :: lines)
    cases hr : (read (line :: lines)).result with
    | error e =>
      rw [readAll_of_error hr]
      exact hfirst
    | ok block =>
      obtain ⟨n, hn, hread, -⟩ := exists_read_append hr
      have ih := passed_readAll_le (lines.drop n)
      rw [List.length_drop] at ih
      rw [readAll_of_ok hread, Reading.passed_after, Reading.passed_map, List.length_cons]
      omega
termination_by lines => lines.length
decreasing_by simp only [List.length_drop, List.length_cons]; omega

/-- A line is passed unless it cannot be tokenized. -/
theorem passed_read_eq_zero_iff (line : Line) (lines : List Line) :
    (read (line :: lines)).passed = 0 ↔ ∃ cause, tokenize line.text = .error cause := by
  cases ht : tokenize line.text with
  | error cause =>
    rw [read, readWith_of_error ht]
    exact iff_of_true rfl ⟨cause, rfl⟩
  | ok tokens =>
    refine iff_of_false ?_ (by simp)
    cases tokens with
    | nil =>
      rw [read, readWith_of_nil ht]
      exact Nat.one_ne_zero
    | cons first rest =>
      rw [read, readWith_of_cons ht, Reading.passed_after]
      omega

end Block

namespace Cursor

variable {α : Type} {c d : Cursor}

/-- Standing at a line, counted from the front, or at the end. -/
def Inside (c : Cursor) : Prop := 0 ≤ c.position ∧ c.position ≤ c.script.lines.length

/-- Standing in the same script, not in front of where `c` stands and not behind the end. -/
structure LeadsTo (c d : Cursor) : Prop where
  script_eq : d.script = c.script
  le_position : c.position ≤ d.position
  position_le : d.position ≤ c.script.lines.length

theorem length_rest (hc : c.Inside) : c.position + c.rest.length = c.script.lines.length := by
  obtain ⟨h0, hn⟩ := hc
  rw [rest, List.length_drop]
  omega

theorem LeadsTo.inside (h : c.LeadsTo d) (hc : c.Inside) : d.Inside := by
  refine ⟨Int.le_trans hc.1 h.le_position, ?_⟩
  rw [h.script_eq]
  exact h.position_le

theorem LeadsTo.trans {b : Cursor} (h : c.LeadsTo b) (h' : b.LeadsTo d) : c.LeadsTo d := by
  refine ⟨h'.script_eq.trans h.script_eq, Int.le_trans h.le_position h'.le_position, ?_⟩
  rw [← h.script_eq]
  exact h'.position_le

/-- A reader that passes no more lines than there are leads the cursor on. -/
theorem leadsTo_run (hc : c.Inside) {reader : List Line → Reading α}
    (h : ∀ lines, (reader lines).passed ≤ lines.length) : c.LeadsTo (c.run reader).2 := by
  have hpassed := h c.rest
  have hlen := length_rest hc
  rw [run_of_nonneg hc.1]
  refine ⟨rfl, ?_, ?_⟩
  · show c.position ≤ c.position + (reader c.rest).passed
    omega
  · show c.position + (reader c.rest).passed ≤ c.script.lines.length
    omega

theorem leadsTo_readBlock (hc : c.Inside) : c.LeadsTo c.readBlock.2 :=
  leadsTo_run hc (Block.passed_readWith_le (Block.local_readBody maxNesting))

theorem leadsTo_readBody (hc : c.Inside) (allowExtra : Bool) :
    c.LeadsTo (c.readBody allowExtra).2 :=
  leadsTo_run hc (Block.passed_readBodyWith_le (Block.local_readBody maxNesting) allowExtra)

theorem leadsTo_readAll (hc : c.Inside) : c.LeadsTo c.readAll.2 :=
  leadsTo_run hc Block.passed_readAll_le

/-- What a reader has read comes of the lines from the position on. -/
theorem of_run_eq_ok {reader : List Line → Reading α} {a : α} (hc : c.Inside)
    (h : c.run reader = (.ok a, d)) :
    (reader c.rest).result = .ok a ∧ d.position = c.position + (reader c.rest).passed := by
  rw [run_of_nonneg hc.1] at h
  obtain ⟨hresult, rfl⟩ := Prod.mk.inj h
  refine ⟨?_, rfl⟩
  cases hr : (reader c.rest).result with
  | error e => rw [hr] at hresult; cases hresult
  | ok b => rw [hr] at hresult; cases hresult; rfl

theorem of_run_eq_error {reader : List Line → Reading α} {e : ParseError} (hc : c.Inside)
    (h : c.run reader = (.error (.parse e), d)) :
    (reader c.rest).result = .error e ∧ d.position = c.position + (reader c.rest).passed := by
  rw [run_of_nonneg hc.1] at h
  obtain ⟨hresult, rfl⟩ := Prod.mk.inj h
  refine ⟨?_, rfl⟩
  cases hr : (reader c.rest).result with
  | error d => rw [hr] at hresult; cases hresult; rfl
  | ok b => rw [hr] at hresult; cases hresult

/-! ## One block -/

/-- A cursor that is not at the end stands at the first of the lines from its position on. -/
theorem exists_rest_eq_cons (hc : c.Inside) (hp : c.position < c.script.lines.length) :
    ∃ line lines, c.line? = some line ∧ c.rest = line :: lines := by
  obtain ⟨script, position⟩ := c
  obtain ⟨p, rfl⟩ := Int.eq_ofNat_of_zero_le hc.1
  have hp : p < script.lines.length := Int.ofNat_lt.1 hp
  refine ⟨script.lines[p], script.lines.drop (p + 1), ?_, List.drop_eq_getElem_cons hp⟩
  show (signedIndex? script.lines.length p).bind (script.lines[·]?) = _
  rw [signedIndex?_natCast hp, Option.bind_some, List.getElem?_eq_getElem hp]

/-- A reading of a block passes the first line unless that line cannot be tokenized. -/
theorem position_readBlock_eq_iff {line : Line} {lines : List Line} (hc : c.Inside)
    (h : c.rest = line :: lines) :
    c.readBlock.2.position = c.position ↔ ∃ cause, tokenize line.text = .error cause := by
  rw [readBlock, run_of_nonneg hc.1, h, ← Block.passed_read_eq_zero_iff line lines]
  show c.position + ((Block.read (line :: lines)).passed : Int) = c.position ↔ _
  omega

/-- A block that is not read leaves the cursor by the first line that is refused, or at the end. -/
theorem exists_refusedAt_of_readBlock {e : ParseError} (hc : c.Inside)
    (h : c.readBlock = (.error (.parse e), d)) (hdeep : e.cause ≠ .nestingTooDeep) :
    ∃ k n, LoopStack.empty.refusedAt c.rest = some (k, e) ∧
      Refusal (c.rest.drop k) e.cause n ∧ d.position = c.position + k + n := by
  obtain ⟨hread, hd⟩ := of_run_eq_error hc h
  obtain ⟨k, n, hat, hr, hp⟩ := LoopStack.exists_refusedAt_of_read hread hdeep
  exact ⟨k, n, hat, hr, by omega⟩

/-- A reading of all blocks that succeeds leaves the cursor at the end. -/
theorem position_of_readAll {bs : List Block} (hc : c.Inside) (h : c.readAll = (.ok bs, d)) :
    d.position = c.script.lines.length := by
  obtain ⟨hread, hd⟩ := of_run_eq_ok hc h
  obtain ⟨hw, hdeep⟩ := Block.writtenOn_of_readAll hread
  rw [hd, Block.readAll_of_writtenOn hw hdeep]
  exact length_rest hc

/-! ## Block after block -/

/-- The cursor behind `m` readings of a block, one after the other, none of which may fail. -/
def readBlocks : Nat → Cursor → Except CursorError Cursor
  | 0, c => .ok c
  | m + 1, c =>
    match c.readBlock with
    | (.ok _, d) => d.readBlocks m
    | (.error e, _) => .error e

/-- A block that is read leaves the cursor further on, unless it has been at the end. -/
theorem lt_position_of_readBlock {block : Option Block} (hc : c.Inside)
    (h : c.readBlock = (.ok block, d)) :
    min (c.position + 1) c.script.lines.length ≤ d.position := by
  have hlen := length_rest hc
  obtain ⟨hread, hd⟩ := of_run_eq_ok hc h
  rw [hd]
  cases hl : c.rest with
  | nil =>
    rw [hl, List.length_nil] at hlen
    omega
  | cons line lines =>
    rw [hl] at hread
    have hne : (Block.read (line :: lines)).passed ≠ 0 := by
      rw [Ne, Block.passed_read_eq_zero_iff]
      rintro ⟨cause, ht⟩
      rw [Block.read, Block.readWith_of_error ht] at hread
      cases hread
    omega

/-- Each reading of a block that does not fail comes a line further, up to the end. -/
theorem le_position_of_readBlocks {m : Nat} (hc : c.Inside) (h : c.readBlocks m = .ok d) :
    c.LeadsTo d ∧ min (c.position + m) c.script.lines.length ≤ d.position := by
  induction m generalizing c with
  | zero =>
    cases h
    refine ⟨⟨rfl, Int.le_refl _, hc.2⟩, ?_⟩
    omega
  | succ m ih =>
    rw [readBlocks] at h
    cases hr : c.readBlock with
    | mk result b =>
      rw [hr] at h
      cases result with
      | error e => cases h
      | ok block =>
        have hlead : c.LeadsTo b := by
          have := leadsTo_readBlock hc
          rwa [hr] at this
        have hstep := lt_position_of_readBlock hc hr
        obtain ⟨hrest, hle⟩ := ih (hlead.inside hc) h
        rw [hlead.script_eq] at hle
        exact ⟨hlead.trans hrest, by omega⟩

end Cursor

/-- A cursor that stands inside a script is never led back, nor behind the end, by a reading of a
block, of a body or of all blocks, whether it succeeds or fails.  A reading of a block does not move
it exactly if the line that it stands at cannot be tokenized.  A reading of a block that fails,
though not for its nesting, has the mistake that the machine with a stack ends with.  It leaves the
cursor at the line where the machine stops if that line is refused for its tokens or for what
follows a closing mark, one line further if it is refused for what it says, and at the end if a
body is left open.  A reading of all blocks that succeeds leaves it at the end, and so do as many
readings of a block as there are lines left, unless one of them fails. -/
theorem cursor_moves_forward (c : Cursor) (hc : c.Inside) :
    (c.LeadsTo c.readBlock.2 ∧ (∀ allowExtra, c.LeadsTo (c.readBody allowExtra).2) ∧
      c.LeadsTo c.readAll.2) ∧
    (c.position < c.script.lines.length → ∃ line, c.line? = some line ∧
      (c.readBlock.2.position = c.position ↔ ∃ cause, tokenize line.text = .error cause) ∧
      ((∃ tokens, tokenize line.text = .ok tokens) → c.position < c.readBlock.2.position)) ∧
    (∀ e d, c.readBlock = (.error (.parse e), d) → e.cause ≠ .nestingTooDeep →
      LoopStack.run c.rest = .error e ∧
      ∃ k n, LoopStack.empty.refusedAt c.rest = some (k, e) ∧
        Refusal (c.rest.drop k) e.cause n ∧ d.position = c.position + k + n ∧
        (e.cause.IsLexical ∨ e.cause.OfStatement →
          e.trace.getLast? = c.rest[k]?.map (·.number)) ∧
        (e.cause.IsLexical ∨ e.cause = .textAfterClose → n = 0) ∧
        (e.cause.OfStatement → n = 1) ∧
        (e.cause = .unclosedBody → d.position = c.script.lines.length)) ∧
    (∀ bs d, c.readAll = (.ok bs, d) → d.position = c.script.lines.length) ∧
    ∀ (m : Nat) d, c.script.lines.length ≤ c.position + m → c.readBlocks m = .ok d →
      d.position = c.script.lines.length := by
  have hlead := c.leadsTo_readBlock hc
  refine ⟨⟨hlead, c.leadsTo_readBody hc, c.leadsTo_readAll hc⟩, fun hp => ?_, ?_, ?_, ?_⟩
  · obtain ⟨line, lines, hline, hrest⟩ := Cursor.exists_rest_eq_cons hc hp
    have hstays := Cursor.position_readBlock_eq_iff hc hrest
    refine ⟨line, hline, hstays, ?_⟩
    rintro ⟨tokens, ht⟩
    refine lt_of_le_of_ne hlead.le_position fun h => ?_
    obtain ⟨cause, he⟩ := hstays.1 h.symm
    rw [ht] at he
    cases he
  · intro e d h hdeep
    obtain ⟨k, n, hat, hr, hp⟩ := Cursor.exists_refusedAt_of_readBlock hc h hdeep
    have hrun := (LoopStack.exists_refusedAt_iff .empty c.rest e).1 ⟨k, hat⟩
    refine ⟨hrun, k, n, hat, hr, hp, LoopStack.getLast?_trace_of_refusedAt hat, hr.eq_zero,
      hr.eq_one, fun hopen => ?_⟩
    rw [hopen] at hr
    have hlen := Cursor.length_rest hc
    have hk := List.drop_eq_nil_iff.1 hr.eq_nil.1
    have hle := hlead.position_le
    rw [h] at hle
    have hd : d.position ≤ c.script.lines.length := hle
    omega
  · exact fun bs d h => Cursor.position_of_readAll hc h
  · intro m d hm h
    obtain ⟨hrest, hle⟩ := Cursor.le_position_of_readBlocks hc h
    have hd := hrest.position_le
    omega

/-- A header without a value in the body of a loop, behind a line without tokens: a reading of the
loop leaves the cursor one line behind that header.  And a command, a line without tokens and a
loop of two lines: four readings come to the end. -/
theorem cursor_moves_forward_innerHeader :
    (∃ c : Cursor, c = ⟨⟨[⟨['a'], 10⟩, ⟨"while \x7d".toList, 20⟩, ⟨['#'], 30⟩,
        ⟨"for \x7d".toList, 40⟩, ⟨['\x7d'], 50⟩]⟩, 1⟩ ∧ c.Inside ∧
      c.readBlock.1 = .error (.parse ⟨[20, 40], .forArity⟩) ∧ c.readBlock.2.position = 4) ∧
    ∃ c d : Cursor, c = ⟨⟨[⟨['a'], 1⟩, ⟨[], 2⟩, ⟨"for x \x7d".toList, 3⟩, ⟨['\x7d'], 4⟩]⟩, 0⟩ ∧
      c.Inside ∧ c.readBlocks 4 = .ok d ∧ d.position = 4 := by
  constructor
  · have hresult : (⟨⟨[⟨['a'], 10⟩, ⟨"while \x7d".toList, 20⟩, ⟨['#'], 30⟩,
        ⟨"for \x7d".toList, 40⟩, ⟨['\x7d'], 50⟩]⟩, 1⟩ : Cursor).readBlock.1 =
          .error (.parse ⟨[20, 40], .forArity⟩) := by
      cbv
    have hat : LoopStack.empty.refusedAt [⟨"while \x7d".toList, 20⟩, ⟨['#'], 30⟩,
        ⟨"for \x7d".toList, 40⟩, ⟨['\x7d'], 50⟩] = some (2, ⟨[20, 40], .forArity⟩) := by
      cbv
    obtain ⟨-, k, n, hk, -, hp, -, -, hn, -⟩ :=
      (cursor_moves_forward _ ⟨by decide, by decide⟩).2.2.1 _ _ (Prod.ext hresult rfl)
        (by decide)
    obtain ⟨rfl, -⟩ := Prod.mk.inj (Option.some.inj (hk.symm.trans hat))
    obtain rfl := hn trivial
    exact ⟨_, rfl, ⟨by decide, by decide⟩, hresult, hp⟩
  · have hread : Cursor.readBlocks 4
        ⟨⟨[⟨['a'], 1⟩, ⟨[], 2⟩, ⟨"for x \x7d".toList, 3⟩, ⟨['\x7d'], 4⟩]⟩, 0⟩ =
          .ok ⟨⟨[⟨['a'], 1⟩, ⟨[], 2⟩, ⟨"for x \x7d".toList, 3⟩, ⟨['\x7d'], 4⟩]⟩, 4⟩ := by
      cbv
    refine ⟨_, _, rfl, ⟨by decide, by decide⟩, hread, ?_⟩
    exact (cursor_moves_forward _ ⟨by decide, by decide⟩).2.2.2.2 4 _ (by decide) hread

end BlockScript
