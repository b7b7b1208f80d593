import BlockScript.Proofs.Automaton
import BlockScript.Proofs.BlankLines
import BlockScript.Proofs.Concatenation
import BlockScript.Proofs.SourceLines

/-!
# Cleared lines

Blanks at the end of a line do not change its tokens (`tokenize_append_of_isBlank`): wherever the
automaton stands, it comes to the same behind them.  A line of spaces and tabs is never continued,
so it ends a logical line as an empty one does.  Clearing such lines changes neither the blocks of
a source nor what is wrong with it (`parse_unlines_of_cleared`).
-/

namespace BlockScript

/-! ## Blanks behind a line -/

namespace Automaton

/-- A blank leaves the automaton where the line can end as it could before. -/
theorem exists_step_of_isBlank (s : Automaton) {c : Char} (h : isBlank c) :
    ∃ t, s.step c = .ok t ∧ t.finish = s.finish := by
  have hd : isDelimiter c := by rw [isDelimiter, h]; rfl
  have hne : ∀ d : Char, isBlank d = false → c ≠ d := by
    rintro d hd rfl
    rw [h] at hd
    cases hd
  have hquote : c ≠ '"' := hne '"' rfl
  have hslash : c ≠ '\\' := hne '\\' rfl
  have hbetween : ∀ tokens, between tokens c = .ok ⟨tokens, .between⟩ := fun _ => if_pos h
  obtain ⟨tokens, mode⟩ := s
  cases mode with
  | between => exact ⟨_, hbetween tokens, rfl⟩
  | comment => exact ⟨_, rfl, rfl⟩
  | word text =>
    refine ⟨⟨tokens ++ [.literal text], .between⟩, ?_, rfl⟩
    exact (if_pos hd).trans (hbetween (tokens ++ [.literal text]))
  | string value => exact ⟨_, (if_neg hquote).trans (if_neg hslash), rfl⟩
  | escape value => exact ⟨_, rfl, rfl⟩
  | command depth raw =>
    have hinside : inside tokens depth raw c = ⟨tokens, .command depth (raw ++ [c])⟩ :=
      (if_neg hquote).trans ((if_neg (hne '(' rfl)).trans (if_neg (hne ')' rfl)))
    exact ⟨_, congrArg Except.ok hinside, rfl⟩
  | commandString depth raw => exact ⟨_, (if_neg hquote).trans (if_neg hslash), rfl⟩
  | commandEscape depth raw => exact ⟨_, rfl, rfl⟩

theorem runFrom_of_isBlank {blanks : Text} (h : ∀ c ∈ blanks, isBlank c) (s : Automaton) :
    s.runFrom blanks = s.finish := by
  induction blanks generalizing s with
  | nil => rfl
  | cons c cs ih =>
    obtain ⟨t, hstep, hfinish⟩ := exists_step_of_isBlank s (h c (by simp))
    rw [runFrom_of_step_eq_ok hstep, ih (fun d hd => h d (by simp [hd])) t, hfinish]

theorem runFrom_append_of_isBlank {blanks : Text} (h : ∀ c ∈ blanks, isBlank c) (s : Automaton)
    (cs : Text) : s.runFrom (cs ++ blanks) = s.runFrom cs := by
  induction cs generalizing s with
  | nil => exact runFrom_of_isBlank h s
  | cons c cs ih =>
    rw [List.cons_append]
    cases hstep : s.step c with
    | error cause => rw [runFrom_of_step_eq_error hstep, runFrom_of_step_eq_error hstep]
    | ok t => rw [runFrom_of_step_eq_ok hstep, runFrom_of_step_eq_ok hstep, ih t]

end Automaton

theorem tokenize_append_of_isBlank {blanks : Text} (h : ∀ c ∈ blanks, isBlank c) (line : Text) :
    tokenize (line ++ blanks) = tokenize line := by
  have hrun := Automaton.runFrom_append_of_isBlank h .start line
  have hstart : ∀ cs, Automaton.start.runFrom cs = tokenize cs := by
    intro cs
    have hcs : Automaton.start.runFrom cs = (tokenize cs).map ([] ++ ·) :=
      Automaton.runFrom_eq_map_tokenize [] cs
    rw [hcs]
    cases tokenize cs <;> rfl
  rw [hstart, hstart] at hrun
  exact hrun

/-! ## Cleared lines of a source -/

/-- The other line is the line, or an empty one in place of spaces and tabs. -/
def Cleared (line other : Text) : Prop :=
  other = line ∨ other = [] ∧ ∀ c ∈ line, c = ' ' ∨ c = '\t'

namespace Cleared

variable {line other : Text}

theorem isBlank_of_forall (h : ∀ c ∈ line, c = ' ' ∨ c = '\t') : ∀ c ∈ line, isBlank c := by
  intro c hc
  rcases h c hc with rfl | rfl <;> rfl

/-- A line of spaces and tabs ends in no other character. -/
theorem chop?_of_forall (h : ∀ c ∈ line, c = ' ' ∨ c = '\t') {d : Char} (hd : d ≠ ' ' ∧ d ≠ '\t') :
    Text.chop? d line = none :=
  Text.chop?_eq_none fun hlast =>
    (h d (List.mem_of_getLast? hlast)).elim hd.1 hd.2

theorem physicalLine (h : Cleared line other) :
    Cleared (Script.physicalLine line) (Script.physicalLine other) := by
  rcases h with rfl | ⟨rfl, hblank⟩
  · exact .inl rfl
  · have hline : Script.physicalLine line = line := by
      rw [Script.physicalLine, chop?_of_forall hblank (by decide), Option.getD_none]
    rw [hline]
    exact .inr ⟨rfl, hblank⟩

/-- A line that is cleared ends a logical line as before, and what it adds to that has no tokens. -/
theorem chop?_cases (h : Cleared line other) :
    (∃ front, Text.chop? '\\' line = some front ∧ Text.chop? '\\' other = some front) ∨
      Text.chop? '\\' line = none ∧ Text.chop? '\\' other = none ∧
        ∀ front, tokenize (front ++ other) = tokenize (front ++ line) := by
  rcases h with rfl | ⟨rfl, hblank⟩
  · cases hc : Text.chop? '\\' other with
    | some front => exact .inl ⟨front, rfl, rfl⟩
    | none => exact .inr ⟨rfl, rfl, fun _ => rfl⟩
  · refine .inr ⟨chop?_of_forall hblank (by decide), rfl, fun front => ?_⟩
    rw [List.append_nil, tokenize_append_of_isBlank (isBlank_of_forall hblank)]

theorem forall_not_mem {c : Char} {raw thin : List Text} (h : List.Forall₂ Cleared raw thin)
    (hc : ∀ line ∈ raw, c ∉ line) : ∀ line ∈ thin, c ∉ line := by
  induction h with
  | nil => exact hc
  | cons hline _ ih =>
    rw [List.forall_mem_cons] at hc ⊢
    refine ⟨?_, ih hc.2⟩
    rcases hline with rfl | ⟨rfl, -⟩
    · exact hc.1
    · exact List.not_mem_nil

end Cleared

/-- Clearing physical lines keeps the logical lines but for blanks at their ends. -/
theorem Script.joinContinued_of_cleared {raw thin : List Text} (h : List.Forall₂ Cleared raw thin)
    (n : Nat) (pending : Option Line) :
    (∃ cause, joinContinued n pending raw = .error cause ∧
      joinContinued n pending thin = .error cause) ∨
    ∃ full lines, joinContinued n pending raw = .ok full ∧
      joinContinued n pending thin = .ok lines ∧ Thinned full lines := by
  induction h generalizing n pending with
  | nil =>
    cases pending with
    | none => exact .inr ⟨[], [], rfl, rfl, .nil⟩
    | some line => exact .inl ⟨_, rfl, rfl⟩
  | cons hpiece _ ih =>
    rcases hpiece.chop?_cases with ⟨front, hp, hq⟩ | ⟨hp, hq, htokens⟩
    · rw [joinContinued_of_some hp, joinContinued_of_some hq]
      exact ih (n + 1) _
    · rw [joinContinued_of_none hp, joinContinued_of_none hq]
      rcases ih (n + 1) none with ⟨cause, hraw, hthin⟩ | ⟨full, lines, hraw, hthin, h⟩
      · rw [hraw, hthin]
        exact .inl ⟨cause, rfl, rfl⟩
      · rw [hraw, hthin]
        exact .inr ⟨_, _, rfl, rfl, .keep ⟨htokens _, rfl⟩ h⟩

/-- A source has the same blocks, or the same mistake under the same lines, when some of its lines
are cleared. -/
theorem parse_unlines_of_cleared {raw thin : List Text} (h : List.Forall₂ Cleared raw thin)
    (hf : ∀ line ∈ raw, '\n' ∉ line) : parse (Text.unlines thin) = parse (Text.unlines raw) := by
  cases h with
  | nil => rfl
  | @cons line other raw thin hline hrest =>
    have hall : List.Forall₂ Cleared (line :: raw) (other :: thin) := .cons hline hrest
    have hphysical : List.Forall₂ Cleared ((line :: raw).map Script.physicalLine)
        ((other :: thin).map Script.physicalLine) := by
      rw [List.forall₂_map_left_iff, List.forall₂_map_right_iff]
      exact hall.imp fun _ _ => Cleared.physicalLine
    have hraw : Text.lines (Text.unlines (line :: raw)) = line :: raw :=
      Text.pieces_join (List.cons_ne_nil _ _) hf
    have hthin : Text.lines (Text.unlines (other :: thin)) = other :: thin :=
      Text.pieces_join (List.cons_ne_nil _ _) (Cleared.forall_not_mem hall hf)
    rw [parse, parse, Script.ofSource, Script.ofSource, hraw, hthin]
    rcases Script.joinContinued_of_cleared hphysical 1 none with
      ⟨cause, hr, ht⟩ | ⟨full, lines, hr, ht, h⟩
    · rw [hr, ht]
    · rw [hr, ht]
      exact (Block.result_readAll_of_thinned full lines h).symm

end BlockScript
