import BlockScript.Proofs.Entering

/-!
# The first line of a program

At a fresh start a session passes over a line of white space without reading it, but white space
is more than the blanks of the lexer: a line with a no-break space or a form feed in it has tokens
(`tokenize_eq_nil_iff_of_isWhitespace`).  Every other line that is not one of the session's own
words is read, and its blocks are shown (`first_line_shown_iff`).
-/

namespace BlockScript

/-! ## Lines without tokens -/

namespace Lexer

/-- The end of the tokens is where nothing is left behind the blanks. -/
theorem nextToken_eq_none_iff {cs : Text} : nextToken cs = .ok none ↔ skipBlanks cs = [] := by
  unfold nextToken
  cases skipBlanks cs with
  | nil => simp
  | cons c tail =>
    simp only [reduceCtorEq, iff_false]
    split_ifs
    · intro h
      obtain ⟨_, -, hx⟩ := exists_ok_of_map_eq_ok h
      cases hx
    · intro h
      obtain ⟨_, -, hx⟩ := exists_ok_of_map_eq_ok h
      cases hx
    · nofun
    · nofun

theorem skipBlanks_eq_nil_iff {cs : Text} (h : '#' ∉ cs) :
    skipBlanks cs = [] ↔ ∀ c ∈ cs, isBlank c := by
  induction cs with
  | nil => simp [skipBlanks]
  | cons c cs ih =>
    have hc : c ≠ '#' := fun hc => h (by simp [hc])
    have hcs : '#' ∉ cs := fun hcs => h (by simp [hcs])
    by_cases hb : isBlank c
    · rw [skipBlanks_of_isBlank hb, ih hcs, List.forall_mem_cons]
      simp [hb]
    · rw [skipBlanks_of_ne (by simpa using hb) hc]
      simp [hb]

end Lexer

theorem tokenize_eq_nil_iff {line : Text} :
    tokenize line = .ok [] ↔ Lexer.skipBlanks line = [] := by
  rw [← Lexer.nextToken_eq_none_iff]
  refine ⟨fun h => ?_, tokenize_of_none⟩
  cases hn : Lexer.nextToken line with
  | error cause =>
    rw [tokenize_of_error hn] at h
    cases h
  | ok next =>
    cases next with
    | none => rfl
    | some next =>
      rw [tokenize_of_some hn] at h
      obtain ⟨_, -, hx⟩ := exists_ok_of_map_eq_ok h
      cases hx

/-- White space has no tokens only if all of it is blank to the lexer. -/
theorem tokenize_eq_nil_iff_of_isWhitespace {line : Text} (h : ∀ c ∈ line, isWhitespace c) :
    tokenize line = .ok [] ↔ ∀ c ∈ line, isBlank c := by
  rw [tokenize_eq_nil_iff, Lexer.skipBlanks_eq_nil_iff]
  intro hc
  exact absurd (h _ hc) (by decide)

/-! ## At a fresh start -/

theorem Session.display_ne_ok_nil {s : Session} {blocks : List Block} (h : blocks ≠ []) :
    s.display blocks ≠ .ok [] := by
  cases hr : renderAs s.format blocks with
  | ok text =>
    rw [display_of_ne_nil h hr]
    simp
  | error e =>
    rw [display, if_neg (by simp [h]), hr]
    intro hx
    cases hx

/-- With nothing pending, a line that is no word of the session's own and that has blocks is
answered by these and nothing else, exactly if it is not all white space.  A line of white space is
passed over, and it has no tokens exactly if it is all blanks. -/
theorem first_line_shown_iff (s : Session) (line : Text) (hs : s.pending = [])
    (hw : line.trim ∉ Session.commandWords) :
    (∀ blocks, parse line = .ok blocks → blocks ≠ [] →
      (s.enter line = (s.display blocks).map (fun shown => (shown, some s)) ↔
        ∃ c ∈ line, isWhitespace c = false)) ∧
    ((∀ c ∈ line, isWhitespace c) →
      s.enter line = .ok ([], some s) ∧ (tokenize line = .ok [] ↔ ∀ c ∈ line, isBlank c)) := by
  refine ⟨fun blocks hp hb => ?_, fun h => ?_⟩
  · by_cases ht : line.trim = []
    · have hspace := Text.trim_eq_nil_iff.1 ht
      rw [Session.enter_of_trim_eq_nil hs ht]
      refine iff_of_false (fun h => ?_) ?_
      · obtain ⟨shown, hd, hx⟩ := exists_ok_of_map_eq_ok h.symm
        cases hx
        exact Session.display_ne_ok_nil hb hd
      · rintro ⟨c, hc, hf⟩
        rw [hspace c hc] at hf
        cases hf
    · have hfresh : s.fresh = s := by rw [Session.fresh, ← hs]
      have hsource : Text.unlines (s.pending ++ [line]) = line := by
        rw [hs]
        rfl
      rw [Session.enter_of_not_mem hs hw ht, Session.submit_of_ok (hsource.symm ▸ hp), hfresh]
      refine iff_of_true rfl ?_
      rw [Text.trim_eq_nil_iff] at ht
      simpa using ht
  · exact ⟨Session.enter_of_trim_eq_nil hs (Text.trim_eq_nil_iff.2 h),
      tokenize_eq_nil_iff_of_isWhitespace h⟩

/-- A form feed with a word behind it is a command of its own name. -/
theorem first_line_shown_iff_formFeed :
    (Session.start "json".toList true).enter "\u000c x\u00a0".toList =
        .ok (Block.json [.command ⟨.literal ['\u000c'], [.literal "x\u00a0".toList]⟩] ++ ['\n'],
          some (Session.start "json".toList true)) ∧
      (Session.start "json".toList true).enter " \t".toList =
        .ok ([], some (Session.start "json".toList true)) := by
  have hparse : parse "\u000c x\u00a0".toList =
      .ok [.command ⟨.literal ['\u000c'], [.literal "x\u00a0".toList]⟩] := by
    cbv
  have hdisplay : (Session.start "json".toList true).display
      [.command ⟨.literal ['\u000c'], [.literal "x\u00a0".toList]⟩] =
        .ok (Block.json [.command ⟨.literal ['\u000c'], [.literal "x\u00a0".toList]⟩] ++ ['\n']) :=
    Session.display_of_ne_nil (List.cons_ne_nil _ _) rfl
  refine ⟨?_, ?_⟩
  · have hshown := (first_line_shown_iff (Session.start "json".toList true) _ rfl (by decide)).1 _
      hparse (List.cons_ne_nil _ _)
    rw [hshown.2 ⟨'x', by decide, by decide⟩, hdisplay]
    rfl
  · have hspace : " \t".toList.all isWhitespace = true := by decide
    exact ((first_line_shown_iff (Session.start "json".toList true) " \t".toList rfl
      (by decide)).2 (List.all_eq_true.1 hspace)).1

/-- A no-break space is a command, but a session passes over it at a fresh start. -/
theorem first_line_not_shown_noBreakSpace :
    Text.trim "\u00a0".toList ∉ Session.commandWords ∧
      parse "\u00a0".toList = .ok [.command ⟨.literal "\u00a0".toList, []⟩] ∧
      (Session.start "tree".toList false).display [.command ⟨.literal "\u00a0".toList, []⟩] =
        .ok "command \u00a0\n".toList ∧
      (Session.start "tree".toList false).enter "\u00a0".toList =
        .ok ([], some (Session.start "tree".toList false)) := by
  refine ⟨by decide, by cbv, ?_, Session.enter_of_trim_eq_nil rfl (by decide)⟩
  exact (Session.display_of_ne_nil (List.cons_ne_nil _ _) rfl).trans (by decide)

end BlockScript
