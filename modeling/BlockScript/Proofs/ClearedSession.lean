import BlockScript.Proofs.ClearedLines
import BlockScript.Proofs.Returning

/-!
# Sessions with cleared lines

Two sessions whose lines differ only in spaces and tabs that have been cleared answer alike
(`Session.enter_alike_or`), for they have the same sources but for blanks.  Only that two line feeds
give up an open body is told from the characters of the source: two lines that have been cleared
give it up where those with spaces and tabs do not.  So a conversation stays the same exactly if no
body is left open behind two lines one of which has been cleared to an empty one
(`cleared_lines_alike_iff`).
-/

namespace BlockScript

/-! ## Two empty lines at the end -/

theorem Text.two_empty_lines_of_lineFeeds {lines : List Text} (hf : ∀ line ∈ lines, '\n' ∉ line)
    (h : ['\n', '\n'] <:+ unlines lines) : [[], []] <:+ lines := by
  obtain ⟨source, hsource⟩ := h
  have hne : lines ≠ [] := by
    rintro rfl
    exact absurd (congrArg List.length hsource) (by simp [unlines, join])
  have hcut : Text.lines (unlines lines) = lines := pieces_join hne hf
  rw [← hcut, ← hsource, Text.lines, pieces_append]
  exact List.suffix_append _ _

theorem Cleared.trim_eq {line other : Text} (h : Cleared line other) : other.trim = line.trim := by
  rcases h with rfl | ⟨rfl, hblank⟩
  · rfl
  · have hline : line.trim = [] := by
      rw [Text.trim_eq_nil_iff]
      intro c hc
      rcases hblank c hc with rfl | rfl <;> decide
    rw [hline]
    rfl

theorem Cleared.eq_nil {other : Text} (h : Cleared [] other) : other = [] := h.elim id And.left

theorem Cleared.two_empty_lines {raw thin : List Text} (h : List.Forall₂ Cleared raw thin)
    (hs : [[], []] <:+ raw) : [[], []] <:+ thin := by
  obtain ⟨front, rfl⟩ := hs
  have hdrop := List.forall₂_drop_append _ _ _ h.flip
  obtain ⟨a, _, ha, hrest, hthin⟩ := List.forall₂_cons_right_iff.1 hdrop
  obtain ⟨b, _, hb, hnil, rfl⟩ := List.forall₂_cons_right_iff.1 hrest
  obtain rfl := List.forall₂_nil_right_iff.1 hnil
  rw [Cleared.eq_nil ha, Cleared.eq_nil hb] at hthin
  exact hthin ▸ List.drop_suffix _ _

namespace Session

variable {s t u : Session} {line other : Text} {lines raw thin : List Text} {xs : List Exchange}

/-- Some lines end in a body. -/
def OpenBody (lines : List Text) : Prop :=
  ∃ e, parse (Text.unlines lines) = .error e ∧ "Missing \x7d.".toList <:+ e.message

/-- Lines that are refused wait exactly if they end in an unfinished line, or in a body and not in
two empty lines. -/
theorem waits_iff_not_two_empty_lines {e : ParseError} (hf : ∀ line ∈ lines, '\n' ∉ line)
    (h : parse (Text.unlines lines) = .error e) :
    Waits lines ↔ (∃ n, e = ⟨[], .danglingContinuation n⟩) ∨
      e.cause = .unclosedBody ∧ ¬ [[], []] <:+ lines := by
  have hempty : [[], []] <:+ lines ↔ ['\n', '\n'] <:+ Text.unlines lines := by
    constructor
    · rintro ⟨front, rfl⟩
      have hfront : front ≠ [] := by
        rintro rfl
        have hok : parse (Text.unlines [[], []]) = .ok [] := by cbv
        rw [List.nil_append, hok] at h
        cases h
      rw [List.append_cons, Text.unlines_append_nil_nil hfront, List.append_assoc]
      exact List.suffix_append _ _
    · exact Text.two_empty_lines_of_lineFeeds hf
  rw [waits_iff h, hempty]

/-! ## Sessions side by side -/

/-- The other session differs from the session in cleared lines only. -/
structure Alike (s t : Session) : Prop where
  format_eq : t.format = s.format
  verbose_eq : t.verbose = s.verbose
  pending : List.Forall₂ Cleared s.pending t.pending
  noLineFeed : ∀ line ∈ s.pending, '\n' ∉ line

theorem Alike.fresh (h : Alike s t) : Alike s.fresh t.fresh :=
  ⟨h.format_eq, h.verbose_eq, .nil, nofun⟩

theorem Alike.keep (h : Alike s t) (hline : Cleared line other) (hf : '\n' ∉ line) :
    Alike (s.keep line) (t.keep other) where
  format_eq := h.format_eq
  verbose_eq := h.verbose_eq
  pending := List.rel_append h.pending (.cons hline .nil)
  noLineFeed l hl := by
    rcases List.mem_append.1 hl with hl | hl
    · exact h.noLineFeed l hl
    · exact List.mem_singleton.1 hl ▸ hf

theorem Alike.parse_eq (h : Alike s t) :
    parse (Text.unlines t.pending) = parse (Text.unlines s.pending) :=
  parse_unlines_of_cleared h.pending h.noLineFeed

theorem Alike.display_eq (h : Alike s t) (bs : List Block) : t.display bs = s.display bs := by
  rw [display, display, h.format_eq, h.verbose_eq]

theorem Alike.pending_eq_nil_iff (h : Alike s t) : t.pending = [] ↔ s.pending = [] := by
  have hlen := h.pending.length_eq
  rw [← List.length_eq_zero_iff, ← List.length_eq_zero_iff, hlen]

theorem Alike.prompt_eq (h : Alike s t) : t.prompt = s.prompt := by
  simp only [prompt, List.isEmpty_iff, h.pending_eq_nil_iff]

/-- If a session waits, so does one with spaces and tabs that it has cleared. -/
theorem Alike.waits (h : Alike s t) (ht : Waits t.pending) : Waits s.pending := by
  obtain ⟨e, he, -⟩ := id ht
  have he' : parse (Text.unlines s.pending) = .error e := h.parse_eq ▸ he
  rw [waits_iff_not_two_empty_lines (Cleared.forall_not_mem h.pending h.noLineFeed) he] at ht
  rw [waits_iff_not_two_empty_lines h.noLineFeed he']
  exact ht.imp_right fun ⟨hc, hn⟩ => ⟨hc, fun hs => hn (Cleared.two_empty_lines h.pending hs)⟩

/-- A session waits where one that has cleared lines does not only if it has a body open that the
other gives up for two empty lines. -/
theorem Alike.openBody_of_waits (h : Alike s t) (hs : Waits s.pending) (ht : ¬ Waits t.pending) :
    OpenBody s.pending ∧ [[], []] <:+ t.pending := by
  obtain ⟨e, he, -⟩ := id hs
  have he' : parse (Text.unlines t.pending) = .error e := h.parse_eq.trans he
  rw [waits_iff_not_two_empty_lines (Cleared.forall_not_mem h.pending h.noLineFeed) he'] at ht
  rw [waits_iff_not_two_empty_lines h.noLineFeed he] at hs
  rcases hs with hdangling | ⟨hc, -⟩
  · exact absurd (.inl hdangling) ht
  · refine ⟨⟨e, he, ParseError.isSuffix_message_iff.2 hc⟩, ?_⟩
    exact Decidable.byContradiction fun hn => ht (.inr ⟨hc, hn⟩)

/-- The answers of two sessions show the same and lead to sessions that are alike again, if they
lead to any. -/
inductive AnswersAlike : (x y : Except UnsupportedFormat (Text × Option Session)) → Prop where
  | error (e : UnsupportedFormat) : AnswersAlike (.error e) (.error e)
  | stop (shown : Text) : AnswersAlike (.ok (shown, none)) (.ok (shown, none))
  | next (shown : Text) {s t : Session} (h : Alike s t) :
      AnswersAlike (.ok (shown, some s)) (.ok (shown, some t))

/-- The one answer keeps a line with a body that is open, and the other gives the body up for two
empty lines. -/
structure GivesUp (s t : Session) (line other : Text)
    (x y : Except UnsupportedFormat (Text × Option Session)) : Prop where
  keeps : x = .ok ([], some (s.keep line))
  reports : ∃ e, y = .ok (report e, some t.fresh)
  openBody : OpenBody (s.keep line).pending
  twoEmpty : [[], []] <:+ (t.keep other).pending

theorem submit_alike_or (h : Alike s t) (hline : Cleared line other) (hf : '\n' ∉ line) :
    AnswersAlike (s.submit line) (t.submit other) ∨
      GivesUp s t line other (s.submit line) (t.submit other) := by
  have hkeep : Alike (s.keep line) (t.keep other) := h.keep hline hf
  cases hs : parse (Text.unlines (s.pending ++ [line])) with
  | ok bs =>
    left
    rw [submit_of_ok hs, submit_of_ok (hkeep.parse_eq.trans hs), h.display_eq]
    cases s.display bs with
    | error e => exact .error e
    | ok shown => exact .next shown h.fresh
  | error e =>
    have ht : parse (Text.unlines (t.pending ++ [other])) = .error e := hkeep.parse_eq.trans hs
    by_cases hw : Waits (s.pending ++ [line])
    · by_cases hw' : Waits (t.pending ++ [other])
      · rw [submit_of_waits hw, submit_of_waits hw']
        exact .inl (.next [] hkeep)
      · obtain ⟨hopen, hempty⟩ := hkeep.openBody_of_waits hw hw'
        exact .inr ⟨submit_of_waits hw, ⟨e, submit_of_not_waits ht hw'⟩, hopen, hempty⟩
    · have hw' : ¬ Waits (t.pending ++ [other]) := fun hw' => hw (hkeep.waits hw')
      rw [submit_of_not_waits hs hw, submit_of_not_waits ht hw']
      exact .inl (.next _ h.fresh)

/-- A line that is cleared is answered as before, unless that gives up an open body. -/
theorem enter_alike_or (h : Alike s t) (hline : Cleared line other) (hf : '\n' ∉ line) :
    AnswersAlike (s.enter line) (t.enter other) ∨
      GivesUp s t line other (s.enter line) (t.enter other) := by
  have hsubmit : s.enter line = s.submit line → t.enter other = t.submit other →
      AnswersAlike (s.enter line) (t.enter other) ∨
        GivesUp s t line other (s.enter line) (t.enter other) := by
    intro hs ht
    rw [hs, ht]
    exact submit_alike_or h hline hf
  by_cases hs : s.pending = []
  · have ht : t.pending = [] := h.pending_eq_nil_iff.2 hs
    have htrim : other.trim = line.trim := hline.trim_eq
    by_cases hend : line.trim = "exit".toList ∨ line.trim = "quit".toList
    · rw [enter_of_end hs hend, enter_of_end ht (htrim.symm ▸ hend)]
      exact .inl (.stop [])
    by_cases hmode : line.trim = "verbose-mode".toList
    · rw [enter_of_verboseMode hs hmode, enter_of_verboseMode ht (htrim.trans hmode), h.verbose_eq]
      exact .inl (.next _ ⟨h.format_eq, rfl, h.pending, h.noLineFeed⟩)
    by_cases hblank : line.trim = []
    · rw [enter_of_trim_eq_nil hs hblank, enter_of_trim_eq_nil ht (htrim.trans hblank)]
      exact .inl (.next [] h)
    have hword : line.trim ∉ commandWords := by
      simp only [commandWords, List.mem_cons, List.not_mem_nil, or_false, not_or]
      exact ⟨fun h => hend (.inl h), fun h => hend (.inr h), hmode⟩
    exact hsubmit (enter_of_not_mem hs hword hblank)
      (enter_of_not_mem ht (htrim.symm ▸ hword) (htrim.symm ▸ hblank))
  · exact hsubmit (enter_of_pending hs) (enter_of_pending (mt h.pending_eq_nil_iff.1 hs))

/-! ## Conversations -/

/-- Nothing pending has a body open, and neither has an empty line. -/
theorem not_openBody_of_length_le (h : lines.length ≤ 1) (hline : ∀ line ∈ lines, line = []) :
    ¬ OpenBody lines := by
  rintro ⟨e, he, -⟩
  have hnil : parse [] = .ok [] := parse_of_forall_isBlank nofun nofun
  have hsource : Text.unlines lines = [] := by
    match lines, h with
    | [], _ => rfl
    | [line], _ => exact hline line (by simp)
  rw [hsource, hnil] at he
  cases he

/-- A session that has a body open does not come from two empty lines. -/
theorem not_two_empty_lines_of_openBody (hs : s.pending = [])
    (hf : ∀ line ∈ lines, '\n' ∉ line) (h : s.enterAll lines = some (xs, t))
    (ht : OpenBody t.pending) : ¬ [[], []] <:+ lines := by
  intro hend
  have hsuffix : t.pending <:+ lines := by
    have hpending := pending_isSuffix_of_enterAll h
    rwa [hs, List.nil_append] at hpending
  have hfp : ∀ line ∈ t.pending, '\n' ∉ line := fun line hl => hf line (hsuffix.mem hl)
  by_cases hlen : t.pending.length ≤ 1
  · have hshort : t.pending <:+ [[], []] :=
      List.suffix_of_suffix_length_le hsuffix hend (by simp; omega)
    refine not_openBody_of_length_le hlen (fun line hl => ?_) ht
    simpa using hshort.mem hl
  · obtain ⟨e, he, hm⟩ := ht
    have hc : e.cause = .unclosedBody := ParseError.isSuffix_message_iff.1 hm
    have hne : t.pending ≠ [] := by
      rintro hnil
      simp [hnil] at hlen
    have hw : Waits t.pending := (waits_of_enterAll (.inl hs) h).1.resolve_left hne
    rw [waits_iff_not_two_empty_lines hfp he] at hw
    rcases hw with ⟨n, rfl⟩ | ⟨-, hn⟩
    · cases hc
    · exact hn (List.suffix_of_suffix_length_le hend hsuffix (by simp; omega))

/-- As long as nothing else is shown, the sessions stay alike. -/
theorem alike_of_converse_eq (hst : Alike s t) (h : List.Forall₂ Cleared raw thin)
    (hf : ∀ line ∈ raw, '\n' ∉ line)
    (heq : s.converse (raw.map .line) = t.converse (thin.map .line)) (k : Nat)
    (hs : s.enterAll (raw.take k) = some (xs, u)) :
    ∃ ys v, t.enterAll (thin.take k) = some (ys, v) ∧ Alike u v := by
  induction h generalizing s t xs k with
  | nil =>
    rw [List.take_nil] at hs ⊢
    cases hs
    exact ⟨[], t, rfl, hst⟩
  | @cons line other raw thin hline _ ih =>
    cases k with
    | zero =>
      cases hs
      exact ⟨[], t, rfl, hst⟩
    | succ k =>
      rw [List.take_succ_cons] at hs ⊢
      obtain ⟨shown, next, ys, hn, hrest, -⟩ := enterAll_cons_eq_some_iff.1 hs
      rw [List.forall_mem_cons] at hf
      rw [List.map_cons, List.map_cons, converse_line hn] at heq
      rcases enter_alike_or hst hline hf.1 with ha | hg
      · rw [hn] at ha
        generalize hother : t.enter other = answer at ha
        cases ha with
        | next shown hnext =>
          rw [converse_line hother] at heq
          simp only [Prod.mk.injEq, List.cons.injEq] at heq
          obtain ⟨zs, v, hv, huv⟩ := ih hnext hf.2 (Prod.ext heq.1.2 heq.2) k hrest
          exact ⟨_, v, enterAll_cons_eq_some_iff.2 ⟨shown, _, zs, hother, hv, rfl⟩, huv⟩
      · -- the report is shown on the one side only
        obtain ⟨e, he⟩ := hg.reports
        rw [hg.keeps] at hn
        cases hn
        rw [converse_line he] at heq
        have hhead := (List.cons.inj (congrArg Prod.fst heq)).1
        have hshown : [] = report e := congrArg Exchange.shown hhead
        exact absurd hshown.symm (report_ne_nil e)

/-- Nothing else is shown unless a body is left open behind two lines that are cleared. -/
theorem converse_eq_of_forall (hst : Alike s t) (h : List.Forall₂ Cleared raw thin)
    (hf : ∀ line ∈ raw, '\n' ∉ line)
    (hall : ∀ k xs u, s.enterAll (raw.take k) = some (xs, u) →
      [[], []] <:+ t.pending ++ thin.take k → ¬ OpenBody u.pending) :
    s.converse (raw.map .line) = t.converse (thin.map .line) := by
  induction h generalizing s t with
  | nil =>
    simp only [List.map_nil, converse, hst.prompt_eq]
  | @cons line other raw thin hline _ ih =>
    rw [List.forall_mem_cons] at hf
    rw [List.map_cons, List.map_cons]
    rcases enter_alike_or hst hline hf.1 with ha | hg
    · generalize hl : s.enter line = x at ha
      generalize ho : t.enter other = y at ha
      cases ha with
      | error e => rw [converse, converse, hl, ho, hst.prompt_eq]
      | stop shown => rw [converse, converse, hl, ho, hst.prompt_eq]
      | @next shown s' t' hnext =>
        have hrest : s'.converse (raw.map .line) = t'.converse (thin.map .line) := by
          refine ih hnext hf.2 fun k xs u hu hend => ?_
          have hcons : s.enterAll ((line :: raw).take (k + 1)) =
              some (⟨s.prompt, shown⟩ :: xs, u) :=
            enterAll_cons_eq_some_iff.2 ⟨shown, s', xs, hl, hu, rfl⟩
          -- what is pending in the session behind has been pending before or is the line
          refine hall (k + 1) _ u hcons (hend.trans ?_)
          rw [List.take_succ_cons, List.append_cons]
          exact List.suffix_append_self_iff.2 (pending_isSuffix_of_enter ho)
        rw [converse_line hl, converse_line ho, hrest, hst.prompt_eq]
    · have hone : s.enterAll ((line :: raw).take 1) = some ([⟨s.prompt, []⟩], s.keep line) :=
        enterAll_cons_eq_some_iff.2 ⟨[], _, [], hg.keeps, rfl, rfl⟩
      exact absurd hg.openBody (hall 1 _ _ hone hg.twoEmpty)

end Session

/-- A conversation stays the same when lines of spaces and tabs are cleared, exactly if nowhere a
body is left open behind two lines that are empty then.  So it stays the same if the only lines that
are empty then one behind the other have been empty before. -/
theorem cleared_lines_alike_iff (s : Session) (raw thin : List Text) (hs : s.pending = [])
    (h : List.Forall₂ Cleared raw thin) (hf : ∀ line ∈ raw, '\n' ∉ line) :
    (s.converse (raw.map .line) = s.converse (thin.map .line) ↔
      ∀ k xs t, s.enterAll (raw.take k) = some (xs, t) → [[], []] <:+ thin.take k →
        ¬ Session.OpenBody t.pending) ∧
    ((∀ k, [[], []] <:+ thin.take k → [[], []] <:+ raw.take k) →
      s.converse (raw.map .line) = s.converse (thin.map .line)) := by
  have hrefl : s.Alike s := ⟨rfl, rfl, hs ▸ .nil, hs ▸ nofun⟩
  have hall : (∀ k xs t, s.enterAll (raw.take k) = some (xs, t) → [[], []] <:+ thin.take k →
      ¬ Session.OpenBody t.pending) →
        s.converse (raw.map .line) = s.converse (thin.map .line) := by
    intro hopen
    refine Session.converse_eq_of_forall hrefl h hf fun k xs t ht hend => ?_
    rw [hs, List.nil_append] at hend
    exact hopen k xs t ht hend
  refine ⟨⟨fun heq k xs t ht hend hopen => ?_, hall⟩, fun hempty => ?_⟩
  · obtain ⟨ys, u, hu, htu⟩ := Session.alike_of_converse_eq hrefl h hf heq k ht
    have hopen' : Session.OpenBody u.pending := by
      obtain ⟨e, he, hm⟩ := hopen
      exact ⟨e, htu.parse_eq.trans he, hm⟩
    have hf' : ∀ line ∈ thin.take k, '\n' ∉ line := fun line hl =>
      Cleared.forall_not_mem h hf line (List.mem_of_mem_take hl)
    exact Session.not_two_empty_lines_of_openBody hs hf' hu hopen' hend
  · refine hall fun k xs t ht hend hopen => ?_
    have hf' : ∀ line ∈ raw.take k, '\n' ∉ line := fun line hl => hf line (List.mem_of_mem_take hl)
    exact Session.not_two_empty_lines_of_openBody hs hf' ht hopen (hempty k hend)

/-- One line of a body and the line behind it are cleared, and no two empty lines meet. -/
theorem cleared_lines_alike_iff_loop :
    List.Forall₂ Cleared ["for x \x7d".toList, "\t ".toList, ['\x7d'], [' ']]
        ["for x \x7d".toList, [], ['\x7d'], []] ∧
      (Session.start "tree".toList false).converse
          (["for x \x7d".toList, "\t ".toList, ['\x7d'], [' ']].map .line) =
        (Session.start "tree".toList false).converse
          (["for x \x7d".toList, [], ['\x7d'], []].map .line) := by
  have hcleared : List.Forall₂ Cleared ["for x \x7d".toList, "\t ".toList, ['\x7d'], [' ']]
      ["for x \x7d".toList, [], ['\x7d'], []] :=
    .cons (.inl rfl) (.cons (.inr ⟨rfl, by simp⟩)
      (.cons (.inl rfl) (.cons (.inr ⟨rfl, by simp⟩) .nil)))
  refine ⟨hcleared, (cleared_lines_alike_iff _ _ _ rfl hcleared (by decide)).2 fun k hend => ?_⟩
  -- a line stands between the two that are empty
  have hinfix : [[], []] <:+: ["for x \x7d".toList, [], ['\x7d'], []] :=
    hend.isInfix.trans (List.take_prefix k _).isInfix
  exact absurd hinfix (by decide)

/-- Two lines of a space behind the header of a loop are no end of it, but two empty lines are. -/
theorem cleared_lines_not_alike_openBody :
    List.Forall₂ Cleared ["for x \x7d".toList, [' '], [' ']] ["for x \x7d".toList, [], []] ∧
      (Session.start "tree".toList false).converse
          (["for x \x7d".toList, [' '], [' ']].map .line) =
        ([⟨"pragmash> ".toList, []⟩, ⟨"...> ".toList, []⟩, ⟨"...> ".toList, []⟩,
          ⟨"...> ".toList, Session.farewell⟩], none) ∧
      (Session.start "tree".toList false).converse
          (["for x \x7d".toList, [], []].map .line) =
        ([⟨"pragmash> ".toList, []⟩, ⟨"...> ".toList, []⟩,
          ⟨"...> ".toList, Session.report ⟨[1], .unclosedBody⟩⟩,
          ⟨"pragmash> ".toList, Session.farewell⟩], none) := by
  have hkeep : ∀ {pending : List Text} {line : Text} {e : ParseError}, pending ≠ [] →
      parse (Text.unlines (pending ++ [line])) = .error e →
      awaitsMore (Text.unlines (pending ++ [line])) e.message = true →
      (Session.pendingTree pending).enter line =
        .ok ([], some (Session.pendingTree (pending ++ [line]))) :=
    fun hp he ha => (Session.enter_of_pending hp).trans (Session.submit_of_waits ⟨_, he, ha⟩)
  have hfirst : (Session.start "tree".toList false).enter "for x \x7d".toList =
      .ok ([], some (Session.pendingTree ["for x \x7d".toList])) :=
    (Session.enter_of_not_mem rfl (by decide) (by decide)).trans
      (Session.submit_of_waits ⟨⟨[1], .unclosedBody⟩, by cbv, by decide⟩)
  have hspace : (Session.pendingTree ["for x \x7d".toList]).enter [' '] =
      .ok ([], some (Session.pendingTree ["for x \x7d".toList, [' ']])) :=
    hkeep (List.cons_ne_nil _ _) (e := ⟨[1], .unclosedBody⟩) (by cbv) (by decide)
  have hspaces : (Session.pendingTree ["for x \x7d".toList, [' ']]).enter [' '] =
      .ok ([], some (Session.pendingTree ["for x \x7d".toList, [' '], [' ']])) :=
    hkeep (List.cons_ne_nil _ _) (e := ⟨[1], .unclosedBody⟩) (by cbv) (by decide)
  have hempty : (Session.pendingTree ["for x \x7d".toList]).enter [] =
      .ok ([], some (Session.pendingTree ["for x \x7d".toList, []])) :=
    hkeep (List.cons_ne_nil _ _) (e := ⟨[1], .unclosedBody⟩) (by cbv) (by decide)
  have hgivenUp : (Session.pendingTree ["for x \x7d".toList, []]).enter [] =
      .ok (Session.report ⟨[1], .unclosedBody⟩, some (Session.pendingTree [])) :=
    (Session.enter_of_pending (List.cons_ne_nil _ _)).trans
      (Session.submit_of_not_waits (by cbv)
        (Session.not_waits_append_nil_nil (List.cons_ne_nil "for x \x7d".toList [])))
  refine ⟨.cons (.inl rfl) (.cons (.inr ⟨rfl, by simp⟩) (.cons (.inr ⟨rfl, by simp⟩) .nil)),
    ?_, ?_⟩
  · simp only [List.map_cons, List.map_nil, Session.converse_line hfirst,
      Session.converse_line hspace, Session.converse_line hspaces]
    rfl
  · simp only [List.map_cons, List.map_nil, Session.converse_line hfirst,
      Session.converse_line hempty, Session.converse_line hgivenUp]
    rfl

end BlockScript
