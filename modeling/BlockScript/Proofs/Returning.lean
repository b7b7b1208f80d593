import BlockScript.Proofs.Entering
import BlockScript.Proofs.LogicalLines

/-!
# Back to a fresh start

A line that is entered is kept with those that are pending, if they all wait for more, or leaves
nothing pending (`Session.enter_cases`).  So whatever has been entered, the pending lines wait
(`Session.waits_of_enterAll`): they end in an unfinished line or in a body.  An empty line finishes
the line, and behind it another one gives up the body, since the source then ends in two line feeds
(`Session.not_waits_append_nil_nil`).  So two empty lines lead back to a fresh start from wherever a
session has come to (`two_empty_lines_return`).
-/

namespace BlockScript

theorem Text.unlines_append_nil_nil {lines : List Text} (h : lines ≠ []) :
    unlines (lines ++ [[]] ++ [[]]) = unlines lines ++ ['\n'] ++ ['\n'] := by
  have hnil : ∀ {ls : List Text}, ls ≠ [] → unlines (ls ++ [[]]) = unlines ls ++ ['\n'] :=
    fun hls => unlines_append hls (List.cons_ne_nil _ _)
  rw [hnil (by simp), hnil h]

/-! ## Finished lines -/

namespace Script

theorem physicalLines_append (source below : Text) :
    physicalLines (source ++ '\n' :: below) = physicalLines source ++ physicalLines below := by
  rw [physicalLines, Text.lines_append, List.map_append]
  rfl

/-- A source that ends in a line feed has no unfinished line. -/
theorem exists_ofSource_concat (source : Text) :
    ∃ script, ofSource (source ++ ['\n']) = .ok script := by
  cases h : ofSource (source ++ ['\n']) with
  | ok script => exact ⟨script, rfl⟩
  | error e =>
    obtain ⟨done, run, hlines, hrun, -⟩ := endsUnfinished_of_ofSource h
    obtain ⟨last, hlast, hcontinued⟩ := hrun.continued_getLast
    rw [← hlines, physicalLines_append] at hlast
    have hnil : physicalLines [] = [[]] := rfl
    rw [hnil, List.getLast?_concat] at hlast
    cases hlast
    cases hcontinued

end Script

namespace Session

variable {s t : Session} {line : Text} {lines pending : List Text} {xs : List Exchange}

/-! ## What lines wait for -/

/-- Lines that are refused wait exactly if they end in an unfinished line, or in a body and not in
two line feeds. -/
theorem waits_iff {e : ParseError} (h : parse (Text.unlines lines) = .error e) :
    Waits lines ↔ (∃ n, e = ⟨[], .danglingContinuation n⟩) ∨
      e.cause = .unclosedBody ∧ ¬ ['\n', '\n'] <:+ Text.unlines lines := by
  have hawaits : Waits lines ↔ awaitsMore (Text.unlines lines) e.message = true := by
    refine ⟨?_, fun ha => ⟨e, h, ha⟩⟩
    rintro ⟨d, hd, ha⟩
    rw [h] at hd
    cases hd
    exact ha
  rw [hawaits]
  cases hs : Script.ofSource (Text.unlines lines) with
  | error d =>
    rw [parse_eq_error hs] at h
    cases h
    obtain ⟨done, run, -, -, hd⟩ := Script.endsUnfinished_of_ofSource hs
    exact iff_of_true (awaitsMore_of_ofSource hs) (.inl ⟨_, hd⟩)
  | ok script =>
    rw [parse_eq_blocks hs] at h
    have htrace : e.trace ≠ [] := Block.trace_ne_nil_of_readAll h
    have hdangling : ¬ ∃ n, e = ⟨[], .danglingContinuation n⟩ := by
      rintro ⟨n, rfl⟩
      exact htrace rfl
    rw [awaitsMore_eq_true_iff htrace, or_iff_right hdangling]

/-- Behind two empty lines nothing waits. -/
theorem not_waits_append_nil_nil (h : pending ≠ []) : ¬ Waits (pending ++ [[]] ++ [[]]) := by
  intro hw
  have hsource := Text.unlines_append_nil_nil h
  obtain ⟨e, he, -⟩ := id hw
  rcases (waits_iff he).1 hw with ⟨n, rfl⟩ | ⟨-, hn⟩
  · obtain ⟨script, hs⟩ := Script.exists_ofSource_concat (Text.unlines pending ++ ['\n'])
    rw [hsource, parse_eq_blocks hs] at he
    exact Block.trace_ne_nil_of_readAll he rfl
  · refine hn ⟨Text.unlines pending, ?_⟩
    rw [hsource, List.append_assoc]
    rfl

/-! ## What a line does to a session -/

/-- A line that is submitted leads to a fresh start or is kept, and then all that is kept waits. -/
theorem submit_cases {shown : Text} {next? : Option Session}
    (h : s.submit line = .ok (shown, next?)) :
    next? = some s.fresh ∨ next? = some (s.keep line) ∧ Waits (s.pending ++ [line]) := by
  by_cases hw : Waits (s.pending ++ [line])
  · rw [submit_of_waits hw] at h
    cases h
    exact .inr ⟨rfl, hw⟩
  · left
    cases hp : parse (Text.unlines (s.pending ++ [line])) with
    | ok bs =>
      rw [submit_of_ok hp] at h
      obtain ⟨text, -, hx⟩ := exists_ok_of_map_eq_ok h
      cases hx
      rfl
    | error e =>
      rw [submit_of_not_waits hp hw] at h
      cases h
      rfl

/-- Behind a line that is entered nothing is pending, or what was pending and the line, which then
wait; and the format is still the same. -/
theorem enter_cases {shown : Text} (h : s.enter line = .ok (shown, some t)) :
    (t.pending = [] ∨ t = s.keep line ∧ Waits t.pending) ∧ t.format = s.format := by
  have hsubmit : s.submit line = .ok (shown, some t) →
      (t.pending = [] ∨ t = s.keep line ∧ Waits t.pending) ∧ t.format = s.format := by
    intro hs
    rcases submit_cases hs with ht | ⟨ht, hw⟩
    · cases ht
      exact ⟨.inl rfl, rfl⟩
    · cases ht
      exact ⟨.inr ⟨rfl, hw⟩, rfl⟩
  unfold enter at h
  dsimp only at h
  split at h
  · exact hsubmit h
  · next hs =>
    have hpending : s.pending = [] := by simpa using hs
    split at h
    · cases h
    · split at h
      · cases h
        exact ⟨.inl hpending, rfl⟩
      · split at h
        · cases h
          exact ⟨.inl hpending, rfl⟩
        · exact hsubmit h

/-- What is pending has been pending before or has been entered since. -/
theorem pending_isSuffix_of_enter {shown : Text} (h : s.enter line = .ok (shown, some t)) :
    t.pending <:+ s.pending ++ [line] := by
  rcases (enter_cases h).1 with ht | ⟨rfl, -⟩
  · rw [ht]
    exact List.nil_suffix
  · exact List.suffix_refl _

theorem pending_isSuffix_of_enterAll (h : s.enterAll lines = some (xs, t)) :
    t.pending <:+ s.pending ++ lines := by
  induction lines generalizing s xs with
  | nil =>
    cases h
    rw [List.append_nil]
  | cons line lines ih =>
    obtain ⟨shown, next, ys, hn, hrest, -⟩ := enterAll_cons_eq_some_iff.1 h
    rw [List.append_cons]
    exact (ih hrest).trans (List.suffix_append_self_iff.2 (pending_isSuffix_of_enter hn))

/-- What is pending waits, whatever has been entered. -/
theorem waits_of_enterAll (hs : s.pending = [] ∨ Waits s.pending)
    (h : s.enterAll lines = some (xs, t)) :
    (t.pending = [] ∨ Waits t.pending) ∧ t.format = s.format := by
  induction lines generalizing s xs with
  | nil =>
    cases h
    exact ⟨hs, rfl⟩
  | cons line lines ih =>
    obtain ⟨shown, next, ys, hn, hrest, -⟩ := enterAll_cons_eq_some_iff.1 h
    obtain ⟨hnext, hformat⟩ := enter_cases hn
    rw [← hformat]
    exact ih (hnext.imp_right And.right) hrest

/-! ## Empty lines -/

/-- An empty line leads to a fresh start or is kept, if anything is pending, and then it waits. -/
theorem enter_nil_cases {shown : Text} {next? : Option Session}
    (h : s.enter [] = .ok (shown, next?)) :
    next? = some s.fresh ∨
      next? = some (s.keep []) ∧ s.pending ≠ [] ∧ Waits (s.pending ++ [[]]) := by
  by_cases hs : s.pending = []
  · rw [enter_of_trim_eq_nil hs rfl] at h
    cases h
    left
    rw [fresh, ← hs]
  · rw [enter_of_pending hs] at h
    exact (submit_cases h).imp_right fun ⟨hk, hw⟩ => ⟨hk, hs, hw⟩

/-- Behind two empty lines a session starts afresh. -/
theorem eq_fresh_of_enter_nil_nil {u : Session} {shown shown' : Text}
    (h : s.enter [] = .ok (shown, some t)) (h' : t.enter [] = .ok (shown', some u)) :
    u = s.fresh := by
  rcases enter_nil_cases h with ht | ⟨ht, hp, -⟩
  · cases ht
    rw [enter_of_trim_eq_nil rfl rfl] at h'
    cases h'
    rfl
  · cases ht
    rcases enter_nil_cases h' with hu | ⟨-, -, hw⟩
    · cases hu
      rfl
    · exact absurd hw (not_waits_append_nil_nil hp)

/-! ## Formats -/

theorem exists_display (hf : Format.ofName? s.format ≠ none) (bs : List Block) :
    ∃ shown, s.display bs = .ok shown := by
  by_cases hb : bs = []
  · exact ⟨[], hb ▸ s.display_nil⟩
  · obtain ⟨format, hformat⟩ := Option.ne_none_iff_exists'.1 hf
    have hr : renderAs s.format bs = .ok (format.render bs) := by rw [renderAs, hformat]
    exact ⟨_, display_of_ne_nil hb hr⟩

theorem exists_submit (hf : Format.ofName? s.format ≠ none) (line : Text) :
    ∃ shown next?, s.submit line = .ok (shown, next?) := by
  cases hp : parse (Text.unlines (s.pending ++ [line])) with
  | ok bs =>
    obtain ⟨shown, hs⟩ := exists_display hf bs
    rw [submit_of_ok hp, hs]
    exact ⟨_, _, rfl⟩
  | error e =>
    by_cases hw : Waits (s.pending ++ [line])
    · exact ⟨_, _, submit_of_waits hw⟩
    · exact ⟨_, _, submit_of_not_waits hp hw⟩

/-- An empty line does not end a session, whose format is one of those that there are. -/
theorem exists_enter_nil (hf : Format.ofName? s.format ≠ none) :
    ∃ shown t, s.enter [] = .ok (shown, some t) := by
  by_cases hs : s.pending = []
  · exact ⟨[], s, enter_of_trim_eq_nil hs rfl⟩
  · obtain ⟨shown, next?, h⟩ := exists_submit hf []
    rw [enter_of_pending hs, h]
    rcases submit_cases h with rfl | ⟨rfl, -⟩
    · exact ⟨shown, s.fresh, rfl⟩
    · exact ⟨shown, s.keep [], rfl⟩

end Session

/-- What is pending in a session, whatever has been entered, is refused because its last line is
unfinished or because it ends in a body.  Two empty lines lead back to a fresh start; only a
session whose format there is not can break off before. -/
theorem two_empty_lines_return (format : Text) (verbose : Bool) (lines : List Text)
    (xs : List Exchange) (s : Session)
    (h : (Session.start format verbose).enterAll lines = some (xs, s)) :
    (s.pending ≠ [] → ∃ e, parse (Text.unlines s.pending) = .error e ∧
        ((∃ n, e = ⟨[], .danglingContinuation n⟩) ∨ "Missing \x7d.".toList <:+ e.message)) ∧
      (∀ ys t, s.enterAll [[], []] = some (ys, t) → t = { s with pending := [] }) ∧
      (Format.ofName? format ≠ none →
        ∃ ys, s.enterAll [[], []] = some (ys, { s with pending := [] })) := by
  obtain ⟨hwaits, hformat⟩ := Session.waits_of_enterAll (.inl rfl) h
  have hfresh : ∀ ys t, s.enterAll [[], []] = some (ys, t) → t = s.fresh := by
    intro ys t ht
    obtain ⟨_, u, _, hu, hrest, -⟩ := Session.enterAll_cons_eq_some_iff.1 ht
    obtain ⟨_, v, _, hv, hnil, -⟩ := Session.enterAll_cons_eq_some_iff.1 hrest
    cases hnil
    exact Session.eq_fresh_of_enter_nil_nil hu hv
  refine ⟨fun hp => ?_, hfresh, fun hf => ?_⟩
  · have hw : Session.Waits s.pending := hwaits.resolve_left hp
    obtain ⟨e, he, -⟩ := id hw
    refine ⟨e, he, ((Session.waits_iff he).1 hw).imp_right ?_⟩
    exact fun ⟨hc, _⟩ => ParseError.isSuffix_message_iff.2 hc
  · have hs : Format.ofName? s.format ≠ none := hformat ▸ hf
    obtain ⟨_, u, hu⟩ := Session.exists_enter_nil hs
    have hu' : Format.ofName? u.format ≠ none := (Session.enter_cases hu).2 ▸ hs
    obtain ⟨_, v, hv⟩ := Session.exists_enter_nil hu'
    have hall : s.enterAll [[], []] = some (_, v) :=
      Session.enterAll_cons_eq_some_iff.2 ⟨_, u, _, hu,
        Session.enterAll_cons_eq_some_iff.2 ⟨_, v, [], hv, rfl, rfl⟩, rfl⟩
    exact ⟨_, hfresh _ v hall ▸ hall⟩

/-- A continued line that opens a loop in the body of another: the first empty line finishes it and
the second gives up both bodies. -/
theorem two_empty_lines_return_openHeader :
    (∃ e, parse "while \x7d\nfor x \x7d\\".toList = .error e ∧
        ((∃ n, e = ⟨[], .danglingContinuation n⟩) ∨ "Missing \x7d.".toList <:+ e.message)) ∧
      ∃ ys, (Session.mk "tree".toList false ["while \x7d".toList, "for x \x7d\\".toList]).enterAll
          [[], []] = some (ys, ⟨"tree".toList, false, []⟩) := by
  have hfirst : (Session.start "tree".toList false).enter "while \x7d".toList =
      .ok ([], some ⟨"tree".toList, false, ["while \x7d".toList]⟩) :=
    (Session.enter_of_not_mem rfl (by decide) (by decide)).trans
      (Session.submit_of_waits ⟨⟨[1], .unclosedBody⟩, by cbv, by decide⟩)
  have hsecond : (Session.mk "tree".toList false ["while \x7d".toList]).enter
      "for x \x7d\\".toList =
        .ok ([], some ⟨"tree".toList, false, ["while \x7d".toList, "for x \x7d\\".toList]⟩) :=
    (Session.enter_of_pending (by decide)).trans
      (Session.submit_of_waits ⟨⟨[], .danglingContinuation 2⟩, by cbv, by decide⟩)
  have hboth : (Session.start "tree".toList false).enterAll
      ["while \x7d".toList, "for x \x7d\\".toList] =
        some (_, ⟨"tree".toList, false, ["while \x7d".toList, "for x \x7d\\".toList]⟩) :=
    Session.enterAll_cons_eq_some_iff.2 ⟨_, _, _, hfirst,
      Session.enterAll_cons_eq_some_iff.2 ⟨_, _, [], hsecond, rfl, rfl⟩, rfl⟩
  obtain ⟨herror, -, hreturn⟩ := two_empty_lines_return _ _ _ _ _ hboth
  exact ⟨herror (by decide), hreturn (by decide)⟩

end BlockScript
