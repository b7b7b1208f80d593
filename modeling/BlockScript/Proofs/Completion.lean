import BlockScript.Proofs.Concatenation
import BlockScript.Proofs.SourceLines
import BlockScript.Proofs.StackRefinement
import BlockScript.Session

/-!
# Sources that can be completed

A source that ends in a body is completed by a closing line for each loop that is open
(`LoopStack.outcome_append_closing`); what else is wrong with a source of finished lines stays
wrong whatever follows.  A session asks for more in the first case only, unless it is given up by
two line feeds (`awaitsMore_iff_completable`): that the loops are open is told from the end of the
message, and that a line is unfinished from its beginning.
-/

namespace BlockScript

variable {source : Text} {script : Script} {e : ParseError}

/-! ## Closing the open loops -/

namespace LoopStack

variable {s : LoopStack} {line : Line} {lines closing : List Line} {limit : Nat} {e : ParseError}

theorem length_loops_close (s : LoopStack) : s.close.loops.length = s.loops.length - 1 := by
  obtain ⟨loops, blocks⟩ := s
  cases loops with
  | nil => rfl
  | cons loop outer => rw [close, length_loops_add, List.length_cons, Nat.add_sub_cancel]

/-- What a step of the machine fails for is in the line. -/
theorem inLine_of_step (h : s.step line = .error e) : e.cause.InLine := by
  unfold step at h
  split at h
  · next cause ht =>
    cases h
    exact (isLexical_of_tokenize ht).inLine
  · cases h
  · split at h
    · split at h <;> cases h
      trivial
    · split at h
      · next cause hs =>
        cases h
        exact Statement.inLine_of_ofTokensWith (fun _ _ => Argument.inLine_of_ofToken) hs
      · cases h

/-- One closing line for each open loop ends the lines at top level. -/
theorem exists_outcome_closing (hs : s.loops.length ≤ limit)
    (h : closing.map Line.text = List.replicate s.loops.length ['\x7d']) :
    ∃ bs, s.outcome limit closing = some (.ok bs) := by
  induction closing generalizing s with
  | nil =>
    have hl : s.loops = [] := by simpa using h.symm
    exact ⟨s.blocks, by rw [outcome_nil hs, finish, if_pos hl]⟩
  | cons line closing ih =>
    obtain ⟨n, hn⟩ : ∃ n, s.loops.length = n + 1 := by
      refine Nat.exists_eq_succ_of_ne_zero fun hn => ?_
      rw [hn] at h
      cases h
    rw [hn, List.replicate_succ, List.map_cons] at h
    obtain ⟨htext, hrest⟩ := List.cons.inj h
    have hne : s.loops ≠ [] := List.ne_nil_of_length_eq_add_one hn
    obtain ⟨hstep, hl⟩ := step_of_closing hne (Block.closing?_of_text_eq htext)
    rw [if_pos rfl] at hstep
    rw [outcome_of_step_eq_ok hstep (hl ▸ hs)]
    have hlen : s.close.loops.length = n := by rw [length_loops_close, hn, Nat.add_sub_cancel]
    exact ih (by omega) (hlen ▸ hrest)

/-- If the machine fails at the end of the lines, as many closing lines as loops are open there,
which is as many as the lines that the failure is reported under, make it succeed. -/
theorem exists_outcome_append_closing (h : s.outcome limit lines = some (.error e))
    (hc : e.cause = .unclosedBody)
    (hclosing : closing.map Line.text = List.replicate e.trace.length ['\x7d']) :
    ∃ bs, s.outcome limit (lines ++ closing) = some (.ok bs) := by
  induction lines generalizing s with
  | nil =>
    have hs : s.loops.length ≤ limit := by
      refine Nat.le_of_not_lt fun hlt => ?_
      rw [outcome_of_length_loops hlt] at h
      cases h
    rw [outcome_nil hs, finish] at h
    split at h
    · cases h
    · cases h
      refine exists_outcome_closing hs ?_
      simpa [failure] using hclosing
  | cons line lines ih =>
    have hl : s.lineLevels line ≤ limit := by
      refine Nat.le_of_not_lt fun hlt => ?_
      rw [outcome_of_lt hlt] at h
      cases h
    cases hstep : s.step line with
    | error d =>
      rw [outcome_of_step_eq_error hstep hl] at h
      cases h
      exact absurd hc (inLine_of_step hstep).ne_unclosedBody
    | ok t =>
      rw [outcome_of_step_eq_ok hstep hl] at h
      rw [List.cons_append, outcome_of_step_eq_ok hstep hl]
      exact ih h

end LoopStack

/-- A script that ends in a body has blocks if as many closing lines follow as it is reported under
lines. -/
theorem Script.exists_blocks_append_closing {script : Script} {e : ParseError} {closing : List Line}
    (h : script.blocks = .error e) (hc : e.cause = .unclosedBody)
    (hclosing : closing.map Line.text = List.replicate e.trace.length ['\x7d']) :
    ∃ bs, Script.blocks ⟨script.lines ++ closing⟩ = .ok bs := by
  have hne : e.cause ≠ .nestingTooDeep := by rw [hc]; nofun
  have hrun := script.outcome_eq
  rw [h] at hrun
  simp only [if_neg hne] at hrun
  obtain ⟨bs, hbs⟩ := LoopStack.exists_outcome_append_closing hrun hc hclosing
  have hwhole := Script.outcome_eq ⟨script.lines ++ closing⟩
  rw [hbs] at hwhole
  cases hb : Script.blocks ⟨script.lines ++ closing⟩ with
  | ok cs => exact ⟨cs, rfl⟩
  | error d =>
    rw [hb] at hwhole
    by_cases hd : d.cause = .nestingTooDeep <;> simp [hd] at hwhole

/-! ## Lines of a trace -/

theorem ParseError.trace_atTopLevel_within_ne_nil (line : Int) (e : ParseError) :
    ((e.within line).atTopLevel line).trace ≠ [] := by
  rw [atTopLevel, cause_within]
  split
  · exact List.cons_ne_nil _ _
  · next hc =>
    rw [within, if_neg hc]
    exact List.cons_ne_nil _ _

namespace Block

theorem exists_within_of_readWith {depth : Nat} {body : List Line → Reading (List Block)}
    {line : Line} {lines : List Line} {e : ParseError}
    (h : (readWith depth body (line :: lines)).result = .error e) :
    ∃ d : ParseError, e = d.within line.number := by
  cases ht : tokenize line.text with
  | error cause =>
    rw [readWith_of_error ht] at h
    cases h
    exact ⟨⟨[], cause⟩, rfl⟩
  | ok tokens =>
    cases tokens with
    | nil =>
      rw [readWith_of_nil ht] at h
      cases h
    | cons first rest =>
      rw [readWith_of_cons ht] at h
      cases hs : (readStatement depth body (first :: rest) lines).result with
      | ok block => simp [Reading.map, Reading.within, hs, Except.mapError, Except.map] at h
      | error d =>
        simp only [Reading.after, Reading.map, Reading.within, hs, Except.mapError, Except.map] at h
        exact ⟨d, (Except.error.inj h).symm⟩

/-- What is wrong with some lines is reported under one of them at least. -/
theorem trace_ne_nil_of_readAll : ∀ {lines : List Line} {e : ParseError},
    (readAll lines).result = .error e → e.trace ≠ []
  | [], e, h => by
    rw [readAll_nil] at h
    cases h
  | line :: lines, e, h => by
    cases hr : (read (line :: lines)).result with
    | error d =>
      rw [readAll_of_error hr] at h
      obtain ⟨c, rfl⟩ := exists_within_of_readWith hr
      cases h
      exact ParseError.trace_atTopLevel_within_ne_nil line.number c
    | ok block =>
      obtain ⟨n, hn⟩ : ∃ n, read (line :: lines) = ⟨.ok block, n + 1⟩ :=
        exists_passed_of_readWith hr
      rw [readAll_of_ok hn] at h
      exact trace_ne_nil_of_readAll (map_eq_error_iff.1 h)
termination_by lines => lines.length
decreasing_by simp only [List.length_drop, List.length_cons]; omega

end Block

/-! ## Asking for more -/

namespace Script

/-- Only an unfinished line keeps a source from being cut into lines. -/
theorem exists_danglingContinuation {n : Nat} {pending : Option Line} {pieces : List Text}
    {cause : Cause} (h : joinContinued n pending pieces = .error cause) :
    ∃ line, cause = .danglingContinuation line := by
  induction pieces generalizing n pending with
  | nil =>
    cases pending with
    | none => cases h
    | some line => cases h; exact ⟨line.number, rfl⟩
  | cons p ps ih =>
    cases hp : Text.chop? '\\' p with
    | some front =>
      rw [joinContinued_of_some hp] at h
      exact ih h
    | none =>
      rw [joinContinued_of_none hp, map_eq_error_iff] at h
      exact ih h

end Script

/-- An unfinished line is always waited for. -/
theorem awaitsMore_of_ofSource (h : Script.ofSource source = .error e) :
    awaitsMore source e.message = true := by
  unfold Script.ofSource at h
  split at h
  · cases h
  · next cause hj =>
    cases h
    obtain ⟨line, rfl⟩ := Script.exists_danglingContinuation hj
    rw [awaitsMore, Bool.or_eq_true]
    left
    rw [List.isPrefixOf_iff_prefix]
    exact ⟨" on line ".toList ++ (Text.decimal line ++ ['.']), rfl⟩

/-- A mistake that is reported under a line is waited for if it is that a body is open, unless the
source ends in two line feeds. -/
theorem awaitsMore_eq_true_iff (h : e.trace ≠ []) :
    awaitsMore source e.message = true ↔ e.cause = .unclosedBody ∧ ¬ ['\n', '\n'] <:+ source := by
  obtain ⟨trace, cause⟩ := e
  cases trace with
  | nil => exact absurd rfl h
  | cons line trace =>
    have hprefix : "Unexpected end of script after \\".toList.isPrefixOf
        (ParseError.message ⟨line :: trace, cause⟩) = false := rfl
    rw [awaitsMore, hprefix, Bool.false_or, Bool.and_eq_true, Bool.not_eq_true', Bool.eq_false_iff,
      ne_eq, List.isSuffixOf_iff_suffix, List.isSuffixOf_iff_suffix,
      ParseError.isSuffix_message_iff]

/-- A program can be completed if it has finished lines and ends in a body. -/
theorem exists_parse_append (hs : Script.ofSource source = .ok script)
    (h : parse source = .error e) (hc : e.cause = .unclosedBody) :
    ∃ more bs, parse (source ++ '\n' :: more) = .ok bs := by
  rw [parse_eq_blocks hs] at h
  have hne : List.replicate e.trace.length ['\x7d'] ≠ [] := by
    rw [Ne, List.replicate_eq_nil_iff, List.length_eq_zero_iff]
    exact Block.trace_ne_nil_of_readAll h
  have hline : ∀ l ∈ List.replicate e.trace.length ['\x7d'], Text.OneLine l := by
    intro l hl
    rw [List.eq_of_mem_replicate hl]
    exact Text.oneLine_of_forall (by simp)
  obtain ⟨closing, hclosing, htext⟩ := Script.ofSource_unlines hne hline
  have hwhole := Script.ofSource_append hs (Text.unlines (List.replicate e.trace.length ['\x7d']))
  rw [hclosing] at hwhole
  have htext' : (closing.map (Line.renumber (· + source.height))).map Line.text =
      List.replicate e.trace.length ['\x7d'] := by
    rw [List.map_map, ← htext]
    rfl
  obtain ⟨bs, hbs⟩ := Script.exists_blocks_append_closing h hc htext'
  exact ⟨_, bs, (parse_eq_blocks hwhole).trans hbs⟩

/-- A session waits for more below a source that can be completed, unless it is given up. -/
theorem awaitsMore_of_parse_append {more : Text} {bs : List Block}
    (hn : ¬ ['\n', '\n'] <:+ source) (h : parse source = .error e)
    (hbs : parse (source ++ '\n' :: more) = .ok bs) : awaitsMore source e.message = true := by
  cases hs : Script.ofSource source with
  | error d =>
    rw [parse_eq_error hs] at h
    cases h
    exact awaitsMore_of_ofSource hs
  | ok script =>
    have ht : e.trace ≠ [] := by
      rw [parse_eq_blocks hs] at h
      exact Block.trace_ne_nil_of_readAll h
    obtain ⟨whole, hw, -⟩ := exists_ofSource_of_parse hbs
    refine (awaitsMore_eq_true_iff ht).2 ⟨Decidable.byContradiction fun hc => ?_, hn⟩
    rw [parse_append_of_error hs h hc hw] at hbs
    cases hbs

/-- Below a source of finished lines that has not been given up, a session asks for more exactly if
there is something that would make the whole a program. -/
theorem awaitsMore_iff_completable (source : Text) (script : Script) (e : ParseError)
    (hs : Script.ofSource source = .ok script) (hn : ¬ ['\n', '\n'] <:+ source)
    (h : parse source = .error e) :
    awaitsMore source e.message = true ↔
      ∃ more bs, parse (source ++ '\n' :: more) = .ok bs := by
  constructor
  · intro ha
    have ht : e.trace ≠ [] := by
      rw [parse_eq_blocks hs] at h
      exact Block.trace_ne_nil_of_readAll h
    exact exists_parse_append hs h ((awaitsMore_eq_true_iff ht).1 ha).1
  · rintro ⟨more, bs, hbs⟩
    exact awaitsMore_of_parse_append hn h hbs

/-- Two open loops can be closed; nothing closes a stray parenthesis in a loop. -/
theorem awaitsMore_iff_completable_loops :
    (∃ more bs, parse ("while \x7d\nfor x \x7d".toList ++ '\n' :: more) = .ok bs) ∧
      ¬ ∃ more bs, parse ("while \x7d\n)".toList ++ '\n' :: more) = .ok bs := by
  have hs : Script.ofSource "while \x7d\nfor x \x7d".toList =
      .ok ⟨[⟨"while \x7d".toList, 1⟩, ⟨"for x \x7d".toList, 2⟩]⟩ := by cbv
  have he : parse "while \x7d\nfor x \x7d".toList = .error ⟨[1, 2], .unclosedBody⟩ := by cbv
  have hs' : Script.ofSource "while \x7d\n)".toList =
      .ok ⟨[⟨"while \x7d".toList, 1⟩, ⟨[')'], 2⟩]⟩ := by cbv
  have he' : parse "while \x7d\n)".toList = .error ⟨[1, 2], .strayParenthesis⟩ := by cbv
  refine ⟨(awaitsMore_iff_completable _ _ _ hs (by decide) he).1 ?_, fun hmore => ?_⟩
  · exact (awaitsMore_eq_true_iff (by decide)).2 ⟨rfl, by decide⟩
  · have ha := (awaitsMore_iff_completable _ _ _ hs' (by decide) he').2 hmore
    exact absurd ((awaitsMore_eq_true_iff (by decide)).1 ha).1 (by decide)

end BlockScript
