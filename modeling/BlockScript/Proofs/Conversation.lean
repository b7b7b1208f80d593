import BlockScript.Proofs.Entering
import BlockScript.Proofs.ListingLines

/-!
# A program entered line by line

The lines of a program are entered into a session one after the other.  The session waits until
those it has make up a program of their own, shows the blocks of this and starts afresh.  Since it
waits as long as the lines can be completed, it never refuses a line of the program; and since
programs one below the other are one program, what it has shown in the end is the whole
(`exists_chunks`, `converse_lines`).
-/

namespace BlockScript

/-! ## Chunks -/

/-- The exchanges in which lines are entered, the first of them at the given prompt, when the last
is answered by `answer` and the others by nothing. -/
def dialogue (answer : Text) : (prompt : Text) → List Text → List Exchange
  | _, [] => []
  | prompt, [_] => [⟨prompt, answer⟩]
  | prompt, _ :: line :: lines => ⟨prompt, []⟩ :: dialogue answer "...> ".toList (line :: lines)

/-- Lines that are entered one after the other until they make up a program, and its blocks. -/
structure Chunk where
  lines : List Text
  blocks : List Block
  deriving DecidableEq, Repr

/-- The exchanges in which the lines of a chunk are entered. -/
def Chunk.exchanges (c : Chunk) : List Exchange :=
  dialogue (treeOutput c.blocks) "pragmash> ".toList c.lines

namespace Session

variable {pending lines : List Text} {line : Text} {bs : List Block}

/-- From a line that is submitted on, lines are entered one by one until they make up a program
with the pending ones, if none ends before the last of them. -/
theorem enterAll_of_submit
    (hs : (pendingTree pending).enter line = (pendingTree pending).submit line)
    (hw : ∀ front, front <+: line :: lines → front ≠ [] → front ≠ line :: lines →
      Waits (pending ++ front))
    (h : parse (Text.unlines (pending ++ line :: lines)) = .ok bs) :
    (pendingTree pending).enterAll (line :: lines) =
      some (dialogue (treeOutput bs) (pendingTree pending).prompt (line :: lines),
        pendingTree []) := by
  induction lines generalizing pending line with
  | nil =>
    rw [submit_of_ok h, display_pendingTree] at hs
    rw [enterAll_cons hs]
    rfl
  | cons next lines ih =>
    have hfirst : Waits (pending ++ [line]) :=
      hw [line] ⟨next :: lines, rfl⟩ (List.cons_ne_nil _ _) (by simp)
    have hne : pending ++ [line] ≠ [] := by simp
    have hrest : (pendingTree (pending ++ [line])).enterAll (next :: lines) =
        some (dialogue (treeOutput bs) (pendingTree (pending ++ [line])).prompt (next :: lines),
          pendingTree []) := by
      refine ih (enter_of_pending hne) (fun front hf hn hl => ?_) (by simpa using h)
      have hfront := hw (line :: front) (List.cons_prefix_cons.2 ⟨rfl, hf⟩)
        (List.cons_ne_nil _ _) (fun e => hl (List.cons.inj e).2)
      rwa [List.append_assoc, List.singleton_append]
    rw [submit_of_waits hfirst] at hs
    have hkeep : (pendingTree pending).keep line = pendingTree (pending ++ [line]) := rfl
    have hprompt : (pendingTree (pending ++ [line])).prompt = "...> ".toList :=
      prompt_of_ne_nil hne
    rw [enterAll_cons hs, hkeep, hrest, hprompt]
    rfl

/-- The lines of a program are entered one by one if no program ends before the last of them. -/
theorem enterAll_chunk {c : Chunk} {first : Text} {rest : List Text}
    (hl : c.lines = first :: rest) (hc : parse (Text.unlines c.lines) = .ok c.blocks)
    (hw : ∀ front, front <+: c.lines → front ≠ [] → front ≠ c.lines → Waits front)
    (hword : first.trim ∉ commandWords) (hblank : first.trim = [] → rest = [] ∧ c.blocks = []) :
    (pendingTree []).enterAll c.lines = some (c.exchanges, pendingTree []) := by
  rw [hl] at hc hw
  rw [Chunk.exchanges, hl]
  by_cases ht : first.trim = []
  · obtain ⟨hrest, hblocks⟩ := hblank ht
    rw [hrest, hblocks, enterAll_cons (enter_of_trim_eq_nil rfl ht)]
    rfl
  · exact enterAll_of_submit (enter_of_not_mem rfl hword ht) hw hc

end Session

/-! ## Whole programs -/

/-- Lines that a session takes for lines of a program: none breaks, none is a word of the session's
own, no two are empty one after the other, and those that look empty are. -/
structure PlainLines (lines : List Text) : Prop where
  noLineFeed : ∀ l ∈ lines, '\n' ∉ l
  noCommandWord : ∀ l ∈ lines, l.trim ∉ Session.commandWords
  noDoubleBlank : ¬ [[], []] <:+: lines
  blank : ∀ l ∈ lines, (∀ c ∈ l, isWhitespace c) → ∀ c ∈ l, isBlank c

/-- Two line feeds at the end are two empty lines. -/
theorem Text.blank_blank_of_isSuffix_unlines {ps : List Text} (hne : ps ≠ [])
    (hp : ∀ p ∈ ps, '\n' ∉ p) (h : ['\n', '\n'] <:+ unlines ps) : [[], []] <:+: ps := by
  obtain ⟨front, h⟩ := h
  have hps : lines (unlines ps) = ps := pieces_join hne hp
  rw [← h, lines_append] at hps
  exact ⟨lines front, [], by rw [List.append_nil, ← hps]; rfl⟩

namespace PlainLines

variable {lines front back : List Text} {bs : List Block}

theorem of_isInfix (h : PlainLines lines) (hi : front <:+: lines) : PlainLines front where
  noLineFeed l hl := h.noLineFeed l (hi.subset hl)
  noCommandWord l hl := h.noCommandWord l (hi.subset hl)
  noDoubleBlank hd := h.noDoubleBlank (hd.trans hi)
  blank l hl := h.blank l (hi.subset hl)

/-- A session goes on asking after the first lines of a program that are none themselves. -/
theorem waits (h : PlainLines front) (hf : front ≠ []) (hb : back ≠ [])
    (hp : parse (Text.unlines (front ++ back)) = .ok bs)
    (hn : ∀ cs, parse (Text.unlines front) ≠ .ok cs) : Session.Waits front := by
  rw [Text.unlines_append hf hb] at hp
  have hlf : ¬ ['\n', '\n'] <:+ Text.unlines front := fun hs =>
    h.noDoubleBlank (Text.blank_blank_of_isSuffix_unlines hf h.noLineFeed hs)
  cases he : parse (Text.unlines front) with
  | ok cs => exact absurd he (hn cs)
  | error e => exact ⟨e, he, awaitsMore_of_parse_append hlf he hp⟩

/-- A program in front of other lines leaves them a program. -/
theorem exists_parse_back (hf : front ≠ []) (hb : back ≠ []) {cs : List Block}
    (hp : parse (Text.unlines (front ++ back)) = .ok bs)
    (hc : parse (Text.unlines front) = .ok cs) :
    ∃ ds, parse (Text.unlines back) = .ok ds ∧ bs = cs ++ ds := by
  rw [Text.unlines_append hf hb, parse_append_of_ok hc] at hp
  cases hd : parse (Text.unlines back) with
  | error e => rw [hd] at hp; cases hp
  | ok ds =>
    rw [hd] at hp
    exact ⟨ds, rfl, (Except.ok.inj hp).symm⟩

end PlainLines

/-- Among the beginnings of a list with a property there is a shortest. -/
theorem exists_shortest_prefix {α : Type} {P : List α → Prop} (l : List α) (hl : P l)
    (hne : l ≠ []) :
    ∃ front back, l = front ++ back ∧ front ≠ [] ∧ P front ∧
      ∀ r, r <+: front → r ≠ [] → r ≠ front → ¬ P r := by
  by_cases h : ∃ r, r <+: l ∧ r ≠ [] ∧ r ≠ l ∧ P r
  · obtain ⟨r, ⟨back, rfl⟩, hr, hrl, hp⟩ := h
    have hlt : r.length < (r ++ back).length := by
      cases back with
      | nil => exact absurd (List.append_nil r).symm hrl
      | cons b bs => rw [List.length_append, List.length_cons]; omega
    obtain ⟨front, mid, rfl, hf⟩ := exists_shortest_prefix r hp hr
    exact ⟨front, mid ++ back, List.append_assoc _ _ _, hf⟩
  · exact ⟨l, [], (List.append_nil l).symm, hne, hl, fun r hr hn hrl hp => h ⟨r, hr, hn, hrl, hp⟩⟩
termination_by l.length

/-- A chunk is entered as far as the lines begin with a program, the shortest one. -/
theorem exists_first_chunk {lines : List Text} (h : PlainLines lines) (hne : lines ≠ [])
    {bs : List Block} (hp : parse (Text.unlines lines) = .ok bs) :
    ∃ (c : Chunk) (back : List Text), lines = c.lines ++ back ∧ c.lines ≠ [] ∧
      parse (Text.unlines c.lines) = .ok c.blocks ∧
      (Session.pendingTree []).enterAll c.lines = some (c.exchanges, Session.pendingTree []) := by
  obtain ⟨front, back, rfl, hf, ⟨cs, hcs⟩, hshort⟩ :=
    exists_shortest_prefix (P := fun ls => ∃ cs, parse (Text.unlines ls) = .ok cs) lines
      ⟨bs, hp⟩ hne
  obtain ⟨first, rest, rfl⟩ := List.exists_cons_of_ne_nil hf
  have hfront : PlainLines (first :: rest) := h.of_isInfix (List.prefix_append _ _).isInfix
  have hwait : ∀ r, r <+: first :: rest → r ≠ [] → r ≠ first :: rest → Session.Waits r := by
    rintro r ⟨mid, hmid⟩ hn hr
    have hm : mid ++ back ≠ [] := by
      intro hm
      rw [(List.append_eq_nil_iff.1 hm).1, List.append_nil] at hmid
      exact hr hmid
    rw [← hmid, List.append_assoc] at hp
    exact (hfront.of_isInfix ⟨[], mid, hmid⟩).waits hn hm hp fun ds hds =>
      hshort r ⟨mid, hmid⟩ hn hr ⟨ds, hds⟩
  have hblank : first.trim = [] → rest = [] ∧ cs = [] := by
    intro ht
    have hb := hfront.blank first List.mem_cons_self (Text.isWhitespace_of_trim_eq_nil ht)
    have hfirst : parse (Text.unlines [first]) = .ok [] :=
      parse_of_forall_isBlank hb (hfront.noLineFeed first List.mem_cons_self)
    have hrest : rest = [] := Decidable.byContradiction fun hrest =>
      hshort [first] ⟨rest, rfl⟩ (List.cons_ne_nil _ _) (by simpa using Ne.symm hrest) ⟨[], hfirst⟩
    rw [hrest, hfirst] at hcs
    exact ⟨hrest, (Except.ok.inj hcs).symm⟩
  have hword := hfront.noCommandWord first List.mem_cons_self
  exact ⟨⟨first :: rest, cs⟩, back, rfl, hf, hcs,
    Session.enterAll_chunk rfl hcs hwait hword hblank⟩

/-- The lines of a program are entered chunk by chunk. -/
theorem exists_chunks (lines : List Text) (h : PlainLines lines) (hne : lines ≠ [])
    {bs : List Block} (hp : parse (Text.unlines lines) = .ok bs) :
    ∃ chunks : List Chunk,
      (∀ c ∈ chunks, c.lines ≠ [] ∧ parse (Text.unlines c.lines) = .ok c.blocks) ∧
        chunks.flatMap Chunk.lines = lines ∧ chunks.flatMap Chunk.blocks = bs ∧
        (Session.pendingTree []).enterAll lines =
          some (chunks.flatMap Chunk.exchanges, Session.pendingTree []) := by
  obtain ⟨c, back, hlines, hc, hcs, henter⟩ := exists_first_chunk h hne hp
  rw [hlines] at hp ⊢
  by_cases hback : back = []
  · rw [hback, List.append_nil] at hp ⊢
    rw [hcs] at hp
    refine ⟨[c], fun d hd => ?_, List.flatMap_singleton _ _, ?_, ?_⟩
    · rw [List.mem_singleton.1 hd]
      exact ⟨hc, hcs⟩
    · rw [List.flatMap_singleton]
      exact Except.ok.inj hp
    · rw [List.flatMap_singleton]
      exact henter
  · obtain ⟨ds, hds, rfl⟩ := PlainLines.exists_parse_back hc hback hp hcs
    have hplain : PlainLines back := h.of_isInfix (hlines ▸ (List.suffix_append _ _).isInfix)
    obtain ⟨chunks, hprogram, hflat, hblocks, hrest⟩ := exists_chunks back hplain hback hds
    refine ⟨c :: chunks, fun d hd => ?_, ?_, ?_, ?_⟩
    · rcases List.mem_cons.1 hd with rfl | hd
      · exact ⟨hc, hcs⟩
      · exact hprogram d hd
    · rw [List.flatMap_cons, hflat]
    · rw [List.flatMap_cons, hblocks]
    · rw [List.flatMap_cons]
      exact Session.enterAll_append henter hrest
termination_by lines.length
decreasing_by
  rw [hlines, List.length_append]
  have := List.length_pos_iff.2 hc
  omega

/-! ## What is shown -/

/-- What is shown for blocks has no line that begins like the report of a mistake. -/
theorem not_isPrefix_lines_treeOutput (bs : List Block) :
    ∀ l ∈ Text.lines (treeOutput bs), ¬ "[error]".toList <+: l := by
  intro l hl
  have hnil : ¬ "[error]".toList <+: [] := by decide
  by_cases hb : bs = []
  · rw [treeOutput, if_pos hb] at hl
    rw [List.mem_singleton.1 hl]
    exact hnil
  · rw [treeOutput, if_neg hb, Text.lines_append, Block.lines_tree hb] at hl
    rcases List.mem_append.1 hl with hl | hl
    · obtain ⟨n, b, rfl⟩ := Block.exists_eq_listingLine_all bs 0 l hl
      exact Block.not_isPrefix_listingLine (by decide) (by decide) n b
    · rw [List.mem_singleton.1 hl]
      exact hnil

theorem shown_of_mem_dialogue {answer prompt : Text} {lines : List Text} {x : Exchange}
    (h : x ∈ dialogue answer prompt lines) : x.shown = answer ∨ x.shown = [] := by
  fun_induction dialogue answer prompt lines with
  | case1 => cases h
  | case2 => rw [List.mem_singleton.1 h]; exact .inl rfl
  | case3 prompt first line lines ih =>
    rcases List.mem_cons.1 h with rfl | h
    · exact .inr rfl
    · exact ih h

theorem Chunk.not_isPrefix_lines_shown {c : Chunk} {x : Exchange} (h : x ∈ c.exchanges) :
    ∀ l ∈ Text.lines x.shown, ¬ "[error]".toList <+: l := by
  rcases shown_of_mem_dialogue h with hx | hx <;> rw [hx]
  · exact not_isPrefix_lines_treeOutput c.blocks
  · exact not_isPrefix_lines_treeOutput []

/-- The lines of a program, entered into a session one after the other, are entered in chunks that
are programs themselves.  Nothing is shown for a chunk but its blocks, behind its last line; the
blocks of all chunks are those of the program; and at the end of the lines nothing is pending. -/
theorem converse_lines (source : Text) (bs : List Block) (h : parse source = .ok bs)
    (hdouble : ¬ [[], []] <:+: Text.lines source)
    (hword : ∀ l ∈ Text.lines source, l.trim ∉ Session.commandWords)
    (hblank : ∀ l ∈ Text.lines source, (∀ c ∈ l, isWhitespace c) → ∀ c ∈ l, isBlank c) :
    ∃ chunks : List Chunk,
      (∀ c ∈ chunks, c.lines ≠ [] ∧ parse (Text.unlines c.lines) = .ok c.blocks) ∧
        chunks.flatMap Chunk.lines = Text.lines source ∧
        chunks.flatMap Chunk.blocks = bs ∧
        (Session.start "tree".toList false).enterAll (Text.lines source) =
          some (chunks.flatMap Chunk.exchanges, Session.start "tree".toList false) ∧
        (Session.start "tree".toList false).converse ((Text.lines source).map .line) =
          (chunks.flatMap Chunk.exchanges ++ [⟨"pragmash> ".toList, Session.farewell⟩], none) ∧
        ∀ x ∈ chunks.flatMap Chunk.exchanges ++ [⟨"pragmash> ".toList, Session.farewell⟩],
          ∀ l ∈ Text.lines x.shown, ¬ "[error]".toList <+: l := by
  have hplain : PlainLines (Text.lines source) :=
    ⟨fun l hl => Text.not_mem_of_mem_pieces hl, hword, hdouble, hblank⟩
  have hne : Text.lines source ≠ [] := Text.pieces_ne_nil '\n' source
  rw [← Text.unlines_lines source] at h
  obtain ⟨chunks, hprogram, hlines, hblocks, henter⟩ := exists_chunks _ hplain hne h
  refine ⟨chunks, hprogram, hlines, hblocks, henter, ?_, fun x hx => ?_⟩
  · have hconverse := Session.converse_of_enterAll henter []
    rw [List.append_nil] at hconverse
    exact hconverse
  · rcases List.mem_append.1 hx with hx | hx
    · obtain ⟨c, -, hx⟩ := List.mem_flatMap.1 hx
      exact c.not_isPrefix_lines_shown hx
    · rw [List.mem_singleton.1 hx]
      decide

/-- A loop with an empty line and a continued one in it, a line of a blank, and a command. -/
theorem converse_lines_loop :
    ∃ chunks : List Chunk,
      chunks.flatMap Chunk.blocks =
          [.whileLoop [] [.command ⟨.literal "ab".toList, []⟩], .command ⟨.literal ['c'], []⟩] ∧
        (Session.start "tree".toList false).converse
            ((Text.lines "while \x7d\n\na\\\nb\n\x7d\n\t\nc".toList).map .line) =
          (chunks.flatMap Chunk.exchanges ++ [⟨"pragmash> ".toList, Session.farewell⟩], none) := by
  have h : parse "while \x7d\n\na\\\nb\n\x7d\n\t\nc".toList =
      .ok [.whileLoop [] [.command ⟨.literal "ab".toList, []⟩],
        .command ⟨.literal ['c'], []⟩] := by
    cbv
  have hall : (Text.lines "while \x7d\n\na\\\nb\n\x7d\n\t\nc".toList).all
      (fun l => !l.all isWhitespace || l.all isBlank) = true := by
    decide +kernel
  obtain ⟨chunks, -, -, hblocks, -, hconverse, -⟩ :=
    converse_lines _ _ h (by decide +kernel) (by decide +kernel) fun l hl hw => by
      have hline := List.all_eq_true.1 hall l hl
      rw [List.all_eq_true.2 hw, Bool.not_true, Bool.false_or] at hline
      exact List.all_eq_true.1 hline
  exact ⟨chunks, hblocks, hconverse⟩

end BlockScript
