import BlockScript.Proofs.Completion

/-!
# Lines entered into a session

`Session.enterAll` enters lines one after the other, without an end of the input, and leads to a
session again.  A session that shows trees keeps the lines that it waits with and starts afresh
behind the others; at a fresh start it looks at the words of a line first.
-/

namespace BlockScript

namespace Session

variable {s t u : Session} {lines more : List Text} {xs ys : List Exchange}

/-- The exchanges in which lines are entered and the session afterwards, unless it ends or breaks
off at one of them. -/
def enterAll (s : Session) : List Text → Option (List Exchange × Session)
  | [] => some ([], s)
  | line :: lines =>
    match s.enter line with
    | .ok (shown, some next) =>
      (next.enterAll lines).map fun (exchanges, last) => (⟨s.prompt, shown⟩ :: exchanges, last)
    | _ => none

theorem enterAll_cons {line shown : Text} (h : s.enter line = .ok (shown, some t)) :
    s.enterAll (line :: lines) =
      (t.enterAll lines).map fun (exchanges, last) => (⟨s.prompt, shown⟩ :: exchanges, last) := by
  rw [enterAll, h]

theorem enterAll_cons_eq_some_iff {line : Text} :
    s.enterAll (line :: lines) = some (xs, u) ↔
      ∃ shown t ys, s.enter line = .ok (shown, some t) ∧ t.enterAll lines = some (ys, u) ∧
        xs = ⟨s.prompt, shown⟩ :: ys := by
  constructor
  · intro h
    rw [enterAll] at h
    split at h
    · next shown next hs =>
      obtain ⟨⟨exchanges, last⟩, hn, hx⟩ := Option.map_eq_some_iff.1 h
      cases hx
      exact ⟨shown, next, exchanges, hs, hn, rfl⟩
    · cases h
  · rintro ⟨shown, t, ys, hs, ht, rfl⟩
    rw [enterAll_cons hs, ht]
    rfl

theorem enterAll_append_eq_some_iff {zs : List Exchange} :
    s.enterAll (lines ++ more) = some (zs, u) ↔
      ∃ xs t ys, s.enterAll lines = some (xs, t) ∧ t.enterAll more = some (ys, u) ∧
        zs = xs ++ ys := by
  induction lines generalizing s zs with
  | nil =>
    constructor
    · exact fun h => ⟨[], s, zs, rfl, h, rfl⟩
    · rintro ⟨xs, t, ys, hs, ht, rfl⟩
      cases hs
      exact ht
  | cons line lines ih =>
    rw [List.cons_append, enterAll_cons_eq_some_iff]
    constructor
    · rintro ⟨shown, next, ws, hs, hn, rfl⟩
      obtain ⟨xs, t, ys, hx, hy, rfl⟩ := ih.1 hn
      exact ⟨_, t, ys, enterAll_cons_eq_some_iff.2 ⟨shown, next, xs, hs, hx, rfl⟩, hy, rfl⟩
    · rintro ⟨xs, t, ys, hx, hy, rfl⟩
      obtain ⟨shown, next, ws, hs, hn, rfl⟩ := enterAll_cons_eq_some_iff.1 hx
      exact ⟨shown, next, ws ++ ys, hs, ih.2 ⟨ws, t, ys, hn, hy, rfl⟩, rfl⟩

theorem enterAll_append (h : s.enterAll lines = some (xs, t))
    (h' : t.enterAll more = some (ys, u)) : s.enterAll (lines ++ more) = some (xs ++ ys, u) :=
  enterAll_append_eq_some_iff.2 ⟨xs, t, ys, h, h', rfl⟩

theorem converse_line {line shown : Text} (h : s.enter line = .ok (shown, some t))
    (rest : List Input) :
    s.converse (.line line :: rest) =
      (⟨s.prompt, shown⟩ :: (t.converse rest).1, (t.converse rest).2) := by
  rw [converse, h]

/-- A conversation goes through the lines that are entered and on from there. -/
theorem converse_of_enterAll (h : s.enterAll lines = some (xs, t)) (rest : List Input) :
    s.converse (lines.map .line ++ rest) = (xs ++ (t.converse rest).1, (t.converse rest).2) := by
  induction lines generalizing s xs with
  | nil => cases h; rfl
  | cons line lines ih =>
    obtain ⟨shown, next, zs, hs, hn, rfl⟩ := enterAll_cons_eq_some_iff.1 h
    rw [List.map_cons, List.cons_append, converse_line hs, ih hn]
    rfl

end Session

/-! ## One line -/

namespace Session

variable {s : Session} {line : Text} {bs : List Block} {e : ParseError}

/-- The session with nothing pending. -/
def fresh (s : Session) : Session := { s with pending := [] }

/-- The session with one more line pending. -/
def keep (s : Session) (line : Text) : Session := { s with pending := s.pending ++ [line] }

/-- Some lines are refused, but a session that has them goes on asking. -/
def Waits (lines : List Text) : Prop :=
  ∃ e, parse (Text.unlines lines) = .error e ∧ awaitsMore (Text.unlines lines) e.message = true

/-- What is shown for a source that is refused and not waited with. -/
def report (e : ParseError) : Text := "[error] >>> ".toList ++ e.message ++ ['\n']

theorem report_ne_nil (e : ParseError) : report e ≠ [] :=
  List.append_ne_nil_of_right_ne_nil _ (List.cons_ne_nil _ _)

/-- The words that a session takes for itself. -/
def commandWords : List Text := ["exit".toList, "quit".toList, "verbose-mode".toList]

theorem display_nil (s : Session) : s.display [] = .ok [] := rfl

/-- Blocks are shown in the format of the session on lines of their own, and as JSON below that if
the session shows JSON as well. -/
theorem display_of_ne_nil {text : Text} (hb : bs ≠ []) (h : renderAs s.format bs = .ok text) :
    s.display bs = .ok (text ++ '\n' ::
      if s.verbose && s.format != Format.json.name then Block.json bs ++ ['\n'] else []) := by
  rw [display, if_neg (by simp [hb]), h]
  show (if _ then pure _ else pure _ : Except UnsupportedFormat Text) = _
  split <;> rfl

theorem submit_of_ok (h : parse (Text.unlines (s.pending ++ [line])) = .ok bs) :
    s.submit line = (s.display bs).map fun shown => (shown, some s.fresh) := by
  rw [submit]
  simp only [h]
  rfl

theorem submit_of_waits (h : Waits (s.pending ++ [line])) :
    s.submit line = .ok ([], some (s.keep line)) := by
  obtain ⟨e, he, ha⟩ := h
  rw [submit]
  simp only [he, ha, if_true]
  rfl

theorem submit_of_not_waits (h : parse (Text.unlines (s.pending ++ [line])) = .error e)
    (hw : ¬ Waits (s.pending ++ [line])) :
    s.submit line = .ok (report e, some s.fresh) := by
  have ha : ¬ awaitsMore (Text.unlines (s.pending ++ [line])) e.message = true :=
    fun ha => hw ⟨e, h, ha⟩
  rw [submit]
  simp only [h, if_neg ha]
  rfl

theorem enter_of_pending (h : s.pending ≠ []) : s.enter line = s.submit line := by
  rw [enter, if_pos (by simp [h])]

theorem enter_of_not_mem (hs : s.pending = []) (hw : line.trim ∉ commandWords)
    (hb : line.trim ≠ []) : s.enter line = s.submit line := by
  simp only [commandWords, List.mem_cons, List.not_mem_nil, or_false, not_or] at hw
  rw [enter]
  simp only [hs, hw, hb, List.isEmpty_iff]
  simp

theorem enter_of_end (hs : s.pending = [])
    (h : line.trim = "exit".toList ∨ line.trim = "quit".toList) :
    s.enter line = .ok ([], none) := by
  unfold enter
  dsimp only
  rw [if_neg (by simp [hs]), if_pos h]

theorem enter_of_verboseMode (hs : s.pending = []) (h : line.trim = "verbose-mode".toList) :
    s.enter line = .ok (verboseNotice !s.verbose, some { s with verbose := !s.verbose }) := by
  have hw : ¬ (line.trim = "exit".toList ∨ line.trim = "quit".toList) := by
    rw [h]
    decide
  unfold enter
  dsimp only
  rw [if_neg (by simp [hs]), if_neg hw, if_pos h]

theorem enter_of_trim_eq_nil (hs : s.pending = []) (h : line.trim = []) :
    s.enter line = .ok ([], some s) := by
  rw [enter, hs, h]
  rfl

theorem prompt_of_ne_nil (h : s.pending ≠ []) : s.prompt = "...> ".toList :=
  if_neg (by simp [h])

end Session

/-! ## Sessions that show trees -/

/-- What is shown for blocks as a tree; nothing if there are none. -/
def treeOutput (blocks : List Block) : Text :=
  if blocks = [] then [] else Block.tree blocks ++ ['\n']

namespace Session

/-- The session that shows trees, with some lines pending. -/
def pendingTree (lines : List Text) : Session := ⟨"tree".toList, false, lines⟩

theorem display_pendingTree (pending : List Text) (bs : List Block) :
    (pendingTree pending).display bs = .ok (treeOutput bs) := by
  cases bs with
  | nil => rfl
  | cons b bs => rfl

end Session

/-! ## Lines that are passed over -/

/-- Only white space is trimmed to nothing. -/
theorem Text.isWhitespace_of_trim_eq_nil {text : Text} (h : text.trim = []) :
    ∀ c ∈ text, isWhitespace c := by
  rw [trim, trimEnd, List.reverse_eq_nil_iff, List.dropWhile_eq_nil_iff] at h
  intro c hc
  rw [← @List.takeWhile_append_dropWhile _ isWhitespace text] at hc
  rcases List.mem_append.1 hc with hc | hc
  · exact List.mem_takeWhile_imp hc
  · exact h c (List.mem_reverse.2 hc)

theorem Text.trim_eq_nil_iff {text : Text} : text.trim = [] ↔ ∀ c ∈ text, isWhitespace c := by
  refine ⟨isWhitespace_of_trim_eq_nil, fun h => ?_⟩
  rw [trim, List.dropWhile_eq_nil_iff.2 h]
  rfl

theorem tokenize_of_forall_isBlank {line : Text} (h : ∀ c ∈ line, isBlank c) :
    tokenize line = .ok [] := by
  induction line with
  | nil => exact tokenize_nil
  | cons c cs ih =>
    rw [tokenize_of_isBlank (h c List.mem_cons_self)]
    exact ih fun d hd => h d (List.mem_cons_of_mem _ hd)

theorem Script.forall_mem_physicalLine {piece : Text} {P : Char → Prop} (h : ∀ c ∈ piece, P c) :
    ∀ c ∈ physicalLine piece, P c := by
  unfold physicalLine Text.chop?
  split
  · exact fun c hc => h c (List.dropLast_subset _ hc)
  · exact h

/-- A line of blanks is a program without blocks. -/
theorem parse_of_forall_isBlank {line : Text} (h : ∀ c ∈ line, isBlank c) (hf : '\n' ∉ line) :
    parse line = .ok [] := by
  have hp := Script.forall_mem_physicalLine h
  have hc : Text.chop? '\\' (Script.physicalLine line) = none := by
    refine Text.chop?_eq_none fun hlast => ?_
    exact absurd (hp _ (List.mem_of_getLast? hlast)) (by decide)
  have hs : Script.ofSource line = .ok ⟨[⟨Script.physicalLine line, 1⟩]⟩ := by
    rw [Script.ofSource, Text.lines, Text.pieces_of_not_mem hf, List.map_singleton,
      Script.joinContinued_of_none hc]
    rfl
  have hr : Block.read [⟨Script.physicalLine line, 1⟩] = ⟨.ok none, 1⟩ :=
    Block.readWith_of_nil (tokenize_of_forall_isBlank hp)
  rw [parse_eq_blocks hs, Script.blocks, Block.readAll_of_ok hr, List.drop_nil, Block.readAll_nil]
  rfl

end BlockScript
