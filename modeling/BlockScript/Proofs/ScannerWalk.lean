import BlockScript.Proofs.CheckedLexing
import BlockScript.Proofs.Nesting

/-!
# Walking over a line

The readers of this file take a scanner from wherever it stands and move it one character at a
time, each in a loop of its own that looks ahead with `Scanner.peek` and moves with `Scanner.next`.
A reading that fails leaves the scanner where it has stopped.  Looking and moving do not agree in
front of the source: nothing is seen from a position counted from the back, though a character is
read there.

From every position `Walk.nextToken` reads what `Scanner.nextToken` does and stops where it does
(`Walk.nextToken_eq`).  So it comes further with every token, never behind the end, and fails for
a mistake in the line only, or for a position in front of the source counted from the back
(`nextToken_advances`).
-/

namespace BlockScript

namespace Scanner

variable {s t : Scanner} {c : Char} {rest : Text}

/-! ## One character -/

theorem outOfRange_eq_false (h : -s.source.length ≤ s.position) : s.outOfRange = false := by
  rw [outOfRange, decide_eq_false_iff_not]
  omega

theorem atEnd_eq_false (h : s.position < s.source.length) : s.atEnd = false := by
  rw [atEnd, decide_eq_false_iff_not]
  omega

theorem lt_length_of_ahead (h : s.ahead = c :: rest) : s.position < s.source.length := by
  by_cases hneg : s.position < 0
  · omega
  · have hlength : s.visible.length = (c :: rest).length := by
      rw [← h, ahead, if_neg hneg]
    rw [visible, List.length_drop, List.length_cons] at hlength
    omega

/-- A character that is read is not left any more. -/
theorem left_of_next (h : s.next = (.ok c, t)) : t.left < s.left := by
  rw [next] at h
  split at h
  · cases h
  · split at h
    · cases h
    · next hahead =>
      have hlt := lt_length_of_ahead hahead
      cases h
      simp only [left]
      omega

theorem next_of_outOfRange (h : s.position < -s.source.length) :
    s.next = (.error (.outOfRange s.position), s) :=
  if_pos (by simpa [outOfRange] using h)

/-- Counted from the back there is a character to read. -/
theorem exists_next_of_neg (hle : -s.source.length ≤ s.position) (hneg : s.position < 0) :
    ∃ c, s.next = (.ok c, { s with position := s.position + 1 }) := by
  have hlt : (s.source.length + s.position).toNat < s.source.length := by omega
  refine ⟨s.source[(s.source.length + s.position).toNat], ?_⟩
  rw [next, outOfRange_eq_false hle, ahead, if_pos hneg, List.drop_eq_getElem_cons hlt]
  rfl

theorem peek_of_neg (h : s.position < 0) : s.peek 0 = none := by
  rw [peek, if_pos (by omega)]

theorem before_visible (h₀ : 0 ≤ s.position) (h : s.position ≤ s.source.length) :
    s.before s.visible = s := by
  have hposition : (s.source.length : Int) - s.visible.length = s.position := by
    rw [visible, List.length_drop]
    omega
  rw [before, hposition]

end Scanner

/-! ## The readers -/

namespace Walk

variable {s t : Scanner}

/-- What a reading comes to, and the scanner where it has stopped. -/
abbrev Stop (α : Type) := Except ScanError α × Scanner

/-- The stop with `f` applied to what was read. -/
def Stop.map {α β : Type} (f : α → β) (r : Stop α) : Stop β := (r.1.map f, r.2)

/-- Passes over blanks and a comment. -/
def skipBlanks (s : Scanner) : Stop Unit :=
  if s.atEnd then (.ok (), s)
  else if (s.peek 0).all isBlank then
    match _h : s.next with
    | (.error e, t) => (.error e, t)
    | (.ok _, t) => skipBlanks t
  else if s.peek 0 = some '#' then skipBlanks { s with position := s.source.length }
  else (.ok (), s)
termination_by s.left
decreasing_by
  · exact Scanner.left_of_next ‹_›
  · next hend _ _ =>
    have hlt : s.position < s.source.length := by simpa [Scanner.atEnd] using hend
    simp only [Scanner.left]
    omega

/-- Reads on behind the front of a word. -/
def wordFrom (front : Text) (s : Scanner) : Stop Text :=
  if s.atEnd || (s.peek 0).all isDelimiter then (.ok front, s)
  else
    match _h : s.next with
    | (.error e, t) => (.error e, t)
    | (.ok c, t) => wordFrom (front ++ [c]) t
termination_by s.left
decreasing_by exact Scanner.left_of_next ‹_›

/-- Reads the word in front. -/
def readWord (s : Scanner) : Stop Text := wordFrom [] s

/-- Reads on behind the front of a string. -/
def stringFrom (front : Text) (s : Scanner) : Stop Text :=
  if s.atEnd then (.error (.malformed .unterminatedString), s)
  else
    match _h : s.next with
    | (.error e, t) => (.error e, t)
    | (.ok c, t) =>
      if c = '"' then (.ok front, t)
      else if c = '\\' ∧ !t.atEnd then
        match _h' : t.next with
        | (.error e, u) => (.error e, u)
        | (.ok e, u) => stringFrom (front ++ Lexer.escaped e) u
      else stringFrom (front ++ [c]) t
termination_by s.left
decreasing_by
  · exact Nat.lt_trans (Scanner.left_of_next ‹_›) (Scanner.left_of_next ‹_›)
  · exact Scanner.left_of_next ‹_›

/-- Passes one character and reads the string behind it. -/
def readString (s : Scanner) : Stop Text :=
  match s.next with
  | (.error e, t) => (.error e, t)
  | (.ok _, t) => stringFrom [] t

theorem left_le_of_stringFrom {front text : Text} (h : stringFrom front s = (.ok text, t)) :
    t.left ≤ s.left := by
  fun_induction stringFrom front s with
  | case1 => cases h
  | case2 => cases h
  | case3 front s hend u hn =>
    cases h
    exact Nat.le_of_lt (Scanner.left_of_next hn)
  | case4 => cases h
  | case5 front s hend c u hn hq hb e v hn' ih =>
    have := Scanner.left_of_next hn
    have := Scanner.left_of_next hn'
    have := ih h
    omega
  | case6 front s hend c u hn hq hb ih =>
    have := Scanner.left_of_next hn
    have := ih h
    omega

theorem left_of_readString {text : Text} (h : readString s = (.ok text, t)) : t.left < s.left := by
  rw [readString] at h
  split at h
  · cases h
  · next hn => exact Nat.lt_of_le_of_lt (left_le_of_stringFrom h) (Scanner.left_of_next hn)

/-- Reads on inside a command that begins at `start`, with `depth` open parentheses. -/
def commandFrom (start depth : Int) (s : Scanner) : Stop Text :=
  if s.atEnd then (.error (.malformed .unclosedParenthesis), s)
  else if s.peek 0 = some '"' then
    match _h : readString s with
    | (.error e, t) => (.error e, t)
    | (.ok _, t) => commandFrom start depth t
  else
    match _h : s.next with
    | (.error e, t) => (.error e, t)
    | (.ok _, t) =>
      if s.peek 0 = some '(' then commandFrom start (depth + 1) t
      else if s.peek 0 = some ')' then
        if depth - 1 = 0 then (.ok (s.source.slice start (t.position - 1)), t)
        else commandFrom start (depth - 1) t
      else commandFrom start depth t
termination_by s.left
decreasing_by
  · exact left_of_readString ‹_›
  all_goals exact Scanner.left_of_next ‹_›

/-- Passes one character and reads the command behind it. -/
def readCommand (s : Scanner) : Stop Text :=
  match s.next with
  | (.error e, t) => (.error e, t)
  | (.ok _, t) => commandFrom t.position 1 t

/-- Reads the next token, if there is one. -/
def nextToken (s : Scanner) : Stop (Option Token) :=
  match skipBlanks s with
  | (.error e, t) => (.error e, t)
  | (.ok (), t) =>
    if t.atEnd then (.ok none, t)
    else if t.peek 0 = some '"' then (readString t).map fun text => some (.literal text)
    else if t.peek 0 = some '(' then (readCommand t).map fun source => some (.command source)
    else if t.peek 0 = some ')' then (.error (.malformed .strayParenthesis), t)
    else (readWord t).map fun word => some (.literal word)

/-! ## From a place in the source -/

variable {c : Char} {rest : Text}

/-- Where a reading of what is in front stops: behind what was read, or at the end if there is a
mistake in it. -/
def Stop.ofLexer {α : Type} (s : Scanner) : Except Cause (α × Text) → Stop α
  | .ok (a, rest) => (.ok a, s.before rest)
  | .error cause => (.error (.malformed cause), s.before [])

theorem skipBlanks_nil (s : Scanner) : skipBlanks (s.before []) = (.ok (), s.before []) := by
  rw [skipBlanks, Scanner.atEnd_before]
  rfl

theorem skipBlanks_before (h : rest <:+ s.source) :
    skipBlanks (s.before rest) = (.ok (), s.before (Lexer.skipBlanks rest)) := by
  induction rest with
  | nil => exact skipBlanks_nil s
  | cons c rest ih =>
    have hend : (⟨s.source, s.source.length⟩ : Scanner) = s.before [] := by
      simp [Scanner.before]
    rw [skipBlanks, Scanner.atEnd_before, Scanner.peek_before h, Lexer.skipBlanks]
    simp only [List.isEmpty_cons, Bool.false_eq_true, if_false, List.head?_cons, Option.all_some,
      Option.some.injEq]
    split
    · rw [Scanner.next_before h]
      exact ih ((List.suffix_cons c rest).trans h)
    · split
      · exact (congrArg skipBlanks hend).trans (skipBlanks_nil s)
      · rfl

theorem wordFrom_before (h : rest <:+ s.source) (front : Text) :
    wordFrom front (s.before rest) =
      (.ok (front ++ Lexer.word rest), s.before (Lexer.afterWord rest)) := by
  induction rest generalizing front with
  | nil =>
    rw [wordFrom, Scanner.atEnd_before]
    simp [Lexer.word, Lexer.afterWord]
  | cons c rest ih =>
    rw [wordFrom, Scanner.atEnd_before, Scanner.peek_before h]
    cases hd : isDelimiter c with
    | true => simp [Lexer.word, Lexer.afterWord, hd]
    | false =>
      simp only [List.isEmpty_cons, List.head?_cons, Option.all_some, hd, Bool.or_false,
        Bool.false_eq_true, if_false]
      rw [Scanner.next_before h]
      refine (ih ((List.suffix_cons c rest).trans h) (front ++ [c])).trans ?_
      simp [Lexer.word, Lexer.afterWord, hd]

theorem stringFrom_nil (front : Text) (s : Scanner) :
    stringFrom front (s.before []) = (.error (.malformed .unterminatedString), s.before []) := by
  rw [stringFrom, Scanner.atEnd_before]
  rfl

theorem stringFrom_quote (h : '"' :: rest <:+ s.source) (front : Text) :
    stringFrom front (s.before ('"' :: rest)) = (.ok front, s.before rest) := by
  rw [stringFrom, Scanner.atEnd_before, Scanner.next_before h]
  rfl

theorem stringFrom_escape {e : Char} (h : '\\' :: e :: rest <:+ s.source) (front : Text) :
    stringFrom front (s.before ('\\' :: e :: rest)) =
      stringFrom (front ++ Lexer.escaped e) (s.before rest) := by
  rw [stringFrom, Scanner.atEnd_before, Scanner.next_before h]
  show (if '\\' = '\\' ∧ (!(s.before (e :: rest)).atEnd) = true then _ else _) = _
  rw [Scanner.atEnd_before, Scanner.next_before ((List.suffix_cons _ _).trans h)]
  rfl

theorem stringFrom_of_ne (h : c :: rest <:+ s.source) (hq : c ≠ '"') (hb : c ≠ '\\' ∨ rest = [])
    (front : Text) :
    stringFrom front (s.before (c :: rest)) = stringFrom (front ++ [c]) (s.before rest) := by
  have hescape : ¬ (c = '\\' ∧ (!rest.isEmpty) = true) := by
    rintro ⟨hc, he⟩
    rcases hb with hb | rfl
    · exact hb hc
    · cases he
  rw [stringFrom, Scanner.atEnd_before, Scanner.next_before h]
  show (if c = '"' then _ else if c = '\\' ∧ (!(s.before rest).atEnd) = true then _ else _) = _
  rw [Scanner.atEnd_before, if_neg hq, if_neg hescape]

/-- Text that is read in two parts is read in one. -/
theorem ofLexer_map_append (front text : Text) (x : Except Cause (Text × Text)) :
    Stop.ofLexer s (x.map fun (more, rest) => (front ++ text ++ more, rest)) =
      Stop.ofLexer s ((x.map fun (more, rest) => (text ++ more, rest)).map fun (more, rest) =>
        (front ++ more, rest)) := by
  cases x with
  | error cause => rfl
  | ok next =>
    show (Except.ok (front ++ text ++ next.1), _) = (Except.ok (front ++ (text ++ next.1)), _)
    rw [List.append_assoc]

theorem stringFrom_before (h : rest <:+ s.source) (front : Text) :
    stringFrom front (s.before rest) =
      Stop.ofLexer s ((Lexer.readString rest).map fun (text, rest) => (front ++ text, rest)) := by
  fun_induction Lexer.readString rest generalizing front with
  | case1 => exact stringFrom_nil front s
  | case2 rest =>
    rw [stringFrom_quote h]
    show _ = (Except.ok (front ++ []), s.before rest)
    rw [List.append_nil]
  | case3 hq => exact (stringFrom_of_ne h hq (.inr rfl) front).trans (stringFrom_nil _ s)
  | case4 e rest hq ih =>
    rw [stringFrom_escape h, ih (((List.suffix_cons _ _).trans (List.suffix_cons _ _)).trans h)]
    exact ofLexer_map_append _ _ (Lexer.readString rest)
  | case5 c rest hq hb ih =>
    rw [stringFrom_of_ne h hq (.inl hb), ih ((List.suffix_cons _ _).trans h)]
    exact ofLexer_map_append _ _ (Lexer.readString rest)

theorem readString_before (h : c :: rest <:+ s.source) :
    readString (s.before (c :: rest)) = Stop.ofLexer s (Lexer.readString rest) := by
  rw [readString, Scanner.next_before h]
  refine (stringFrom_before ((List.suffix_cons _ _).trans h) []).trans ?_
  cases Lexer.readString rest <;> rfl

/-! ### Commands -/

theorem commandFrom_nil (start depth : Int) (s : Scanner) :
    commandFrom start depth (s.before []) =
      (.error (.malformed .unclosedParenthesis), s.before []) := by
  rw [commandFrom, Scanner.atEnd_before]
  rfl

theorem commandFrom_quote (h : '"' :: rest <:+ s.source) (start depth : Int) :
    commandFrom start depth (s.before ('"' :: rest)) =
      match Lexer.readString rest with
      | .ok (_, rest) => commandFrom start depth (s.before rest)
      | .error cause => (.error (.malformed cause), s.before []) := by
  rw [commandFrom, Scanner.atEnd_before, Scanner.peek_before h, readString_before h]
  cases Lexer.readString rest <;> rfl

theorem commandFrom_close (h : ')' :: rest <:+ s.source) (start : Int) :
    commandFrom start 1 (s.before (')' :: rest)) =
      (.ok (s.source.slice start ((s.before rest).position - 1)), s.before rest) := by
  rw [commandFrom, Scanner.atEnd_before, Scanner.peek_before h, Scanner.next_before h]
  rfl

theorem commandFrom_of_ne (h : c :: rest <:+ s.source) (hq : c ≠ '"') {depth : Nat}
    (hc : ¬ (c = ')' ∧ depth = 0)) (start : Int) :
    commandFrom start (depth + 1 : Nat) (s.before (c :: rest)) =
      commandFrom start (Lexer.depthAfter depth c + 1 : Nat) (s.before rest) := by
  rw [commandFrom, Scanner.atEnd_before, Scanner.peek_before h, Scanner.next_before h]
  simp only [List.isEmpty_cons, Bool.false_eq_true, if_false, List.head?_cons, Option.some.injEq,
    if_neg hq]
  rw [Lexer.depthAfter]
  by_cases ho : c = '('
  · rw [if_pos ho, if_pos ho]
    rfl
  · rw [if_neg ho, if_neg ho]
    by_cases hcl : c = ')'
    · have hd : depth ≠ 0 := fun hd => hc ⟨hcl, hd⟩
      have hdepth : ((depth + 1 : Nat) : Int) - 1 = (depth - 1 + 1 : Nat) := by omega
      rw [if_pos hcl, if_pos hcl, if_neg (by omega), hdepth]
    · rw [if_neg hcl, if_neg hcl]

/-- A walk inside a command passes the same characters as `Lexer.readCommand`, which goes through
the strings of the command character by character. -/
theorem commandFrom_before (start : Int) : ∀ (rest : Text) (depth : Nat), rest <:+ s.source →
    commandFrom start (depth + 1 : Nat) (s.before rest) =
      Stop.ofLexer s (((Lexer.readCommand depth false rest).map Prod.snd).map fun rest =>
        (s.source.slice start ((s.before rest).position - 1), rest))
  | [], depth, h => commandFrom_nil start _ s
  | c :: rest, depth, h => by
    have hrest : rest <:+ s.source := (List.suffix_cons _ _).trans h
    by_cases hq : c = '"'
    · -- The string inside is passed at one go, so the induction is on the length of what is left.
      subst hq
      rw [commandFrom_quote h, Lexer.readCommand_of_not_close (by simp), Lexer.map_snd_map,
        beq_self_eq_true, Lexer.readCommand_quoted]
      cases hs : Lexer.readString rest with
      | error cause => rfl
      | ok string =>
        obtain ⟨value, behind⟩ := string
        have hlength := Lexer.length_of_readString hs
        exact commandFrom_before start behind depth ((Lexer.isSuffix_of_readString hs).trans hrest)
    · by_cases hc : c = ')' ∧ depth = 0
      · obtain ⟨rfl, rfl⟩ := hc
        rw [Lexer.readCommand_close]
        exact commandFrom_close h start
      · rw [commandFrom_of_ne h hq hc, Lexer.readCommand_of_not_close hc, Lexer.map_snd_map,
          beq_eq_false_iff_ne.2 hq]
        exact commandFrom_before start rest _ hrest
termination_by rest => rest.length

theorem readCommand_before (h : c :: rest <:+ s.source) :
    readCommand (s.before (c :: rest)) = Stop.ofLexer s (Lexer.readCommand 0 false rest) := by
  have hrest : rest <:+ s.source := (List.suffix_cons _ _).trans h
  rw [readCommand, Scanner.next_before h]
  refine (commandFrom_before _ rest 0 hrest).trans ?_
  cases hr : Lexer.readCommand 0 false rest with
  | error cause => rfl
  | ok command =>
    obtain ⟨raw, behind⟩ := command
    have hraw := Lexer.eq_append_of_readCommand hr
    rw [hraw] at hrest ⊢
    show (Except.ok (s.source.slice _ _), s.before behind) = _
    rw [Scanner.slice_before hrest]
    rfl

/-! ### Tokens -/

theorem nextToken_before (h : rest <:+ s.source) :
    nextToken (s.before rest) =
      match Lexer.nextToken rest with
      | .ok none => (.ok none, s.before [])
      | .ok (some (token, rest)) => (.ok (some token), s.before rest)
      | .error .strayParenthesis =>
        (.error (.malformed .strayParenthesis), s.before (Lexer.skipBlanks rest))
      | .error cause => (.error (.malformed cause), s.before []) := by
  have hrest := (Lexer.skipBlanks_isSuffix rest).trans h
  rw [nextToken, skipBlanks_before h, Lexer.nextToken]
  dsimp only
  rw [Scanner.atEnd_before, Scanner.peek_before hrest]
  cases hs : Lexer.skipBlanks rest with
  | nil => rfl
  | cons c cs =>
    rw [hs] at hrest
    simp only [List.isEmpty_cons, Bool.false_eq_true, if_false, List.head?_cons,
      Option.some.injEq]
    rw [readString_before hrest, readCommand_before hrest, readWord, wordFrom_before hrest]
    by_cases hq : c = '"'
    · rw [if_pos hq, if_pos hq]
      cases hr : Lexer.readString cs with
      | error cause =>
        cases Lexer.cause_of_readString hr
        rfl
      | ok string => rfl
    · rw [if_neg hq, if_neg hq]
      by_cases ho : c = '('
      · rw [if_pos ho, if_pos ho]
        cases hr : Lexer.readCommand 0 false cs with
        | error cause => rcases Lexer.cause_of_readCommand hr with rfl | rfl <;> rfl
        | ok command => rfl
      · rw [if_neg ho, if_neg ho]
        by_cases hc : c = ')'
        · rw [if_pos hc, if_pos hc]
        · rw [if_neg hc, if_neg hc]
          rfl

/-! ## From any position -/

/-- Nothing is seen from a position counted from the back, and what is not seen counts as blank:
the walk goes on to the front of the source. -/
theorem skipBlanks_of_neg (s : Scanner) (hle : -s.source.length ≤ s.position)
    (hneg : s.position < 0) : skipBlanks s = skipBlanks { s with position := 0 } := by
  obtain ⟨c, hnext⟩ := Scanner.exists_next_of_neg hle hneg
  have hend : s.atEnd = false := Scanner.atEnd_eq_false (by omega)
  have hstep : skipBlanks s = skipBlanks { s with position := s.position + 1 } := by
    rw [skipBlanks, hend, Scanner.peek_of_neg hneg, hnext]
    rfl
  rw [hstep]
  by_cases hzero : s.position + 1 = 0
  · rw [hzero]
  · have hlt : s.position + 1 < 0 := by omega
    exact skipBlanks_of_neg { s with position := s.position + 1 } (by dsimp only; omega) hlt
termination_by (-s.position).toNat

theorem nextToken_of_neg (hle : -s.source.length ≤ s.position) (hneg : s.position < 0) :
    nextToken s = nextToken { s with position := 0 } := by
  rw [nextToken, nextToken, skipBlanks_of_neg s hle hneg]

theorem nextToken_of_outOfRange (h : s.position < -s.source.length) :
    nextToken s = (.error (.outOfRange s.position), s) := by
  have hend : s.atEnd = false := Scanner.atEnd_eq_false (by omega)
  have hskip : skipBlanks s = (.error (.outOfRange s.position), s) := by
    rw [skipBlanks, hend, Scanner.peek_of_neg (by omega), Scanner.next_of_outOfRange h]
    rfl
  rw [nextToken, hskip]

theorem nextToken_of_atEnd (h : s.source.length ≤ s.position) : nextToken s = (.ok none, s) := by
  have hend : s.atEnd = true := decide_eq_true h
  have hskip : skipBlanks s = (.ok (), s) := by
    rw [skipBlanks, if_pos hend]
  rw [nextToken, hskip]
  exact if_pos hend

theorem nextToken_of_inside (h₀ : 0 ≤ s.position) (h : s.position < s.source.length) :
    nextToken s = s.nextToken := by
  have hwalk := nextToken_before (show s.visible <:+ s.source from List.drop_suffix _ _)
  rw [Scanner.before_visible h₀ (Int.le_of_lt h)] at hwalk
  rw [hwalk, Scanner.nextToken, Scanner.outOfRange_eq_false (by omega), Scanner.atEnd_eq_false h]
  rfl

theorem scanner_nextToken_of_atEnd (h : s.source.length ≤ s.position) :
    s.nextToken = (.ok none, s) := by
  have hend : s.atEnd = true := decide_eq_true h
  rw [Scanner.nextToken, Scanner.outOfRange_eq_false (by omega), hend]
  rfl

theorem scanner_nextToken_of_neg (hle : -s.source.length ≤ s.position) (hneg : s.position < 0) :
    s.nextToken = ({ s with position := 0 } : Scanner).nextToken := by
  have hvisible : s.visible = ({ s with position := 0 } : Scanner).visible := by
    rw [Scanner.visible, Scanner.visible, Int.toNat_of_nonpos (Int.le_of_lt hneg)]
    rfl
  have hlength : 0 < (s.source.length : Int) := by omega
  rw [Scanner.nextToken, Scanner.nextToken, Scanner.outOfRange_eq_false hle,
    Scanner.atEnd_eq_false (by omega), Scanner.outOfRange_eq_false (by dsimp only; omega),
    Scanner.atEnd_eq_false hlength, hvisible]
  rfl

/-- A walk from any position reads what `Scanner.nextToken` reads and stops where that stops. -/
theorem nextToken_eq (s : Scanner) : nextToken s = s.nextToken := by
  by_cases hrange : s.position < -s.source.length
  · rw [nextToken_of_outOfRange hrange, Scanner.nextToken, Scanner.outOfRange,
      decide_eq_true hrange]
    rfl
  · by_cases hend : s.source.length ≤ s.position
    · rw [nextToken_of_atEnd hend, scanner_nextToken_of_atEnd hend]
    · by_cases hneg : s.position < 0
      · rw [nextToken_of_neg (by omega) hneg, scanner_nextToken_of_neg (by omega) hneg]
        exact nextToken_of_inside (Int.le_refl 0) (by dsimp only; omega)
      · exact nextToken_of_inside (by omega) (by omega)

/-! ## All tokens -/

/-- The tokens that are read one after the other from where a scanner stands, and how the reading
ends: there is no further token, or the next one is a mistake. -/
inductive Reads : Scanner → List Token → Except ScanError Unit → Prop where
  | finished {s t : Scanner} (h : nextToken s = (.ok none, t)) : Reads s [] (.ok ())
  | failed {s t : Scanner} {e : ScanError} (h : nextToken s = (.error e, t)) :
    Reads s [] (.error e)
  | token {s t : Scanner} {token : Token} {tokens : List Token} {result : Except ScanError Unit}
    (h : nextToken s = (.ok (some token), t)) (rest : Reads t tokens result) :
    Reads s (token :: tokens) result

/-- A mistake stops the walk where there is nothing in front any more, or in front of a stray
parenthesis. -/
theorem exists_stop_of_error (h : rest <:+ s.source) {cause : Cause}
    (hn : Lexer.nextToken rest = .error cause) :
    ∃ left, left.length ≤ rest.length ∧
      nextToken (s.before rest) = (.error (.malformed cause), s.before left) := by
  have hwalk := nextToken_before h
  rw [hn] at hwalk
  by_cases hstray : cause = .strayParenthesis
  · subst hstray
    exact ⟨Lexer.skipBlanks rest, Lexer.length_skipBlanks_le rest, hwalk⟩
  · refine ⟨[], Nat.zero_le _, hwalk.trans ?_⟩
    rcases Lexer.isLexical_of_nextToken hn with rfl | rfl | rfl
    · rfl
    · rfl
    · exact absurd rfl hstray

/-- The reading of what is in front ends after at most as many tokens as there are characters. -/
theorem exists_reads_before : ∀ rest : Text, rest <:+ s.source →
    ∃ tokens result, Reads (s.before rest) tokens result ∧ tokens.length ≤ rest.length ∧
      (tokenize rest).mapError ScanError.malformed = result.map fun _ => tokens
  | rest, h => by
    cases hn : Lexer.nextToken rest with
    | error cause =>
      obtain ⟨left, -, hstop⟩ := exists_stop_of_error h hn
      refine ⟨[], .error (.malformed cause), .failed hstop, Nat.zero_le _, ?_⟩
      rw [tokenize_of_error hn]
      rfl
    | ok next? =>
      have hwalk := nextToken_before h
      rw [hn] at hwalk
      cases next? with
      | none =>
        refine ⟨[], .ok (), .finished hwalk, Nat.zero_le _, ?_⟩
        rw [tokenize_of_none hn]
        rfl
      | some next =>
        obtain ⟨token, behind⟩ := next
        have hlength := Lexer.length_of_nextToken hn
        obtain ⟨tokens, result, hreads, hcount, heq⟩ :=
          exists_reads_before behind ((Lexer.isSuffix_of_nextToken hn).trans h)
        refine ⟨token :: tokens, result, .token hwalk hreads, ?_, ?_⟩
        · rw [List.length_cons]
          omega
        · rw [tokenize_of_some hn]
          cases ht : tokenize behind with
          | error cause =>
            rw [ht] at heq
            cases result with
            | error e => exact heq
            | ok _ => cases heq
          | ok more =>
            rw [ht] at heq
            cases result with
            | error e => cases heq
            | ok _ =>
              cases heq
              rfl
termination_by rest => rest.length

end Walk

/-- From a place in a line a token is read and the scanner comes further, but not behind the end
of the line; or there is no token and it comes to the end; or there is a mistake and it does not
go back.  Behind the end nothing is read.  A position counted from the back is as good as the
front, and one that is counted too far leaves the scanner where it is.  So the tokens of a line
come to an end, and there are no more of them than characters. -/
theorem nextToken_advances (s : Scanner) :
    Walk.nextToken s = s.nextToken ∧
      (s.source.length ≤ s.position → Walk.nextToken s = (.ok none, s)) ∧
      (0 ≤ s.position → s.position < s.source.length →
        (∃ token p, s.position < p ∧ p ≤ s.source.length ∧
            Walk.nextToken s = (.ok (some token), { s with position := p })) ∨
          Walk.nextToken s = (.ok none, { s with position := s.source.length }) ∨
          ∃ cause p, s.position ≤ p ∧ p ≤ s.source.length ∧
            Walk.nextToken s = (.error (.malformed cause), { s with position := p })) ∧
      (-s.source.length ≤ s.position → s.position < 0 →
        Walk.nextToken s = Walk.nextToken { s with position := 0 }) ∧
      (s.position < -s.source.length →
        Walk.nextToken s = (.error (.outOfRange s.position), s)) ∧
      ∃ tokens result, Walk.Reads { s with position := 0 } tokens result ∧
        tokens.length ≤ s.source.length ∧
        (tokenize s.source).mapError ScanError.malformed = result.map fun _ => tokens := by
  refine ⟨Walk.nextToken_eq s, Walk.nextToken_of_atEnd, fun h₀ h => ?_, Walk.nextToken_of_neg,
    Walk.nextToken_of_outOfRange, ?_⟩
  · have hvisible : s.visible.length = s.source.length - s.position := by
      rw [Scanner.visible, List.length_drop]
      omega
    have hsuffix : s.visible <:+ s.source := List.drop_suffix _ _
    have hwalk := Walk.nextToken_before hsuffix
    have hstart := Scanner.before_visible h₀ (Int.le_of_lt h)
    rw [hstart] at hwalk
    cases hn : Lexer.nextToken s.visible with
    | error cause =>
      obtain ⟨left, hleft, hstop⟩ := Walk.exists_stop_of_error hsuffix hn
      rw [hstart] at hstop
      exact .inr (.inr ⟨cause, _, by omega, by omega, hstop⟩)
    | ok next? =>
      rw [hn] at hwalk
      cases next? with
      | none =>
        refine .inr (.inl (hwalk.trans ?_))
        simp [Scanner.before]
      | some next =>
        have hlength := Lexer.length_of_nextToken hn
        exact .inl ⟨next.1, _, by omega, by omega, hwalk⟩
  · have hfront : ({ s with position := 0 } : Scanner) = s.before s.source := by
      simp [Scanner.before]
    rw [hfront]
    exact Walk.exists_reads_before s.source List.suffix_rfl

/-- In front of a stray parenthesis, read from the blank before it, from the back, from too far
back, and from behind the end. -/
theorem nextToken_advances_strayParenthesis :
    ((∃ token p, 1 < p ∧ p ≤ 3 ∧
          Walk.nextToken ⟨"a )".toList, 1⟩ = (.ok (some token), ⟨"a )".toList, p⟩)) ∨
        Walk.nextToken ⟨"a )".toList, 1⟩ = (.ok none, ⟨"a )".toList, 3⟩) ∨
        ∃ cause p, 1 ≤ p ∧ p ≤ 3 ∧
          Walk.nextToken ⟨"a )".toList, 1⟩ = (.error (.malformed cause), ⟨"a )".toList, p⟩)) ∧
      Walk.nextToken ⟨"a )".toList, -1⟩ = Walk.nextToken ⟨"a )".toList, 0⟩ ∧
      Walk.nextToken ⟨"a )".toList, -4⟩ = (.error (.outOfRange (-4)), ⟨"a )".toList, -4⟩) ∧
      Walk.nextToken ⟨"a )".toList, 3⟩ = (.ok none, ⟨"a )".toList, 3⟩) :=
  ⟨(nextToken_advances ⟨"a )".toList, 1⟩).2.2.1 (by decide) (by decide),
    (nextToken_advances ⟨"a )".toList, -1⟩).2.2.2.1 (by decide) (by decide),
    (nextToken_advances ⟨"a )".toList, -4⟩).2.2.2.2.1 (by decide),
    (nextToken_advances ⟨"a )".toList, 3⟩).2.1 (by decide)⟩

end BlockScript
