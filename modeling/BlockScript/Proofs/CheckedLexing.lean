import BlockScript.Proofs.Tokenizing
import BlockScript.Token.Scanner

/-!
# Tokens read with every step checked

The readers of this file move over a line one character at a time and do not take for granted that
there is a character to read, that a cut-out part is the one meant, or that a loop ends: a step that
cannot be taken is a `Fault`, and so is a round of a loop (`loop`) that comes no closer to its end.
On every line they read the tokens of the line, or refuse it for the mistake that the line is
refused for (`Checked.tokenize_eq`), so no other fault is met.
-/

namespace BlockScript

/-- The ways in which a checked reading can end without a result: the source is refused; a
character is read behind the last one; a position stands for nothing; a tree is put together from
parts that do not fit; there is no level left to go down; a loop goes round without coming closer
to its end. -/
inductive Fault where
  | refused (error : ParseError)
  | pastEnd (position : Int)
  | outOfRange (position : Int)
  | unfitParts
  | tooDeep
  | stalled
  deriving DecidableEq, Repr

namespace Fault

/-- The fault of a mistake: too deep a nesting is met when there is no level left, and every other
mistake is a reason to refuse the source. -/
def ofError (e : ParseError) : Fault := if e.cause = .nestingTooDeep then .tooDeep else .refused e

/-- The fault of a mistake that has not been seen from a line yet. -/
def ofCause (cause : Cause) : Fault := ofError ⟨[], cause⟩

/-- The fault of a scanner that fails to read. -/
def ofScanError : ScanError → Fault
  | .malformed cause => ofCause cause
  | .pastEnd position => .pastEnd position
  | .outOfRange position => .outOfRange position

end Fault

/-! ## Loops -/

/-- What a round of a loop comes to: the state of the next round, or the result. -/
inductive Round (σ α : Type) where
  | again (state : σ)
  | done (result : α)

section Loop

variable {σ α : Type} (left : σ → Nat) (round : σ → Except Fault (Round σ α))

/-- Goes round until there is a result, as long as less is left each time. -/
def loop (s : σ) : Except Fault α :=
  match round s with
  | .error fault => .error fault
  | .ok (.done a) => .ok a
  | .ok (.again t) => if left t < left s then loop t else .error .stalled
termination_by left s

variable {left round} {s t : σ}

theorem loop_of_error {fault : Fault} (h : round s = .error fault) :
    loop left round s = .error fault := by
  rw [loop, h]

theorem loop_of_done {a : α} (h : round s = .ok (.done a)) : loop left round s = .ok a := by
  rw [loop, h]

theorem loop_of_again (h : round s = .ok (.again t)) (hl : left t < left s) :
    loop left round s = loop left round t := by
  rw [loop, h]
  exact if_pos hl

end Loop

/-! ## One character -/

namespace Text

/-- The part of a text from one position up to another.  A position below zero counts from the
back, and one that is too large stands for the end of the text. -/
def slice (text : Text) (first last : Int) : Text :=
  let place (i : Int) : Nat := if i < 0 then (text.length + i).toNat else i.toNat
  (text.take (place last)).drop (place first)

theorem slice_natCast (text : Text) (first last : Nat) :
    text.slice first last = (text.take last).drop first := by
  have hplace : ∀ n : Nat, ¬ (n : Int) < 0 := by omega
  simp only [slice, if_neg (hplace _), Int.toNat_natCast]

end Text

namespace Scanner

variable {s : Scanner} {c : Char} {rest : Text}

/-- How many characters are left. -/
def left (s : Scanner) : Nat := (s.source.length - s.position).toNat

theorem left_before (s : Scanner) (rest : Text) : (s.before rest).left = rest.length := by
  simp only [left, before]
  omega

theorem left_before_lt (s : Scanner) {cs : Text} (h : rest.length < cs.length) :
    (s.before rest).left < (s.before cs).left := by
  rw [left_before, left_before]
  exact h

theorem atEnd_before (s : Scanner) (rest : Text) : (s.before rest).atEnd = rest.isEmpty := by
  cases rest with
  | nil => simp [atEnd, before]
  | cons c rest =>
    rw [List.isEmpty_cons, atEnd, decide_eq_false_iff_not]
    simp only [before, List.length_cons]
    omega

theorem position_before (h : rest <:+ s.source) :
    (s.before rest).position = (s.source.length - rest.length : Nat) := by
  have hl := h.length_le
  simp only [before]
  omega

theorem peek_before (h : rest <:+ s.source) : (s.before rest).peek 0 = rest.head? := by
  obtain ⟨front, hf⟩ := h
  have hp := position_before (s := s) ⟨front, hf⟩
  rw [peek, Int.add_zero, hp, if_neg (by omega), Int.toNat_natCast, show (s.before rest).source =
    front ++ rest from hf.symm, ← hf, List.length_append, Nat.add_sub_cancel,
    List.getElem?_append_right (Nat.le_refl _), Nat.sub_self, List.head?_eq_getElem?]

theorem next_before (h : c :: rest <:+ s.source) :
    (s.before (c :: rest)).next = (.ok c, s.before rest) := by
  have hp := position_before h
  obtain ⟨front, hf⟩ := h
  have hlength : s.source.length - (c :: rest).length = front.length := by
    rw [← hf, List.length_append, Nat.add_sub_cancel]
  have hahead : (s.before (c :: rest)).ahead = c :: rest := by
    rw [ahead, visible, hp, if_neg (by omega), Int.toNat_natCast, hlength]
    show s.source.drop front.length = c :: rest
    rw [← hf, List.drop_left]
  have hrange : (s.before (c :: rest)).outOfRange = false := by
    rw [outOfRange, hp, decide_eq_false_iff_not]
    omega
  have hpos : (s.before (c :: rest)).position + 1 = (s.before rest).position := by
    simp only [before, List.length_cons]
    omega
  rw [next, hrange, hahead]
  show (Except.ok c, { s.before rest with position := (s.before (c :: rest)).position + 1 }) = _
  rw [hpos]

theorem slice_before {raw : Text} (h : raw ++ c :: rest <:+ s.source) :
    s.source.slice (s.before (raw ++ c :: rest)).position ((s.before rest).position - 1) = raw := by
  have hfirst := position_before h
  obtain ⟨front, hf⟩ := h
  have hlength : s.source.length = front.length + (raw.length + (rest.length + 1)) := by
    rw [← hf, List.length_append, List.length_append, List.length_cons]
  have hlast : (s.before rest).position - 1 = (front.length + raw.length : Nat) := by
    simp only [before]
    omega
  have hfront : s.source.length - (raw ++ c :: rest).length = front.length := by
    rw [List.length_append, List.length_cons]
    omega
  rw [hfirst, hlast, Text.slice_natCast, hfront, ← hf, List.take_length_add_append,
    List.drop_left, List.take_left]

end Scanner

namespace Lexer

variable {cs rest : Text}

/-! ## What is left of a line -/

theorem skipBlanks_isSuffix (cs : Text) : skipBlanks cs <:+ cs := by
  induction cs with
  | nil => exact List.suffix_rfl
  | cons c cs ih =>
    rw [skipBlanks]
    split
    · exact ih.trans (List.suffix_cons c cs)
    · split
      · exact List.nil_suffix
      · exact List.suffix_rfl

theorem isSuffix_of_readString {value : Text} (h : readString cs = .ok (value, rest)) :
    rest <:+ cs := by
  fun_induction readString cs generalizing value with
  | case1 => cases h
  | case2 cs =>
    cases h
    exact List.suffix_cons _ _
  | case3 => cases h
  | case4 e cs hq ih =>
    obtain ⟨⟨_, _⟩, hr, h⟩ := exists_ok_of_map_eq_ok h
    cases h
    exact (ih hr).trans ((List.suffix_cons _ _).trans (List.suffix_cons _ _))
  | case5 c cs hq hb ih =>
    obtain ⟨⟨_, _⟩, hr, h⟩ := exists_ok_of_map_eq_ok h
    cases h
    exact (ih hr).trans (List.suffix_cons _ _)

/-- The source of a command stands in front of its closing parenthesis. -/
theorem eq_append_of_readCommand {depth : Nat} {quoted : Bool} {raw : Text}
    (h : readCommand depth quoted cs = .ok (raw, rest)) : cs = raw ++ ')' :: rest := by
  fun_induction readCommand depth quoted cs generalizing raw with
  | case1 => cases h
  | case2 => cases h
  | case3 depth e cs ih =>
    obtain ⟨⟨_, _⟩, hr, h⟩ := exists_ok_of_map_eq_ok h
    cases h
    rw [ih hr]
    rfl
  | case4 depth c cs hc ih =>
    obtain ⟨⟨_, _⟩, hr, h⟩ := exists_ok_of_map_eq_ok h
    cases h
    rw [ih hr]
    rfl
  | case5 depth quoted c cs hq hd =>
    cases h
    rw [hd.1]
    rfl
  | case6 depth quoted c cs hq hd ih =>
    obtain ⟨⟨_, _⟩, hr, h⟩ := exists_ok_of_map_eq_ok h
    cases h
    rw [ih hr]
    rfl

theorem isSuffix_of_nextToken {token : Token}
    (h : nextToken cs = .ok (some (token, rest))) : rest <:+ cs := by
  have hs := skipBlanks_isSuffix cs
  rw [nextToken] at h
  cases hc : skipBlanks cs with
  | nil =>
    rw [hc] at h
    cases h
  | cons c tail =>
    rw [hc] at h hs
    have htail := (List.suffix_cons c tail).trans hs
    dsimp only at h
    split at h
    · obtain ⟨⟨value, behind⟩, hr, h⟩ := exists_ok_of_map_eq_ok h
      cases h
      exact (isSuffix_of_readString hr).trans htail
    · split at h
      · obtain ⟨⟨raw, behind⟩, hr, h⟩ := exists_ok_of_map_eq_ok h
        cases h
        rw [eq_append_of_readCommand hr] at htail
        exact ((List.suffix_cons _ _).trans (List.suffix_append _ _)).trans htail
      · split at h
        · cases h
        · cases h
          exact (List.dropWhile_suffix _).trans hs

theorem map_snd_map (f : Text → Text) (x : Except Cause (Text × Text)) :
    (x.map fun (raw, rest) => (f raw, rest)).map Prod.snd = x.map Prod.snd := by
  cases x <;> rfl

/-- Inside a string, a command goes on as it does behind the string. -/
theorem readCommand_quoted (depth : Nat) (cs : Text) :
    (readCommand depth true cs).map Prod.snd =
      (readString cs).bind fun (_, rest) =>
        (readCommand depth false rest).map Prod.snd := by
  fun_induction readString cs with
  | case1 => rfl
  | case2 cs =>
    rw [readCommand_quoted_of_ne (by decide), map_snd_map]
    rfl
  | case3 hq => rfl
  | case4 e cs hq ih =>
    rw [readCommand_escape, map_snd_map ('\\' :: e :: ·), ih]
    cases readString cs <;> rfl
  | case5 c cs hq hb ih =>
    rw [readCommand_quoted_of_ne hb, map_snd_map, bne_iff_ne.2 hq, ih]
    cases readString cs <;> rfl

end Lexer

namespace Checked

variable {s : Scanner} {c : Char} {rest : Text}

/-- Reads one character. -/
def advance (s : Scanner) : Except Fault (Char × Scanner) :=
  match s.next with
  | (.ok c, next) => .ok (c, next)
  | (.error e, _) => .error (.ofScanError e)

theorem advance_before (h : c :: rest <:+ s.source) :
    advance (s.before (c :: rest)) = .ok (c, s.before rest) := by
  rw [advance, Scanner.next_before h]

/-! ## Blanks and words -/

/-- One round of passing over blanks and a comment. -/
def skipBlanksRound (s : Scanner) : Except Fault (Round Scanner Scanner) :=
  if s.atEnd then .ok (.done s)
  else if (s.peek 0).all isBlank then do
    let (_, s) ← advance s
    return .again s
  else if s.peek 0 = some '#' then .ok (.again { s with position := s.source.length })
  else .ok (.done s)

/-- Moves to the next token. -/
def skipBlanks : Scanner → Except Fault Scanner := loop Scanner.left skipBlanksRound

theorem skipBlanksRound_cons (h : c :: rest <:+ s.source) :
    skipBlanksRound (s.before (c :: rest)) =
      if isBlank c then .ok (.again (s.before rest))
      else if c = '#' then .ok (.again (s.before []))
      else .ok (.done (s.before (c :: rest))) := by
  have hend : (⟨s.source, s.source.length⟩ : Scanner) = s.before [] := by
    simp [Scanner.before]
  rw [skipBlanksRound, Scanner.atEnd_before, Scanner.peek_before h, advance_before h,
    show (s.before (c :: rest)).source = s.source from rfl, hend]
  simp only [List.isEmpty_cons, Bool.false_eq_true, if_false, List.head?_cons, Option.all_some,
    Option.some.injEq]
  rfl

theorem skipBlanks_nil (s : Scanner) : skipBlanks (s.before []) = .ok (s.before []) := by
  refine loop_of_done ?_
  rw [skipBlanksRound, Scanner.atEnd_before]
  rfl

theorem skipBlanks_before (h : rest <:+ s.source) :
    skipBlanks (s.before rest) = .ok (s.before (Lexer.skipBlanks rest)) := by
  induction rest with
  | nil => exact skipBlanks_nil s
  | cons c rest ih =>
    have hround := skipBlanksRound_cons h
    rw [Lexer.skipBlanks]
    split
    · next hb =>
      rw [if_pos hb] at hround
      rw [skipBlanks, loop_of_again hround (s.left_before_lt (Nat.lt_succ_self _))]
      exact ih ((List.suffix_cons c rest).trans h)
    · next hb =>
      rw [if_neg hb] at hround
      split
      · next hc =>
        rw [if_pos hc] at hround
        rw [skipBlanks, loop_of_again hround (s.left_before_lt (Nat.zero_lt_succ _))]
        exact skipBlanks_nil s
      · next hc =>
        rw [if_neg hc] at hround
        exact loop_of_done hround

/-- One round of reading a word. -/
def wordRound : Text × Scanner → Except Fault (Round (Text × Scanner) (Text × Scanner))
  | (word, s) =>
    if !s.atEnd && !(s.peek 0).all isDelimiter then do
      let (c, s) ← advance s
      return .again (word ++ [c], s)
    else .ok (.done (word, s))

/-- Reads the word in front. -/
def readWord (s : Scanner) : Except Fault (Text × Scanner) := loop (·.2.left) wordRound ([], s)

theorem wordRound_cons (h : c :: rest <:+ s.source) (word : Text) :
    wordRound (word, s.before (c :: rest)) =
      if isDelimiter c then .ok (.done (word, s.before (c :: rest)))
      else .ok (.again (word ++ [c], s.before rest)) := by
  rw [wordRound, Scanner.atEnd_before, Scanner.peek_before h, advance_before h]
  show (if (!(c :: rest).isEmpty && !isDelimiter c) = true then _ else _) = _
  cases isDelimiter c <;> rfl

theorem loop_wordRound (h : rest <:+ s.source) (word : Text) :
    loop (·.2.left) wordRound (word, s.before rest) =
      .ok (word ++ Lexer.word rest, s.before (Lexer.afterWord rest)) := by
  induction rest generalizing word with
  | nil =>
    rw [loop_of_done (by rw [wordRound, Scanner.atEnd_before]; rfl), Lexer.word, Lexer.afterWord]
    simp
  | cons c rest ih =>
    have hround := wordRound_cons h word
    cases hd : isDelimiter c with
    | true =>
      rw [if_pos hd] at hround
      rw [loop_of_done hround]
      simp [Lexer.word, Lexer.afterWord, hd]
    | false =>
      rw [if_neg (by simp [hd])] at hround
      rw [loop_of_again hround (s.left_before_lt (Nat.lt_succ_self _)),
        ih ((List.suffix_cons c rest).trans h)]
      simp [Lexer.word, Lexer.afterWord, hd]

theorem readWord_before (h : rest <:+ s.source) :
    readWord (s.before rest) = .ok (Lexer.word rest, s.before (Lexer.afterWord rest)) :=
  loop_wordRound h []

/-! ## Strings -/

/-- One round of reading a string behind its opening quote. -/
def stringRound : Text × Scanner → Except Fault (Round (Text × Scanner) (Text × Scanner))
  | (value, s) =>
    if s.atEnd then .error (.ofCause .unterminatedString)
    else do
      let (c, s) ← advance s
      if c = '"' then return .done (value, s)
      else if c = '\\' ∧ !s.atEnd then
        let (e, s) ← advance s
        return .again (value ++ Lexer.escaped e, s)
      else return .again (value ++ [c], s)

/-- Reads the string whose opening quote is in front. -/
def readString (s : Scanner) : Except Fault (Text × Scanner) := do
  let (_, s) ← advance s
  loop (·.2.left) stringRound ([], s)

theorem stringRound_nil (value : Text) :
    stringRound (value, s.before []) = .error (.ofCause .unterminatedString) := by
  rw [stringRound, Scanner.atEnd_before]
  rfl

theorem stringRound_of_ne (h : c :: rest <:+ s.source) (hq : c ≠ '"') (hb : c ≠ '\\' ∨ rest = [])
    (value : Text) :
    stringRound (value, s.before (c :: rest)) = .ok (.again (value ++ [c], s.before rest)) := by
  have hescape : ¬ (c = '\\' ∧ (!rest.isEmpty) = true) := by
    rintro ⟨hc, he⟩
    rcases hb with hb | rfl
    · exact hb hc
    · cases he
  rw [stringRound, Scanner.atEnd_before, advance_before h]
  show (if c = '"' then _ else if c = '\\' ∧ (!(s.before rest).atEnd) = true then _ else _) = _
  rw [Scanner.atEnd_before, if_neg hq, if_neg hescape]
  rfl

theorem stringRound_quote (h : '"' :: rest <:+ s.source) (value : Text) :
    stringRound (value, s.before ('"' :: rest)) = .ok (.done (value, s.before rest)) := by
  rw [stringRound, Scanner.atEnd_before, advance_before h]
  rfl

theorem stringRound_escape {e : Char} (h : '\\' :: e :: rest <:+ s.source) (value : Text) :
    stringRound (value, s.before ('\\' :: e :: rest)) =
      .ok (.again (value ++ Lexer.escaped e, s.before rest)) := by
  rw [stringRound, Scanner.atEnd_before, advance_before h]
  show (if '\\' = '\\' ∧ (!(s.before (e :: rest)).atEnd) = true then _ else _) = _
  rw [Scanner.atEnd_before, advance_before ((List.suffix_cons _ _).trans h)]
  rfl

/-- A text that is read in two parts is read in one. -/
theorem map_append_append (front text : Text) (x : Except Cause (Text × Text)) :
    (x.map fun (more, rest) => (front ++ text ++ more, s.before rest)).mapError Fault.ofCause =
      ((x.map fun (more, rest) => (text ++ more, rest)).map fun (more, rest) =>
        (front ++ more, s.before rest)).mapError .ofCause := by
  cases x with
  | error cause => rfl
  | ok next =>
    show Except.ok (front ++ text ++ next.1, _) = .ok (front ++ (text ++ next.1), _)
    rw [List.append_assoc]

theorem loop_stringRound (h : rest <:+ s.source) (value : Text) :
    loop (·.2.left) stringRound (value, s.before rest) =
      ((Lexer.readString rest).map fun (text, rest) => (value ++ text, s.before rest)).mapError
        .ofCause := by
  fun_induction Lexer.readString rest generalizing value with
  | case1 => exact loop_of_error (stringRound_nil value)
  | case2 rest =>
    rw [loop_of_done (stringRound_quote h value)]
    show Except.ok (value, s.before rest) = .ok (value ++ [], s.before rest)
    rw [List.append_nil]
  | case3 hq =>
    rw [loop_of_again (stringRound_of_ne h hq (.inr rfl) value)
        (s.left_before_lt (Nat.lt_succ_self _)),
      loop_of_error (stringRound_nil _)]
    rfl
  | case4 e rest hq ih =>
    have hlength : rest.length < ('\\' :: e :: rest).length :=
      Nat.lt_succ_of_lt (Nat.lt_succ_self _)
    rw [loop_of_again (stringRound_escape h value) (s.left_before_lt hlength),
      ih (((List.suffix_cons _ _).trans (List.suffix_cons _ _)).trans h)]
    exact map_append_append _ _ (Lexer.readString rest)
  | case5 c rest hq hb ih =>
    rw [loop_of_again (stringRound_of_ne h hq (.inl hb) value)
        (s.left_before_lt (Nat.lt_succ_self _)),
      ih ((List.suffix_cons _ _).trans h)]
    exact map_append_append _ _ (Lexer.readString rest)

theorem readString_before (h : c :: rest <:+ s.source) :
    readString (s.before (c :: rest)) =
      ((Lexer.readString rest).map fun (text, rest) => (text, s.before rest)).mapError
        .ofCause := by
  rw [readString, advance_before h]
  exact loop_stringRound ((List.suffix_cons _ _).trans h) []

/-! ## Commands -/

/-- One round of reading a command behind its opening parenthesis, which stands in front of
`start`. -/
def commandRound (start : Int) :
    Int × Scanner → Except Fault (Round (Int × Scanner) (Text × Scanner))
  | (depth, s) =>
    if s.atEnd then .error (.ofCause .unclosedParenthesis)
    else if s.peek 0 = some '"' then do
      let (_, s) ← readString s
      return .again (depth, s)
    else do
      let (_, next) ← advance s
      if s.peek 0 = some '(' then return .again (depth + 1, next)
      else if s.peek 0 = some ')' then
        if depth - 1 = 0 then return .done (s.source.slice start (next.position - 1), next)
        else return .again (depth - 1, next)
      else return .again (depth, next)

/-- Reads the command whose opening parenthesis is in front. -/
def readCommand (s : Scanner) : Except Fault (Text × Scanner) := do
  let (_, s) ← advance s
  loop (·.2.left) (commandRound s.position) (1, s)

theorem commandRound_of_ne (h : c :: rest <:+ s.source) (hq : c ≠ '"') {depth : Nat}
    (hc : ¬ (c = ')' ∧ depth = 0)) (start : Int) :
    commandRound start ((depth + 1 : Nat), s.before (c :: rest)) =
      .ok (.again ((Lexer.depthAfter depth c + 1 : Nat), s.before rest)) := by
  rw [commandRound, Scanner.atEnd_before, Scanner.peek_before h, advance_before h]
  simp only [List.isEmpty_cons, Bool.false_eq_true, if_false, List.head?_cons, Option.some.injEq,
    if_neg hq]
  show (if c = '(' then _ else if c = ')' then _ else _) = _
  rw [Lexer.depthAfter]
  by_cases ho : c = '('
  · rw [if_pos ho, if_pos ho]
    rfl
  · rw [if_neg ho, if_neg ho]
    by_cases hcl : c = ')'
    · have hd : depth ≠ 0 := fun hd => hc ⟨hcl, hd⟩
      have hdepth : ((depth + 1 : Nat) : Int) - 1 = (depth - 1 + 1 : Nat) := by omega
      rw [if_pos hcl, if_pos hcl, if_neg (by omega), hdepth]
      rfl
    · rw [if_neg hcl, if_neg hcl]
      rfl

theorem commandRound_close (h : ')' :: rest <:+ s.source) (start : Int) :
    commandRound start ((1 : Nat), s.before (')' :: rest)) =
      .ok (.done (s.source.slice start ((s.before rest).position - 1), s.before rest)) := by
  rw [commandRound, Scanner.atEnd_before, Scanner.peek_before h, advance_before h]
  rfl

/-- The rounds of reading a command pass the same characters as `Lexer.readCommand`, which goes
through the strings inside character by character. -/
theorem loop_commandRound (start : Int) : ∀ (rest : Text) (depth : Nat), rest <:+ s.source →
    loop (·.2.left) (commandRound start) (((depth + 1 : Nat) : Int), s.before rest) =
      (((Lexer.readCommand depth false rest).map Prod.snd).map fun rest =>
        (s.source.slice start ((s.before rest).position - 1), s.before rest)).mapError .ofCause
  | [], depth, h => by
    refine loop_of_error ?_
    rw [commandRound, Scanner.atEnd_before]
    rfl
  | c :: rest, depth, h => by
    have hrest : rest <:+ s.source := (List.suffix_cons _ _).trans h
    by_cases hq : c = '"'
    · -- One round passes the whole string, so the induction is on the length of what is left.
      subst hq
      have hround : commandRound start (((depth + 1 : Nat) : Int), s.before ('"' :: rest)) =
          ((Lexer.readString rest).map fun (_, rest) =>
            .again (((depth + 1 : Nat) : Int), s.before rest)).mapError .ofCause := by
        rw [commandRound, Scanner.atEnd_before, Scanner.peek_before h, readString_before h]
        cases Lexer.readString rest <;> rfl
      rw [Lexer.readCommand_of_not_close (by simp), Lexer.map_snd_map, beq_self_eq_true,
        Lexer.readCommand_quoted]
      cases hs : Lexer.readString rest with
      | error cause =>
        rw [hs] at hround
        exact loop_of_error hround
      | ok string =>
        obtain ⟨value, behind⟩ := string
        rw [hs] at hround
        have hlength := Lexer.length_of_readString hs
        rw [loop_of_again hround (s.left_before_lt (Nat.lt_succ_of_lt hlength))]
        exact loop_commandRound start behind depth ((Lexer.isSuffix_of_readString hs).trans hrest)
    · by_cases hc : c = ')' ∧ depth = 0
      · obtain ⟨rfl, rfl⟩ := hc
        rw [loop_of_done (commandRound_close h start), Lexer.readCommand_close]
        rfl
      · rw [loop_of_again (commandRound_of_ne h hq hc start)
            (s.left_before_lt (Nat.lt_succ_self _)),
          Lexer.readCommand_of_not_close hc, Lexer.map_snd_map, beq_eq_false_iff_ne.2 hq]
        exact loop_commandRound start rest (Lexer.depthAfter depth c) hrest
termination_by rest => rest.length

theorem readCommand_before (h : c :: rest <:+ s.source) :
    readCommand (s.before (c :: rest)) =
      ((Lexer.readCommand 0 false rest).map fun (raw, rest) => (raw, s.before rest)).mapError
        .ofCause := by
  have hrest : rest <:+ s.source := (List.suffix_cons _ _).trans h
  rw [readCommand, advance_before h]
  refine (loop_commandRound _ rest 0 hrest).trans ?_
  cases hr : Lexer.readCommand 0 false rest with
  | error cause => rfl
  | ok command =>
    obtain ⟨raw, behind⟩ := command
    have hraw := Lexer.eq_append_of_readCommand hr
    rw [hraw] at hrest ⊢
    show Except.ok (s.source.slice _ _, s.before behind) = _
    rw [Scanner.slice_before hrest]
    rfl

/-! ## All tokens -/

/-- Reads the next token, if there is one. -/
def nextToken (s : Scanner) : Except Fault (Option Token × Scanner) := do
  let s ← skipBlanks s
  if s.atEnd then return (none, s)
  else if s.peek 0 = some '"' then
    let (text, s) ← readString s
    return (some (.literal text), s)
  else if s.peek 0 = some '(' then
    let (source, s) ← readCommand s
    return (some (.command source), s)
  else if s.peek 0 = some ')' then .error (.ofCause .strayParenthesis)
  else
    let (word, s) ← readWord s
    return (some (.literal word), s)

/-- One round of reading the tokens of a line. -/
def tokensRound :
    List Token × Scanner → Except Fault (Round (List Token × Scanner) (List Token))
  | (tokens, s) => do
    let (token?, s) ← nextToken s
    match token? with
    | none => return .done tokens
    | some token => return .again (tokens ++ [token], s)

/-- The tokens of a line. -/
def tokenize (line : Text) : Except Fault (List Token) :=
  loop (·.2.left) tokensRound ([], ⟨line, 0⟩)

theorem nextToken_before (h : rest <:+ s.source) :
    nextToken (s.before rest) =
      ((Lexer.nextToken rest).map fun
        | none => (none, s.before [])
        | some (token, rest) => (some token, s.before rest)).mapError .ofCause := by
  have hrest := (Lexer.skipBlanks_isSuffix rest).trans h
  rw [nextToken, skipBlanks_before h, Lexer.nextToken]
  show (if (s.before (Lexer.skipBlanks rest)).atEnd = true then _ else _) = _
  rw [Scanner.atEnd_before, Scanner.peek_before hrest]
  cases hs : Lexer.skipBlanks rest with
  | nil => rfl
  | cons c cs =>
    rw [hs] at hrest
    simp only [List.isEmpty_cons, Bool.false_eq_true, if_false, List.head?_cons,
      Option.some.injEq]
    rw [readString_before hrest, readCommand_before hrest, readWord_before hrest]
    by_cases hq : c = '"'
    · rw [if_pos hq, if_pos hq]
      cases Lexer.readString cs <;> rfl
    · rw [if_neg hq, if_neg hq]
      by_cases ho : c = '('
      · rw [if_pos ho, if_pos ho]
        cases Lexer.readCommand 0 false cs <;> rfl
      · rw [if_neg ho, if_neg ho]
        by_cases hc : c = ')'
        · rw [if_pos hc, if_pos hc]
          rfl
        · rw [if_neg hc, if_neg hc]
          rfl

/-- The rounds of reading tokens read those of what is left, which each of them makes shorter. -/
theorem loop_tokensRound : ∀ (rest : Text) (tokens : List Token), rest <:+ s.source →
    loop (·.2.left) tokensRound (tokens, s.before rest) =
      ((BlockScript.tokenize rest).map (tokens ++ ·)).mapError .ofCause
  | rest, tokens, h => by
    have hround : tokensRound (tokens, s.before rest) =
        ((Lexer.nextToken rest).map fun
          | none => .done tokens
          | some (token, rest) => .again (tokens ++ [token], s.before rest)).mapError
            .ofCause := by
      rw [tokensRound, nextToken_before h]
      cases Lexer.nextToken rest with
      | error cause => rfl
      | ok next? => cases next? <;> rfl
    cases hn : Lexer.nextToken rest with
    | error cause =>
      rw [hn] at hround
      rw [loop_of_error hround, tokenize_of_error hn]
      rfl
    | ok next? =>
      rw [hn] at hround
      cases next? with
      | none =>
        rw [loop_of_done hround, tokenize_of_none hn]
        show Except.ok tokens = .ok (tokens ++ [])
        rw [List.append_nil]
      | some next =>
        obtain ⟨token, behind⟩ := next
        have hlength := Lexer.length_of_nextToken hn
        rw [loop_of_again hround (s.left_before_lt hlength),
          loop_tokensRound behind _ ((Lexer.isSuffix_of_nextToken hn).trans h), tokenize_of_some hn]
        cases BlockScript.tokenize behind with
        | error cause => rfl
        | ok more => exact congrArg Except.ok (List.append_assoc tokens [token] more)
termination_by rest => rest.length

/-- Reading the tokens of a line with every step checked meets no fault but the mistake that the
line is refused for. -/
theorem tokenize_eq (line : Text) :
    tokenize line = (BlockScript.tokenize line).mapError .ofCause := by
  have hstart : (⟨line, 0⟩ : Scanner) = (⟨line, 0⟩ : Scanner).before line := by
    simp [Scanner.before]
  rw [tokenize, hstart, loop_tokensRound line [] List.suffix_rfl]
  cases BlockScript.tokenize line <;> rfl

end Checked

end BlockScript
