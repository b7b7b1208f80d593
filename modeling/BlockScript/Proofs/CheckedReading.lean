import BlockScript.Program.Cursor
import BlockScript.Proofs.CheckedLexing
import BlockScript.Proofs.Concatenation

/-!
# Blocks read with every step checked

The readers of this file go on from `Checked.tokenize` to the blocks of a script: every element of
a list is fetched by its position, every tree is made of parts that are checked to fit, every level
of loops or commands is taken from those that are left, and every loop comes closer to its end or
faults.  In front of any lines of a script they come to what the readings of these lines come to
(`Checked.Agrees`, `Checked.agrees_nextBlock`, `Checked.agrees_readBody`).
-/

namespace BlockScript

section Except

variable {ε δ α β : Type}

theorem mapM_mapError (f : α → Except ε β) (g : ε → δ) (as : List α) :
    (as.mapM fun a => (f a).mapError g) = (as.mapM f).mapError g := by
  induction as with
  | nil => rfl
  | cons a as ih =>
    rw [List.mapM_cons, List.mapM_cons, ih]
    cases f a with
    | error e => rfl
    | ok b => cases as.mapM f <;> rfl

end Except

namespace Fault

/-- A mistake as seen from a line that contains it; other faults are not seen from lines. -/
def within (line : Int) : Fault → Fault
  | .refused e => .refused { e with trace := line :: e.trace }
  | fault => fault

/-- A fault as a whole program reports it: for want of levels the source is refused. -/
def atTopLevel (line : Int) : Fault → Fault
  | .tooDeep => .refused ⟨[line], .nestingTooDeep⟩
  | fault => fault

theorem ofError_within (line : Int) (e : ParseError) :
    ofError (e.within line) = (ofError e).within line := by
  unfold ParseError.within
  by_cases h : e.cause = .nestingTooDeep
  · rw [if_pos h, ofError, if_pos h]
    rfl
  · rw [if_neg h, ofError, ofError, if_neg h, if_neg h]
    rfl

theorem atTopLevel_ofError (line : Int) (e : ParseError) :
    (ofError e).atTopLevel line = .refused (e.atTopLevel line) := by
  obtain ⟨trace, cause⟩ := e
  by_cases h : cause = .nestingTooDeep
  · subst h
    rfl
  · rw [ofError, if_neg h, ParseError.atTopLevel, if_neg h]
    rfl

end Fault

namespace Cursor

/-- How many lines are left. -/
def left (c : Cursor) : Nat := (c.script.lines.length - c.position).toNat

/-- The cursor one line further down. -/
def down (c : Cursor) : Cursor := { c with position := c.position + 1 }

/-- The cursor of the same script that has `lines` in front of it. -/
def before (c : Cursor) (lines : List Line) : Cursor :=
  { c with position := c.script.lines.length - lines.length }

theorem left_before (c : Cursor) (lines : List Line) : (c.before lines).left = lines.length := by
  simp only [left, before]
  omega

theorem atEnd_before (c : Cursor) (lines : List Line) :
    (c.before lines).atEnd = lines.isEmpty := by
  cases lines with
  | nil => simp [atEnd, before]
  | cons line lines =>
    rw [List.isEmpty_cons, atEnd, decide_eq_false_iff_not]
    simp only [before, List.length_cons]
    omega

theorem down_before (c : Cursor) (line : Line) (lines : List Line) :
    (c.before (line :: lines)).down = c.before lines := by
  simp only [down, before, List.length_cons, Cursor.mk.injEq, true_and]
  omega

/-- Less is left behind a line and some of those that follow it. -/
theorem left_before_drop_lt (c : Cursor) (line : Line) (lines : List Line) (n : Nat) :
    (c.before (lines.drop n)).left < (c.before (line :: lines)).left := by
  rw [left_before, left_before, List.length_drop, List.length_cons]
  omega

end Cursor

namespace Checked

variable {α : Type}

/-- The element of a list at a position, which may be counted from the back. -/
def fetch (as : List α) (i : Int) : Except Fault α :=
  ((signedIndex? as.length i).bind (as[·]?)).elim (.error (.outOfRange i)) .ok

theorem fetch_natCast {as : List α} {a : α} {i : Nat} (h : as[i]? = some a) :
    fetch as i = .ok a := by
  rw [fetch, signedIndex?_natCast (List.getElem?_eq_some_iff.1 h).1, Option.bind_some, h]
  rfl

theorem fetch_zero (a : α) (as : List α) : fetch (a :: as) 0 = .ok a :=
  fetch_natCast (show (a :: as)[0]? = some a from rfl)

theorem fetch_one (a b : α) (as : List α) : fetch (a :: b :: as) 1 = .ok b :=
  fetch_natCast (show (a :: b :: as)[1]? = some b from rfl)

theorem fetch_last {as : List α} {a : α} (h : as.getLast? = some a) : fetch as (-1) = .ok a := by
  have hne : as.length ≠ 0 := by
    intro hl
    rw [List.length_eq_zero_iff.1 hl] at h
    cases h
  have hi : signedIndex? as.length (-1) = some (as.length - 1) := by
    rw [signedIndex?, if_neg (by omega), if_pos (by omega)]
    congr 1
    omega
  rw [List.getLast?_eq_getElem?] at h
  rw [fetch, hi, Option.bind_some, h]
  rfl

/-! ## Logical lines -/

/-- What has been split off a source: the texts and the numbers of the logical lines so far, and
the text and the number of an unfinished one. -/
structure Splitting where
  texts : List Text
  numbers : List Int
  pending? : Option Text
  start : Int

namespace Splitting

/-- Adds a piece between line feeds, given with its number. -/
def add (s : Splitting) (entry : Text × Nat) : Splitting :=
  let piece := Script.physicalLine entry.1
  let pending := s.pending?.getD []
  let start := if s.pending?.isNone then (entry.2 : Int) else s.start
  match Text.chop? '\\' piece with
  | some front => ⟨s.texts, s.numbers, some (pending ++ front), start⟩
  | none => ⟨s.texts ++ [pending ++ piece], s.numbers ++ [start], none, start⟩

/-- The script of the logical lines, if none is unfinished. -/
def finish (s : Splitting) : Except Fault Script :=
  if s.pending?.isSome then .error (.ofCause (.danglingContinuation s.start))
  else (Script.ofParts? s.texts s.numbers).elim (.error .unfitParts) .ok

/-- The line that is unfinished. -/
def line? (s : Splitting) : Option Line := s.pending?.map (⟨·, s.start⟩)

variable {s : Splitting} {piece : Text} {n : Nat}

theorem add_of_some {front : Text} (h : Text.chop? '\\' (Script.physicalLine piece) = some front) :
    s.add (piece, n) = ⟨s.texts, s.numbers, some ((s.line?.getD ⟨[], n⟩).text ++ front),
      (s.line?.getD ⟨[], n⟩).number⟩ := by
  obtain ⟨texts, numbers, pending?, start⟩ := s
  rw [add, h]
  cases pending? <;> rfl

theorem add_of_none (h : Text.chop? '\\' (Script.physicalLine piece) = none) :
    s.add (piece, n) =
      ⟨s.texts ++ [(s.line?.getD ⟨[], n⟩).text ++ Script.physicalLine piece],
        s.numbers ++ [(s.line?.getD ⟨[], n⟩).number], none, (s.line?.getD ⟨[], n⟩).number⟩ := by
  obtain ⟨texts, numbers, pending?, start⟩ := s
  rw [add, h]
  cases pending? <;> rfl

end Splitting

/-- The script of a source. -/
def script (source : Text) : Except Fault Script :=
  (((Text.lines source).zipIdx 1).foldl Splitting.add ⟨[], [], none, 0⟩).finish

/-- The pieces of a source are joined to logical lines as by `Script.joinContinued`, with as many
numbers as texts all along. -/
theorem finish_foldl_add (pieces : List Text) (n : Nat) (s : Splitting)
    (h : s.texts.length = s.numbers.length) :
    ((pieces.zipIdx n).foldl Splitting.add s).finish =
      ((Script.joinContinued n s.line? (pieces.map Script.physicalLine)).map fun lines =>
        ⟨List.zipWith Line.mk s.texts s.numbers ++ lines⟩).mapError fun cause =>
          .refused ⟨[], cause⟩ := by
  induction pieces generalizing n s with
  | nil =>
    obtain ⟨texts, numbers, pending?, start⟩ := s
    cases pending? with
    | none =>
      rw [List.zipIdx_nil, List.foldl_nil, Splitting.finish, Script.ofParts?, if_pos h]
      simp [Splitting.line?, Script.joinContinued, Except.map, Except.mapError]
    | some pending => rfl
  | cons piece pieces ih =>
    rw [List.zipIdx_cons, List.foldl_cons, List.map_cons]
    cases hp : Text.chop? '\\' (Script.physicalLine piece) with
    | some front =>
      rw [Splitting.add_of_some hp, Script.joinContinued_of_some hp]
      exact ih (n + 1) _ h
    | none =>
      have hlength : (s.texts ++ [(s.line?.getD ⟨[], n⟩).text ++ Script.physicalLine piece]).length =
          (s.numbers ++ [(s.line?.getD ⟨[], n⟩).number]).length := by
        rw [List.length_append, List.length_append, h]
        rfl
      rw [Splitting.add_of_none hp, Script.joinContinued_of_none hp, ih _ _ hlength]
      simp only [List.zipWith_append h, Splitting.line?, Option.map_none]
      cases Script.joinContinued (n + 1) none (pieces.map Script.physicalLine) <;>
        simp [Except.map, Except.mapError]

theorem script_eq (source : Text) :
    script source = (Script.ofSource source).mapError .refused := by
  rw [script, finish_foldl_add _ _ _ rfl, Script.ofSource]
  show ((Script.joinContinued 1 none _).map _).mapError _ = _
  cases Script.joinContinued 1 none ((Text.lines source).map Script.physicalLine) <;> rfl

/-! ## Commands -/

/-- The argument made from the parts that are given. -/
def argument (text? : Option Text) (command? : Option Command) : Except Fault Argument :=
  (Argument.ofParts? text? command?).elim (.error .unfitParts) .ok

/-- The command of some tokens, given how to read one of them. -/
def commandOf (read : Token → Except Fault Argument) (tokens : List Token) :
    Except Fault Command :=
  if tokens.isEmpty then .error (.ofCause .emptyCommand)
  else do
    let args ← tokens.mapM read
    return ⟨← fetch args 0, args.tail⟩

/-- The argument that a token stands for, with at most `depth` levels of commands inside. -/
def argumentOf : Nat → Token → Except Fault Argument
  | _, .literal text => argument (some text) none
  | 0, .command _ => .error .tooDeep
  | depth + 1, .command source => do
    let tokens ← tokenize source
    argument none (some (← commandOf (argumentOf depth) tokens))

theorem commandOf_eq (f : Token → Except Cause Argument) (tokens : List Token) :
    commandOf (fun token => (f token).mapError .ofCause) tokens =
      (Command.ofTokensWith f tokens).mapError .ofCause := by
  cases tokens with
  | nil => rfl
  | cons name args =>
    rw [commandOf, mapM_mapError, Command.ofTokensWith, List.mapM_cons]
    cases f name with
    | error cause => rfl
    | ok a =>
      cases args.mapM f with
      | error cause => rfl
      | ok as =>
        show (do return (⟨← fetch (a :: as) 0, as⟩ : Command)) = .ok ⟨a, as⟩
        rw [fetch_zero]
        rfl

theorem argumentOf_eq (depth : Nat) :
    argumentOf depth = fun token => (Argument.ofToken depth token).mapError .ofCause := by
  induction depth with
  | zero =>
    funext token
    cases token <;> rfl
  | succ depth ih =>
    funext token
    cases token with
    | literal text => rfl
    | command source =>
      rw [argumentOf, tokenize_eq, ih, Argument.ofToken]
      cases BlockScript.tokenize source with
      | error cause => rfl
      | ok tokens =>
        show commandOf _ tokens >>= _ =
          (Command.ofTokensWith (Argument.ofToken depth) tokens >>= _).mapError _
        rw [commandOf_eq]
        cases Command.ofTokensWith (Argument.ofToken depth) tokens with
        | error cause => rfl
        | ok command => rfl

/-! ## Blocks -/

/-- The line at the position of a cursor. -/
def currentLine (c : Cursor) : Except Fault Line := fetch c.script.lines c.position

/-- The tokens of a line; none if the line is refused, which is left to the reader of its block. -/
def tokensOrNone (text : Text) : Except Fault (List Token) :=
  match tokenize text with
  | .error (.refused _) => .ok []
  | result => result

/-- Whether some tokens are a header. -/
def opensBody (tokens : List Token) : Except Fault Bool :=
  if tokens.length ≤ 1 then .ok false
  else do return (← fetch tokens (-1)) = .bodyMark

/-- Whether some tokens begin with the mark that closes a body. -/
def closesBody (tokens : List Token) : Except Fault Bool :=
  if tokens.isEmpty then .ok false
  else do return (← fetch tokens 0) = .bodyMark

section Blocks

variable (depth : Nat) (readBody : Cursor → Except Fault (List Block × Cursor))

/-- The arguments in a header, between its first token and its last. -/
def headerArguments (tokens : List Token) : Except Fault (List Argument) :=
  tokens.tail.dropLast.mapM (argumentOf depth)

/-- Reads the loop over values with the given header. -/
def readForEach (tokens : List Token) (c : Cursor) : Except Fault (Block × Cursor) := do
  if !(← opensBody tokens) then .error (.ofCause .unopenedFor)
  else if tokens.length ≠ 3 ∧ tokens.length ≠ 4 then .error (.ofCause .forArity)
  else
    let args ← headerArguments depth tokens
    let (body, c) ← readBody c
    if args.length = 1 then return (.forEach none (← fetch args 0) body, c)
    else return (.forEach (some (← fetch args 0)) (← fetch args 1) body, c)

/-- Reads the loop under a condition with the given header. -/
def readWhile (tokens : List Token) (c : Cursor) : Except Fault (Block × Cursor) := do
  if !(← opensBody tokens) then .error (.ofCause .unopenedWhile)
  else
    let condition ← headerArguments depth tokens
    let (body, c) ← readBody c
    return (.whileLoop condition body, c)

/-- Reads the block that begins with a line of the given tokens, which the cursor has passed. -/
def readStatement (tokens : List Token) (c : Cursor) : Except Fault (Block × Cursor) := do
  let first ← fetch tokens 0
  if first = .forWord then readForEach depth readBody tokens c
  else if first = .whileWord then readWhile depth readBody tokens c
  else return (.command (← commandOf (argumentOf depth) tokens), c)

/-- Reads the block at the position of the cursor; there is none on a line without tokens. -/
def nextBlock (c : Cursor) : Except Fault (Option Block × Cursor) :=
  if c.atEnd then .ok (none, c)
  else do
    let line ← currentLine c
    let tokens ← (tokenize line.text).mapError (.within line.number)
    if tokens.isEmpty then return (none, c.down)
    else
      let (block, c) ← (readStatement depth readBody tokens c.down).mapError (.within line.number)
      return (some block, c)

/-- One round of reading a body. -/
def bodyRound (allowExtra : Bool) : List Block × Cursor →
    Except Fault (Round (List Block × Cursor) (List Block × Cursor))
  | (body, c) =>
    if c.atEnd then .error (.ofCause .unclosedBody)
    else do
      let line ← currentLine c
      let tokens ← tokensOrNone line.text
      if ← closesBody tokens then
        if !allowExtra ∧ 1 < tokens.length then .error (.ofCause .textAfterClose)
        else return .done (body, c.down)
      else
        let (block?, c) ← nextBlock depth readBody c
        return .again (body ++ block?.toList, c)

end Blocks

/-- Reads the body of a loop, when there are `depth` levels left in front of it. -/
def readBody : Nat → Cursor → Except Fault (List Block × Cursor)
  | 0, _ => .error .tooDeep
  | depth + 1, c => loop (·.2.left) (bodyRound depth (readBody depth) false) ([], c)

/-! ## Agreement -/

section Agreement

variable {β : Type} {c : Cursor} {line : Line} {lines : List Line}

theorem currentLine_before (h : line :: lines <:+ c.script.lines) :
    currentLine (c.before (line :: lines)) = .ok line := by
  obtain ⟨front, hf⟩ := h
  have hposition : (c.before (line :: lines)).position = (front.length : Nat) := by
    simp only [Cursor.before, ← hf, List.length_append]
    omega
  rw [currentLine, hposition]
  refine fetch_natCast ?_
  show c.script.lines[front.length]? = some line
  rw [← hf, List.getElem?_append_right (Nat.le_refl _), Nat.sub_self]
  rfl

theorem drop_isSuffix (h : line :: lines <:+ c.script.lines) (n : Nat) :
    lines.drop n <:+ c.script.lines :=
  (List.drop_suffix n lines).trans ((List.suffix_cons line lines).trans h)

/-- What a reading comes to for a cursor in front of the lines that it goes through. -/
def outcome (c : Cursor) (lines : List Line) (r : Reading α) : Except Fault (α × Cursor) :=
  (r.result.map fun a => (a, c.before (lines.drop r.passed))).mapError .ofError

theorem outcome_map (f : α → β) (r : Reading α) :
    outcome c lines (r.map f) = (outcome c lines r).map fun (a, c) => (f a, c) := by
  obtain ⟨result, passed⟩ := r
  cases result <;> rfl

theorem outcome_after (n : Nat) (r : Reading α) :
    outcome c lines (r.after n) = outcome c (lines.drop n) r := by
  rw [outcome, outcome, List.drop_drop]
  rfl

theorem outcome_within (n : Int) (r : Reading α) :
    outcome c lines (r.within n) = (outcome c lines r).mapError (.within n) := by
  obtain ⟨result, passed⟩ := r
  cases result with
  | ok a => rfl
  | error e => exact congrArg Except.error (Fault.ofError_within n e)

theorem outcome_ofExcept_andThen (x : Except Cause α) (next : α → Reading β) :
    outcome c lines ((Reading.ofExcept x).andThen next) =
      x.mapError .ofCause >>= fun a => outcome c lines (next a) := by
  cases x with
  | error cause => rfl
  | ok a =>
    rw [Reading.ofExcept_ok_andThen]
    rfl

/-- In front of any lines of a script, a checked reader comes to what the reading of these lines
comes to. -/
def Agrees (checked : Cursor → Except Fault (α × Cursor)) (read : List Line → Reading α) : Prop :=
  ∀ (c : Cursor) (lines : List Line), lines <:+ c.script.lines →
    checked (c.before lines) = outcome c lines (read lines)

theorem opensBody_eq (tokens : List Token) : opensBody tokens = .ok (Block.opensBody tokens) := by
  rw [opensBody, Block.opensBody]
  split
  · next h => simp [Nat.not_lt.2 h]
  · next h =>
    have hne : tokens ≠ [] := fun hn => h (by simp [hn])
    have hlast := List.getLast?_eq_getLast_of_ne_nil hne
    rw [fetch_last hlast, hlast, decide_eq_true (Nat.not_le.1 h), Bool.true_and]
    rfl

theorem headerArguments_eq (depth : Nat) (tokens : List Token) :
    headerArguments depth tokens =
      (Argument.ofTokens depth tokens.tail.dropLast).mapError .ofCause := by
  rw [headerArguments, argumentOf_eq, mapM_mapError, Argument.ofTokens]

variable {depth : Nat} {readBody : Cursor → Except Fault (List Block × Cursor)}
  {body : List Line → Reading (List Block)}

theorem agrees_readWhile (hbody : Agrees readBody body) (tokens : List Token) :
    Agrees (readWhile depth readBody tokens) (Block.readWhile depth body tokens) := by
  intro c lines h
  rw [readWhile, opensBody_eq, Block.readWhile]
  cases Block.opensBody tokens with
  | false => rfl
  | true =>
    show headerArguments depth tokens >>= _ = outcome c lines (Reading.andThen _ _)
    rw [headerArguments_eq, outcome_ofExcept_andThen, Block.headerArguments]
    cases Argument.ofTokens depth tokens.tail.dropLast with
    | error cause => rfl
    | ok condition =>
      show readBody (c.before lines) >>= _ = outcome c lines (Reading.map _ _)
      rw [hbody c lines h, outcome_map]
      cases outcome c lines (body lines) <;> rfl

theorem agrees_readForEach (hbody : Agrees readBody body) (tokens : List Token) :
    Agrees (readForEach depth readBody tokens) (Block.readForEach depth body tokens) := by
  intro c lines h
  rw [readForEach, opensBody_eq, Block.readForEach]
  cases hopens : Block.opensBody tokens with
  | false => rfl
  | true =>
    -- The header is taken apart by the number of its tokens.
    rcases tokens with _ | ⟨word, _ | ⟨a, _ | ⟨b, _ | ⟨d, _ | ⟨e, tokens⟩⟩⟩⟩⟩
    · cases hopens
    · cases hopens
    · rfl
    · show headerArguments depth [word, a, b] >>= _ = outcome c lines (Reading.andThen _ _)
      rw [headerArguments_eq, outcome_ofExcept_andThen]
      show (Argument.ofTokens depth [a]).mapError _ >>= _ = _
      rw [Argument.ofTokens, List.mapM_cons, List.mapM_nil]
      cases Argument.ofToken depth a with
      | error cause => rfl
      | ok value =>
        show readBody (c.before lines) >>= _ = outcome c lines (Reading.map _ _)
        rw [hbody c lines h, outcome_map]
        cases outcome c lines (body lines) with
        | error fault => rfl
        | ok next =>
          show (do return (Block.forEach none (← fetch [value] 0) next.1, next.2)) = _
          rw [fetch_zero]
          rfl
    · show headerArguments depth [word, a, b, d] >>= _ = outcome c lines (Reading.andThen _ _)
      rw [headerArguments_eq, outcome_ofExcept_andThen]
      show (Argument.ofTokens depth [a, b]).mapError _ >>= _ = _
      rw [Argument.ofTokens, List.mapM_cons, List.mapM_cons, List.mapM_nil]
      cases Argument.ofToken depth a with
      | error cause => rfl
      | ok key =>
        show _ = outcome c lines (Reading.andThen _ _)
        rw [outcome_ofExcept_andThen]
        cases Argument.ofToken depth b with
        | error cause => rfl
        | ok value =>
          show readBody (c.before lines) >>= _ = outcome c lines (Reading.map _ _)
          rw [hbody c lines h, outcome_map]
          cases outcome c lines (body lines) with
          | error fault => rfl
          | ok next =>
            show (do return (Block.forEach (some (← fetch [key, value] 0)) (← fetch [key, value] 1)
              next.1, next.2)) = _
            rw [fetch_zero, fetch_one]
            rfl
    · rfl

theorem agrees_readStatement (hbody : Agrees readBody body) (first : Token) (tokens : List Token) :
    Agrees (readStatement depth readBody (first :: tokens))
      (Block.readStatement depth body (first :: tokens)) := by
  intro c lines h
  rw [readStatement, fetch_zero, Block.readStatement]
  show (if first = .forWord then _ else if first = .whileWord then _ else _) = _
  simp only [List.head?_cons, Option.some.injEq]
  by_cases hfor : first = .forWord
  · rw [if_pos hfor, if_pos hfor]
    exact agrees_readForEach hbody _ c lines h
  · rw [if_neg hfor, if_neg hfor]
    by_cases hwhile : first = .whileWord
    · rw [if_pos hwhile, if_pos hwhile]
      exact agrees_readWhile hbody _ c lines h
    · rw [if_neg hwhile, if_neg hwhile, argumentOf_eq, commandOf_eq, Command.ofTokens]
      cases Command.ofTokensWith (Argument.ofToken depth) (first :: tokens) <;> rfl

/-- A checked reader of blocks agrees with the reading of a block if that of bodies does. -/
theorem agrees_nextBlock (hbody : Agrees readBody body) :
    Agrees (nextBlock depth readBody) (Block.readWith depth body) := by
  intro c lines h
  cases lines with
  | nil =>
    rw [nextBlock, Cursor.atEnd_before]
    rfl
  | cons line lines =>
    have hlines : lines <:+ c.script.lines := (List.suffix_cons _ _).trans h
    rw [nextBlock, Cursor.atEnd_before, currentLine_before h]
    show (tokenize line.text).mapError _ >>= _ = _
    rw [tokenize_eq, Cursor.down_before]
    cases ht : BlockScript.tokenize line.text with
    | error cause =>
      rw [Block.readWith_of_error ht, outcome_within]
      rfl
    | ok tokens =>
      cases tokens with
      | nil =>
        rw [Block.readWith_of_nil ht]
        rfl
      | cons first rest =>
        rw [Block.readWith_of_cons ht, outcome_after, outcome_map, outcome_within]
        show (readStatement depth readBody (first :: rest) (c.before lines)).mapError _ >>= _ =
          (Except.mapError _ (outcome c lines _)).map _
        rw [agrees_readStatement hbody first rest c lines hlines]
        cases outcome c lines (Block.readStatement depth body (first :: rest) lines) <;> rfl

theorem tokensOrNone_eq (text : Text) :
    tokensOrNone text = .ok ((BlockScript.tokenize text).toOption.getD []) := by
  rw [tokensOrNone, tokenize_eq]
  cases ht : BlockScript.tokenize text with
  | ok tokens => rfl
  | error cause => rcases isLexical_of_tokenize ht with rfl | rfl | rfl <;> rfl

theorem closesBody_cons (first : Token) (rest : List Token) :
    closesBody (first :: rest) = .ok (decide (first = .bodyMark)) := by
  rw [closesBody, fetch_zero]
  rfl

variable (depth readBody) in
theorem bodyRound_of_closing {extra : List Token} (hc : Block.closing? line = some extra)
    (h : line :: lines <:+ c.script.lines) (allowExtra : Bool) (front : List Block) :
    bodyRound depth readBody allowExtra (front, c.before (line :: lines)) =
      if extra ≠ [] ∧ !allowExtra then .error (.ofCause .textAfterClose)
      else .ok (.done (front, c.before lines)) := by
  rw [bodyRound, Cursor.atEnd_before, currentLine_before h, Cursor.down_before]
  show tokensOrNone line.text >>= _ = _
  rw [tokensOrNone_eq, Block.closing?_eq_some_iff.1 hc]
  show closesBody (.bodyMark :: extra) >>= _ = _
  rw [closesBody_cons]
  show (if (!allowExtra) = true ∧ 1 < (Token.bodyMark :: extra).length then _ else _) = _
  cases extra <;> cases allowExtra <;> rfl

variable (depth readBody) in
theorem bodyRound_of_not_closing (hc : Block.closing? line = none)
    (h : line :: lines <:+ c.script.lines) (allowExtra : Bool) (front : List Block) :
    bodyRound depth readBody allowExtra (front, c.before (line :: lines)) =
      (nextBlock depth readBody (c.before (line :: lines))).map fun (block?, c) =>
        .again (front ++ block?.toList, c) := by
  have hcloses : closesBody ((BlockScript.tokenize line.text).toOption.getD []) = .ok false := by
    cases ht : BlockScript.tokenize line.text with
    | error cause => rfl
    | ok tokens =>
      cases tokens with
      | nil => rfl
      | cons first rest =>
        have hne : first ≠ .bodyMark := by
          rintro rfl
          rw [Block.closing?_eq_some_iff.2 ht] at hc
          cases hc
        show closesBody (first :: rest) = _
        rw [closesBody_cons, decide_eq_false hne]
  rw [bodyRound, Cursor.atEnd_before, currentLine_before h]
  show tokensOrNone line.text >>= _ = _
  rw [tokensOrNone_eq]
  show closesBody _ >>= _ = _
  rw [hcloses]
  show nextBlock depth readBody _ >>= _ = _
  cases nextBlock depth readBody (c.before (line :: lines)) <;> rfl

/-- The rounds of reading a body read it as `Block.readBodyWith` does, the blocks that have been
read so far standing in front. -/
theorem loop_bodyRound (hbody : Agrees readBody body) (allowExtra : Bool) (c : Cursor) :
    ∀ (lines : List Line) (front : List Block), lines <:+ c.script.lines →
      loop (·.2.left) (bodyRound depth readBody allowExtra) (front, c.before lines) =
        outcome c lines
          ((Block.readBodyWith (Block.readWith depth body) allowExtra lines).map (front ++ ·))
  | [], front, h => by
    have hround : bodyRound depth readBody allowExtra (front, c.before []) =
        .error (.ofCause .unclosedBody) := by
      rw [bodyRound, Cursor.atEnd_before]
      rfl
    rw [loop_of_error hround, Block.readBodyWith_nil]
    rfl
  | line :: lines, front, h => by
    cases hc : Block.closing? line with
    | some extra =>
      have hround := bodyRound_of_closing depth readBody hc h allowExtra front
      rw [Block.readBodyWith_of_closing hc]
      split
      · next he =>
        rw [if_pos he] at hround
        exact loop_of_error hround
      · next he =>
        rw [if_neg he] at hround
        rw [loop_of_done hround]
        simp [outcome, Reading.map, Except.map, Except.mapError]
    | none =>
      have hround := bodyRound_of_not_closing depth readBody hc h allowExtra front
      rw [agrees_nextBlock hbody c _ h] at hround
      cases hr : (Block.readWith depth body (line :: lines)).result with
      | error e =>
        rw [outcome, hr] at hround
        rw [loop_of_error hround, Block.readBodyWith_of_error hc hr]
        rfl
      | ok block? =>
        obtain ⟨n, hn⟩ := Block.exists_passed_of_readWith hr
        rw [hn] at hround
        change bodyRound depth readBody allowExtra (front, c.before (line :: lines)) =
          .ok (.again (front ++ block?.toList, c.before (lines.drop n))) at hround
        rw [loop_of_again hround (c.left_before_drop_lt line lines n),
          Block.readBodyWith_of_ok hc hn,
          loop_bodyRound hbody allowExtra c (lines.drop n) _ (drop_isSuffix h n),
          Reading.map_after, outcome_after, Reading.map_map, List.drop_succ_cons]
        simp only [Function.comp_def, List.append_assoc]
termination_by lines => lines.length
decreasing_by all_goals simp only [List.length_drop, List.length_cons]; omega

/-- By induction on the levels that are left, bodies are read alike. -/
theorem agrees_readBody (depth : Nat) : Agrees (Checked.readBody depth) (Block.readBody depth) := by
  induction depth with
  | zero => exact fun c lines h => rfl
  | succ depth ih =>
    intro c lines h
    rw [Checked.readBody, Block.readBody_succ, loop_bodyRound ih false c lines [] h, outcome_map]
    cases outcome c lines _ <;> rfl

end Agreement

end Checked

end BlockScript
