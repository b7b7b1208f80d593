import BlockScript.Proofs.Tokenizing

/-!
# Tokens by a character automaton

`Automaton.run` reads the tokens of a line in one pass from left to right, one character at a
time, with no look ahead and nothing read twice: the state holds the finished tokens and what has
been seen of the one that is open.  It gives the same tokens or the same mistake as `tokenize`
(`tokenize_eq_run`).
-/

namespace BlockScript

/-- What the characters since the last finished token belong to. -/
inductive Automaton.Mode where
  | between
  | comment
  | word (text : Text)
  | string (value : Text)
  | escape (value : Text)
  | command (depth : Nat) (raw : Text)
  | commandString (depth : Nat) (raw : Text)
  | commandEscape (depth : Nat) (raw : Text)
  deriving DecidableEq, Repr

/-- The finished tokens of a line and what comes after them. -/
structure Automaton where
  tokens : List Token
  mode : Automaton.Mode
  deriving DecidableEq, Repr

namespace Automaton

/-- The state in front of a line. -/
def start : Automaton := ⟨[], .between⟩

/-- What a character after a backslash stands for in a string. -/
def decoded (c : Char) : Text :=
  match c with
  | 'n' => ['\n']
  | 't' => ['\t']
  | 'r' => ['\r']
  | '"' => ['"']
  | '\\' => ['\\']
  | c => ['\\', c]

/-- The state after a character that stands between tokens. -/
def between (tokens : List Token) (c : Char) : Except Cause Automaton :=
  if isBlank c then .ok ⟨tokens, .between⟩
  else if c = '#' then .ok ⟨tokens, .comment⟩
  else if c = '"' then .ok ⟨tokens, .string []⟩
  else if c = '(' then .ok ⟨tokens, .command 1 []⟩
  else if c = ')' then .error .strayParenthesis
  else .ok ⟨tokens, .word [c]⟩

/-- The state after a character inside the parentheses of a command, `depth` of which are open. -/
def inside (tokens : List Token) (depth : Nat) (raw : Text) (c : Char) : Automaton :=
  if c = '"' then ⟨tokens, .commandString depth (raw ++ [c])⟩
  else if c = '(' then ⟨tokens, .command (depth + 1) (raw ++ [c])⟩
  else if c = ')' then
    if depth = 1 then ⟨tokens ++ [.command raw], .between⟩
    else ⟨tokens, .command (depth - 1) (raw ++ [c])⟩
  else ⟨tokens, .command depth (raw ++ [c])⟩

/-- The state after one more character. -/
def step (s : Automaton) (c : Char) : Except Cause Automaton :=
  match s.mode with
  | .between => between s.tokens c
  | .comment => .ok s
  | .word text =>
    if isDelimiter c then between (s.tokens ++ [.literal text]) c
    else .ok ⟨s.tokens, .word (text ++ [c])⟩
  | .string value =>
    if c = '"' then .ok ⟨s.tokens ++ [.literal value], .between⟩
    else if c = '\\' then .ok ⟨s.tokens, .escape value⟩
    else .ok ⟨s.tokens, .string (value ++ [c])⟩
  | .escape value => .ok ⟨s.tokens, .string (value ++ decoded c)⟩
  | .command depth raw => .ok (inside s.tokens depth raw c)
  | .commandString depth raw =>
    if c = '"' then .ok ⟨s.tokens, .command depth (raw ++ [c])⟩
    else if c = '\\' then .ok ⟨s.tokens, .commandEscape depth (raw ++ [c])⟩
    else .ok ⟨s.tokens, .commandString depth (raw ++ [c])⟩
  | .commandEscape depth raw => .ok ⟨s.tokens, .commandString depth (raw ++ [c])⟩

/-- The tokens of a line that ends in this state. -/
def finish (s : Automaton) : Except Cause (List Token) :=
  match s.mode with
  | .between | .comment => .ok s.tokens
  | .word text => .ok (s.tokens ++ [.literal text])
  | .string _ | .escape _ | .commandString _ _ | .commandEscape _ _ => .error .unterminatedString
  | .command _ _ => .error .unclosedParenthesis

/-- The tokens of a line whose front has led to the state and whose rest is `cs`. -/
def runFrom (s : Automaton) (cs : Text) : Except Cause (List Token) :=
  (cs.foldlM step s).bind finish

/-- The tokens of a line. -/
def run (line : Text) : Except Cause (List Token) := start.runFrom line

variable {tokens : List Token} {c : Char} {cs : Text}

theorem runFrom_nil (s : Automaton) : s.runFrom [] = s.finish := rfl

theorem runFrom_of_step_eq_ok {s t : Automaton} (h : s.step c = .ok t) :
    s.runFrom (c :: cs) = t.runFrom cs := by
  rw [runFrom, List.foldlM_cons, h]
  rfl

theorem runFrom_of_step_eq_error {s : Automaton} {cause : Cause} (h : s.step c = .error cause) :
    s.runFrom (c :: cs) = .error cause := by
  rw [runFrom, List.foldlM_cons, h]
  rfl

/-! ## One token -/

theorem decoded_eq_escaped (c : Char) : decoded c = Lexer.escaped c := by
  unfold decoded Lexer.escaped
  split <;> simp_all

theorem runFrom_comment (cs : Text) : runFrom ⟨tokens, .comment⟩ cs = .ok tokens := by
  induction cs with
  | nil => rfl
  | cons c cs ih => rw [runFrom_of_step_eq_ok rfl, ih]

/-- Blanks and a comment are passed over. -/
theorem runFrom_skipBlanks (cs : Text) :
    runFrom ⟨tokens, .between⟩ cs = runFrom ⟨tokens, .between⟩ (Lexer.skipBlanks cs) := by
  induction cs with
  | nil => rfl
  | cons c cs ih =>
    unfold Lexer.skipBlanks
    split
    · next hb =>
      have hs : step ⟨tokens, .between⟩ c = .ok ⟨tokens, .between⟩ := if_pos hb
      rw [runFrom_of_step_eq_ok hs, ih]
    · next hb =>
      split
      · next hc =>
        have hs : step ⟨tokens, .between⟩ c = .ok ⟨tokens, .comment⟩ := by
          rw [step, between, if_neg hb, if_pos hc]
        rw [runFrom_of_step_eq_ok hs, runFrom_comment, runFrom_nil]
        rfl
      · rfl

/-- A delimiter ends a word and is then read as one between tokens. -/
theorem runFrom_word_of_delimiter {text : Text} (h : isDelimiter c) :
    runFrom ⟨tokens, .word text⟩ (c :: cs) =
      runFrom ⟨tokens ++ [.literal text], .between⟩ (c :: cs) := by
  have hs : step ⟨tokens, .word text⟩ c = step ⟨tokens ++ [.literal text], .between⟩ c := if_pos h
  rw [runFrom, runFrom, List.foldlM_cons, List.foldlM_cons, hs]

theorem runFrom_word (text cs : Text) :
    runFrom ⟨tokens, .word text⟩ cs =
      runFrom ⟨tokens ++ [.literal (text ++ Lexer.word cs)], .between⟩ (Lexer.afterWord cs) := by
  induction cs generalizing text with
  | nil => rw [Lexer.word, List.takeWhile_nil, List.append_nil]; rfl
  | cons c cs ih =>
    by_cases hd : isDelimiter c
    · rw [runFrom_word_of_delimiter hd, Lexer.word, Lexer.afterWord,
        List.takeWhile_cons_of_neg (by simp [hd]), List.dropWhile_cons_of_neg (by simp [hd]),
        List.append_nil]
    · have hs : step ⟨tokens, .word text⟩ c = .ok ⟨tokens, .word (text ++ [c])⟩ := if_neg hd
      rw [runFrom_of_step_eq_ok hs, ih, Lexer.word, Lexer.word, Lexer.afterWord, Lexer.afterWord,
        List.takeWhile_cons_of_pos (by simp [hd]), List.dropWhile_cons_of_pos (by simp [hd]),
        List.append_assoc, List.singleton_append]

theorem runFrom_string (value cs : Text) :
    runFrom ⟨tokens, .string value⟩ cs =
      (Lexer.readString cs).bind fun (text, rest) =>
        runFrom ⟨tokens ++ [.literal (value ++ text)], .between⟩ rest := by
  fun_induction Lexer.readString cs generalizing value with
  | case1 => rfl
  | case2 cs =>
    rw [runFrom_of_step_eq_ok rfl]
    simp [Except.bind]
  | case3 => rfl
  | case4 e cs hq ih =>
    rw [runFrom_of_step_eq_ok rfl, runFrom_of_step_eq_ok rfl, ih]
    cases Lexer.readString cs <;> simp [Except.bind, Except.map, decoded_eq_escaped]
  | case5 c cs hq hb ih =>
    have hs : step ⟨tokens, .string value⟩ c = .ok ⟨tokens, .string (value ++ [c])⟩ := by
      simp [step, hq, hb]
    rw [runFrom_of_step_eq_ok hs, ih]
    cases Lexer.readString cs <;> simp [Except.bind, Except.map]

/-- The mode inside a command with `depth` open parentheses, in a string of it or not. -/
def inCommand (depth : Nat) (quoted : Bool) (raw : Text) : Mode :=
  if quoted then .commandString depth raw else .command depth raw

/-- Off the parenthesis that closes the command, a character moves the automaton as it moves the
reader, which counts the open parentheses without the outermost one. -/
theorem step_inCommand {depth : Nat} {quoted : Bool} {raw : Text} (hb : quoted → c ≠ '\\')
    (hc : quoted = false → ¬ (c = ')' ∧ depth = 0)) :
    step ⟨tokens, inCommand (depth + 1) quoted raw⟩ c =
      .ok ⟨tokens, inCommand ((if quoted then depth else Lexer.depthAfter depth c) + 1)
        (if quoted then c != '"' else c == '"') (raw ++ [c])⟩ := by
  cases quoted with
  | true => by_cases hq : c = '"' <;> simp_all [step, inCommand]
  | false =>
    by_cases hq : c = '"'
    · simp [step, inCommand, inside, Lexer.depthAfter, hq]
    by_cases ho : c = '('
    · simp [step, inCommand, inside, Lexer.depthAfter, ho]
    by_cases hcl : c = ')'
    · have hd : depth ≠ 0 := fun h => hc rfl ⟨hcl, h⟩
      obtain ⟨d, rfl⟩ := Nat.exists_eq_succ_of_ne_zero hd
      simp [step, inCommand, inside, Lexer.depthAfter, hcl]
    · simp [step, inCommand, inside, Lexer.depthAfter, hq, ho, hcl]

theorem runFrom_command (depth : Nat) (quoted : Bool) (raw cs : Text) :
    runFrom ⟨tokens, inCommand (depth + 1) quoted raw⟩ cs =
      (Lexer.readCommand depth quoted cs).bind fun (text, rest) =>
        runFrom ⟨tokens ++ [.command (raw ++ text)], .between⟩ rest := by
  fun_induction Lexer.readCommand depth quoted cs generalizing raw with
  | case1 depth quoted => cases quoted <;> rfl
  | case2 => rfl
  | case3 depth e cs ih =>
    have hs : step ⟨tokens, inCommand (depth + 1) true raw⟩ '\\' =
        .ok ⟨tokens, .commandEscape (depth + 1) (raw ++ ['\\'])⟩ := rfl
    have he : step ⟨tokens, .commandEscape (depth + 1) (raw ++ ['\\'])⟩ e =
        .ok ⟨tokens, inCommand (depth + 1) true (raw ++ ['\\'] ++ [e])⟩ := rfl
    rw [runFrom_of_step_eq_ok hs, runFrom_of_step_eq_ok he, ih]
    cases Lexer.readCommand depth true cs <;> simp [Except.bind, Except.map]
  | case4 depth c cs hc ih =>
    have hs := @step_inCommand tokens c depth true raw (fun _ => hc) (by simp)
    rw [if_pos rfl, if_pos rfl] at hs
    rw [runFrom_of_step_eq_ok hs, ih]
    cases Lexer.readCommand depth (c != '"') cs <;> simp [Except.bind, Except.map]
  | case5 depth quoted c cs hq hc =>
    obtain ⟨rfl, rfl⟩ := hc
    have hs : step ⟨tokens, inCommand (0 + 1) quoted raw⟩ ')' =
        .ok ⟨tokens ++ [.command raw], .between⟩ := by simp [inCommand, hq, step, inside]
    rw [runFrom_of_step_eq_ok hs]
    simp [Except.bind]
  | case6 depth quoted c cs hq hc ih =>
    have hs := @step_inCommand tokens c depth quoted raw (fun h => absurd h hq) fun _ => hc
    rw [if_neg hq, if_neg hq] at hs
    rw [runFrom_of_step_eq_ok hs, ih]
    cases Lexer.readCommand (Lexer.depthAfter depth c) (c == '"') cs <;>
      simp [Except.bind, Except.map]

/-! ## All tokens -/

/-- From between two tokens the automaton reads the next token as the lexer does. -/
theorem runFrom_between (cs : Text) :
    runFrom ⟨tokens, .between⟩ cs =
      (Lexer.nextToken cs).bind fun
        | none => .ok tokens
        | some (token, rest) => runFrom ⟨tokens ++ [token], .between⟩ rest := by
  rw [runFrom_skipBlanks, Lexer.nextToken]
  cases h : Lexer.skipBlanks cs with
  | nil => rfl
  | cons c tail =>
    have hb : ¬ isBlank c := by simp [Lexer.not_isBlank_of_skipBlanks h]
    have hc : c ≠ '#' := Lexer.ne_comment_of_skipBlanks h
    by_cases hq : c = '"'
    · have hs : step ⟨tokens, .between⟩ c = .ok ⟨tokens, .string []⟩ := by
        rw [step, between, if_neg hb, if_neg hc, if_pos hq]
      rw [runFrom_of_step_eq_ok hs, runFrom_string]
      simp only [hq]
      cases Lexer.readString tail <;> rfl
    by_cases ho : c = '('
    · have hs : step ⟨tokens, .between⟩ c = .ok ⟨tokens, inCommand (0 + 1) false []⟩ := by
        rw [step, between, if_neg hb, if_neg hc, if_neg hq, if_pos ho]
        rfl
      rw [runFrom_of_step_eq_ok hs, runFrom_command]
      simp only [ho]
      cases Lexer.readCommand 0 false tail <;> rfl
    by_cases hcl : c = ')'
    · have hs : step ⟨tokens, .between⟩ c = .error .strayParenthesis := by
        rw [step, between, if_neg hb, if_neg hc, if_neg hq, if_neg ho, if_pos hcl]
      rw [runFrom_of_step_eq_error hs]
      simp only [hcl]
      rfl
    · have hs : step ⟨tokens, .between⟩ c = .ok ⟨tokens, .word [c]⟩ := by
        rw [step, between, if_neg hb, if_neg hc, if_neg hq, if_neg ho, if_neg hcl]
      have hd : isDelimiter c = false := by simp [isDelimiter, hb, hq, ho, hcl]
      rw [runFrom_of_step_eq_ok hs, runFrom_word]
      simp only [hq, ho, hcl]
      simp [Lexer.word, Lexer.afterWord, hd, Except.bind]

theorem runFrom_eq_map_tokenize (tokens : List Token) (cs : Text) :
    runFrom ⟨tokens, .between⟩ cs = (tokenize cs).map (tokens ++ ·) := by
  rw [runFrom_between]
  cases h : Lexer.nextToken cs with
  | error cause =>
    rw [tokenize_of_error h]
    rfl
  | ok next =>
    cases next with
    | none =>
      rw [tokenize_of_none h]
      simp [Except.bind, Except.map]
    | some next =>
      obtain ⟨token, rest⟩ := next
      have hl : rest.length < cs.length := Lexer.length_of_nextToken h
      have ih := runFrom_eq_map_tokenize (tokens ++ [token]) rest
      rw [tokenize_of_some h]
      simp only [Except.bind, ih]
      cases tokenize rest <;> simp [Except.map]
termination_by cs.length

end Automaton

/-- One pass of the automaton gives the tokens of every line, or the mistake that ends it. -/
theorem tokenize_eq_run (line : Text) : tokenize line = Automaton.run line := by
  have h : Automaton.run line = (tokenize line).map ([] ++ ·) :=
    Automaton.runFrom_eq_map_tokenize [] line
  rw [h]
  cases tokenize line <;> simp [Except.map]

end BlockScript
