import BlockScript.Error
import BlockScript.Token

/-!
# Reading tokens

Tokens are words, quoted strings with escapes, and commands in parentheses; blanks separate them
and a `#` in front of a token hides the rest of the line.  Each reader takes the text from where
it stands and returns what it read with the text that follows.  `tokenize` reads them all: every
token uses up at least one character (`length_of_nextToken`).
-/

namespace BlockScript

/-- The characters that separate tokens. -/
def isBlank (c : Char) : Bool := c == ' ' || c == '\t' || c == '\r' || c == '\n'

/-- The characters that end a word. -/
def isDelimiter (c : Char) : Bool := isBlank c || c == '"' || c == '(' || c == ')'

namespace Lexer

/-- What an escape stands for in a quoted string; an unknown one keeps its backslash. -/
def escaped (c : Char) : Text :=
  if c = 'n' then ['\n']
  else if c = 't' then ['\t']
  else if c = 'r' then ['\r']
  else if c = '"' ∨ c = '\\' then [c]
  else ['\\', c]

/-- The text from the next token on: blanks are passed over, and a comment to the end. -/
def skipBlanks : Text → Text
  | [] => []
  | c :: cs => if isBlank c then skipBlanks cs else if c = '#' then [] else c :: cs

/-- The word at the front. -/
def word (cs : Text) : Text := cs.takeWhile (!isDelimiter ·)

/-- What follows the word at the front. -/
def afterWord (cs : Text) : Text := cs.dropWhile (!isDelimiter ·)

/-- The value of a quoted string whose opening quote has been read. -/
def readString : Text → Except Cause (Text × Text)
  | [] => .error .unterminatedString
  | c :: cs =>
    if c = '"' then .ok ([], cs)
    else if c = '\\' then
      match cs with
      | [] => .error .unterminatedString
      | e :: cs => (readString cs).map fun (value, rest) => (escaped e ++ value, rest)
    else (readString cs).map fun (value, rest) => (c :: value, rest)

/-- How many parentheses are open after `c` when `depth` were open before it. -/
def depthAfter (depth : Nat) (c : Char) : Nat :=
  if c = '(' then depth + 1 else if c = ')' then depth - 1 else depth

/-- The source of a command up to the parenthesis that closes it, when `depth` more are open
inside and `quoted` tells whether a string is. -/
def readCommand (depth : Nat) (quoted : Bool) : Text → Except Cause (Text × Text)
  | [] => .error (if quoted then .unterminatedString else .unclosedParenthesis)
  | c :: cs =>
    if quoted then
      if c = '\\' then
        match cs with
        | [] => .error .unterminatedString
        | e :: cs => (readCommand depth true cs).map fun (raw, rest) => (c :: e :: raw, rest)
      else (readCommand depth (c != '"') cs).map fun (raw, rest) => (c :: raw, rest)
    else if c = ')' ∧ depth = 0 then .ok ([], cs)
    else
      (readCommand (depthAfter depth c) (c == '"') cs).map fun (raw, rest) => (c :: raw, rest)

/-- The first token with the text that follows it, or nothing if no token is left. -/
def nextToken (cs : Text) : Except Cause (Option (Token × Text)) :=
  match skipBlanks cs with
  | [] => .ok none
  | c :: cs =>
    if c = '"' then (readString cs).map fun (value, rest) => some (.literal value, rest)
    else if c = '(' then
      (readCommand 0 false cs).map fun (raw, rest) => some (.command raw, rest)
    else if c = ')' then .error .strayParenthesis
    else .ok (some (.literal (word (c :: cs)), afterWord (c :: cs)))

/-! ## Progress -/

theorem length_skipBlanks_le (cs : Text) : (skipBlanks cs).length ≤ cs.length := by
  induction cs with
  | nil => simp [skipBlanks]
  | cons c cs ih =>
    unfold skipBlanks
    split
    · simp only [List.length_cons]; omega
    · split <;> simp

theorem not_isBlank_of_skipBlanks {cs tail : Text} {c : Char} (h : skipBlanks cs = c :: tail) :
    isBlank c = false := by
  induction cs with
  | nil => simp [skipBlanks] at h
  | cons d cs ih =>
    unfold skipBlanks at h
    split at h
    · exact ih h
    · next hb =>
      split at h
      · cases h
      · cases h; simpa using hb

theorem length_dropWhile_le (p : Char → Bool) (cs : Text) :
    (cs.dropWhile p).length ≤ cs.length :=
  (List.dropWhile_sublist p).length_le

theorem length_of_readString {cs value rest : Text} (h : readString cs = .ok (value, rest)) :
    rest.length < cs.length := by
  fun_induction readString cs generalizing value rest with
  | case1 => cases h
  | case2 cs => cases h; simp
  | case3 => cases h
  | case4 e cs hq ih =>
    obtain ⟨⟨_, _⟩, hr, h⟩ := exists_ok_of_map_eq_ok h
    cases h
    have := ih hr
    simp only [List.length_cons]
    omega
  | case5 c cs hq hb ih =>
    obtain ⟨⟨_, _⟩, hr, h⟩ := exists_ok_of_map_eq_ok h
    cases h
    have := ih hr
    simp only [List.length_cons]
    omega

/-- The source of a command, its closing parenthesis and the rest are all there is. -/
theorem length_of_readCommand {depth : Nat} {quoted : Bool} {cs raw rest : Text}
    (h : readCommand depth quoted cs = .ok (raw, rest)) :
    cs.length = raw.length + 1 + rest.length := by
  fun_induction readCommand depth quoted cs generalizing raw with
  | case1 => cases h
  | case2 => cases h
  | case3 depth e cs ih =>
    obtain ⟨⟨_, _⟩, hr, h⟩ := exists_ok_of_map_eq_ok h
    cases h
    have := ih hr
    simp only [List.length_cons]
    omega
  | case4 depth c cs hc ih =>
    obtain ⟨⟨_, _⟩, hr, h⟩ := exists_ok_of_map_eq_ok h
    cases h
    have := ih hr
    simp only [List.length_cons]
    omega
  | case5 => cases h; simp; omega
  | case6 depth quoted c cs hq hd ih =>
    obtain ⟨⟨_, _⟩, hr, h⟩ := exists_ok_of_map_eq_ok h
    cases h
    have := ih hr
    simp only [List.length_cons]
    omega

/-- A token uses up at least one character. -/
theorem length_of_nextToken {cs rest : Text} {token : Token}
    (h : nextToken cs = .ok (some (token, rest))) : rest.length < cs.length := by
  have hs := length_skipBlanks_le cs
  unfold nextToken at h
  split at h
  · cases h
  · next c tail hc =>
    rw [hc, List.length_cons] at hs
    split at h
    · obtain ⟨⟨_, _⟩, hr, h⟩ := exists_ok_of_map_eq_ok h
      cases h
      have := length_of_readString hr
      omega
    · split at h
      · obtain ⟨⟨_, _⟩, hr, h⟩ := exists_ok_of_map_eq_ok h
        cases h
        have := length_of_readCommand hr
        omega
      · split at h
        · cases h
        · next hq ho hcl =>
          have hb := not_isBlank_of_skipBlanks hc
          cases h
          have hw := length_dropWhile_le (!isDelimiter ·) tail
          rw [afterWord, List.dropWhile_cons_of_pos (by simp [isDelimiter, *])]
          omega

end Lexer

open Lexer in
/-- The tokens of a line. -/
def tokenize (line : Text) : Except Cause (List Token) :=
  match _h : nextToken line with
  | .error cause => .error cause
  | .ok none => .ok []
  | .ok (some (token, rest)) => (tokenize rest).map (token :: ·)
termination_by line.length
decreasing_by exact length_of_nextToken ‹_›

end BlockScript
