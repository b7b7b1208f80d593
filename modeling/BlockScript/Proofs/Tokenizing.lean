import BlockScript.Token.Lexer

/-!
# Tokenizing step by step

`tokenize` is determined by `Lexer.nextToken` alone: it fails as the first token fails, and
otherwise goes on behind it.  `Lexer.nextToken` passes over blanks, and then the first character
decides which reader gives the token.
-/

namespace BlockScript

namespace Lexer

variable {c : Char} {cs rest : Text}

/-! ## Blanks -/

theorem skipBlanks_of_isBlank (h : isBlank c) : skipBlanks (c :: cs) = skipBlanks cs := by
  rw [skipBlanks, if_pos h]

theorem skipBlanks_of_ne (hb : isBlank c = false) (hc : c ≠ '#') :
    skipBlanks (c :: cs) = c :: cs := by
  rw [skipBlanks, if_neg (by simp [hb]), if_neg hc]

theorem ne_comment_of_skipBlanks {tail : Text} (h : skipBlanks cs = c :: tail) : c ≠ '#' := by
  induction cs with
  | nil => simp [skipBlanks] at h
  | cons d cs ih =>
    unfold skipBlanks at h
    split at h
    · exact ih h
    · split at h
      · cases h
      · next hd =>
        cases h
        exact hd

/-! ## Strings and commands -/

theorem readString_quote (cs : Text) : readString ('"' :: cs) = .ok ([], cs) := by
  rw [readString.eq_def]
  rfl

theorem readString_escape (e : Char) (cs : Text) :
    readString ('\\' :: e :: cs) =
      (readString cs).map fun (value, rest) => (escaped e ++ value, rest) := by
  rw [readString.eq_def]
  rfl

theorem readString_of_ne (hq : c ≠ '"') (hb : c ≠ '\\') :
    readString (c :: cs) = (readString cs).map fun (value, rest) => (c :: value, rest) := by
  rw [readString.eq_def]
  simp only [if_neg hq, if_neg hb]

variable {depth : Nat}

theorem readCommand_escape (depth : Nat) (e : Char) (cs : Text) :
    readCommand depth true ('\\' :: e :: cs) =
      (readCommand depth true cs).map fun (raw, rest) => ('\\' :: e :: raw, rest) := by
  rw [readCommand.eq_def]
  rfl

theorem readCommand_quoted_of_ne (hb : c ≠ '\\') :
    readCommand depth true (c :: cs) =
      (readCommand depth (c != '"') cs).map fun (raw, rest) => (c :: raw, rest) := by
  rw [readCommand.eq_def]
  simp only [if_true, if_neg hb]

theorem readCommand_close (cs : Text) : readCommand 0 false (')' :: cs) = .ok ([], cs) := by
  rw [readCommand.eq_def]
  rfl

theorem readCommand_of_not_close (h : ¬ (c = ')' ∧ depth = 0)) :
    readCommand depth false (c :: cs) =
      (readCommand (depthAfter depth c) (c == '"') cs).map
        fun (raw, rest) => (c :: raw, rest) := by
  rw [readCommand.eq_def]
  simp only [Bool.false_eq_true, if_false, if_neg h]

/-! ## One token -/

theorem nextToken_of_isBlank (h : isBlank c) : nextToken (c :: cs) = nextToken cs := by
  rw [nextToken, nextToken, skipBlanks_of_isBlank h]

theorem nextToken_quote {value : Text} (h : readString cs = .ok (value, rest)) :
    nextToken ('"' :: cs) = .ok (some (.literal value, rest)) := by
  rw [nextToken, skipBlanks_of_ne (by decide) (by decide)]
  simp [h, Except.map]

theorem nextToken_parenthesis {raw : Text} (h : readCommand 0 false cs = .ok (raw, rest)) :
    nextToken ('(' :: cs) = .ok (some (.command raw, rest)) := by
  rw [nextToken, skipBlanks_of_ne (by decide) (by decide)]
  simp [h, Except.map]

/-- A word ends at the end of the line or at a delimiter. -/
def EndsWord (rest : Text) : Prop := ∀ c ∈ rest.head?, isDelimiter c

theorem endsWord_nil : EndsWord [] := nofun

theorem endsWord_cons (h : isDelimiter c) : EndsWord (c :: cs) := by
  intro d hd
  cases hd
  exact h

theorem word_append {w : Text} (hw : ∀ c ∈ w, isDelimiter c = false) (hr : EndsWord rest) :
    word (w ++ rest) = w ∧ afterWord (w ++ rest) = rest := by
  have hw' : ∀ c ∈ w, (!isDelimiter c) = true := fun c hc => by simp [hw c hc]
  rw [word, afterWord, List.takeWhile_append_of_pos hw', List.dropWhile_append_of_pos hw']
  cases rest with
  | nil => simp
  | cons c cs =>
    have hc : isDelimiter c := hr c rfl
    simp [hc]

theorem nextToken_word {w : Text} (hne : w ≠ []) (hw : ∀ c ∈ w, isDelimiter c = false)
    (hc : w.head? ≠ some '#') (hr : EndsWord rest) :
    nextToken (w ++ rest) = .ok (some (.literal w, rest)) := by
  cases w with
  | nil => exact absurd rfl hne
  | cons c cs =>
    have hd : isDelimiter c = false := hw c (by simp)
    obtain ⟨h₁, h₂⟩ := word_append hw hr
    simp only [List.cons_append] at h₁ h₂
    simp only [isDelimiter, Bool.or_eq_false_iff, beq_eq_false_iff_ne] at hd
    obtain ⟨⟨⟨hb, hq⟩, ho⟩, hcl⟩ := hd
    rw [List.cons_append, nextToken, skipBlanks_of_ne hb (by simpa using hc)]
    simp only [hq, ho, hcl, h₁, h₂, if_false]

end Lexer

/-! ## All tokens -/

open Lexer

variable {line rest : Text} {token : Token}

theorem tokenize_of_error {cause : Cause} (h : nextToken line = .error cause) :
    tokenize line = .error cause := by
  rw [tokenize]
  split <;> simp_all

theorem tokenize_of_none (h : nextToken line = .ok none) : tokenize line = .ok [] := by
  rw [tokenize]
  split <;> simp_all

theorem tokenize_of_some (h : nextToken line = .ok (some (token, rest))) :
    tokenize line = (tokenize rest).map (token :: ·) := by
  rw [tokenize]
  split <;> simp_all

@[simp]
theorem tokenize_nil : tokenize [] = .ok [] := tokenize_of_none rfl

theorem tokenize_bodyMark : tokenize ['\x7d'] = .ok [.bodyMark] := by
  have h : nextToken ['\x7d'] = .ok (some (.bodyMark, [])) := rfl
  rw [tokenize_of_some h, tokenize_nil]
  rfl

theorem tokenize_of_isBlank {c : Char} (h : isBlank c) : tokenize (c :: line) = tokenize line := by
  cases hn : nextToken line with
  | error cause => rw [tokenize_of_error hn, tokenize_of_error (by rwa [nextToken_of_isBlank h])]
  | ok next =>
    cases next with
    | none => rw [tokenize_of_none hn, tokenize_of_none (by rwa [nextToken_of_isBlank h])]
    | some next => rw [tokenize_of_some hn, tokenize_of_some (by rwa [nextToken_of_isBlank h])]

end BlockScript
