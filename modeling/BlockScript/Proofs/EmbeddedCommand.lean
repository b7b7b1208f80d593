import BlockScript.Proofs.Automaton
import BlockScript.Proofs.Nesting

/-!
# Commands in parentheses are tokenized again

The source of a command is found by a reader that knows no comments and no words, and is then
tokenized as a line of its own.  On that source the automaton of the tokens keeps in step with the
reader until a comment hides the rest (`Automaton.InStep`), so it stands between two tokens or in a
comment when the reader has come to the closing parenthesis (`tokenize_command`).  The same holds
for the commands inside, at every depth (`tokenize_of_embeds`).  What is left to go wrong with the
tokens of a line is that a command among them has no tokens of its own, or lies too deep.
-/

namespace BlockScript

/-! ## The automaton inside a command -/

namespace Automaton

/-- While the reader of a command has `depth` more parentheses open and is in a string or not, the
automaton, which has begun where the reader has, is inside as many parentheses and in a string or
not; or it has come to a comment. -/
def InStep (depth : Nat) (quoted : Bool) (s : Automaton) : Prop :=
  match s.mode with
  | .comment => True
  | .between | .word _ => depth = 0 ∧ quoted = false
  | .string _ => depth = 0 ∧ quoted = true
  | .command d _ => depth = d ∧ 0 < d ∧ quoted = false
  | .commandString d _ => depth = d ∧ 0 < d ∧ quoted = true
  | .escape _ | .commandEscape _ _ => False

variable {depth : Nat} {quoted : Bool} {c : Char} {s : Automaton}

/-- Between two tokens, where no parenthesis is open, every character but a closing parenthesis is
taken. -/
theorem inStep_between (tokens : List Token) (hc : c ≠ ')') :
    ∃ t, between tokens c = .ok t ∧ InStep (Lexer.depthAfter 0 c) (c == '"') t := by
  by_cases hb : isBlank c
  · have hq : c ≠ '"' := by rintro rfl; exact absurd hb (by decide)
    have ho : c ≠ '(' := by rintro rfl; exact absurd hb (by decide)
    exact ⟨_, if_pos hb, by simp [InStep, Lexer.depthAfter, hq, ho, hc]⟩
  · rw [between, if_neg hb]
    by_cases hh : c = '#'
    · exact ⟨_, if_pos hh, trivial⟩
    rw [if_neg hh]
    by_cases hq : c = '"'
    · exact ⟨_, if_pos hq, by simp [InStep, Lexer.depthAfter, hq]⟩
    rw [if_neg hq]
    by_cases ho : c = '('
    · exact ⟨_, if_pos ho, by simp [InStep, Lexer.depthAfter, ho]⟩
    rw [if_neg ho, if_neg hc]
    exact ⟨_, rfl, by simp [InStep, Lexer.depthAfter, hq, ho, hc]⟩

/-- Inside the parentheses of a command every character is taken. -/
theorem inStep_inside (tokens : List Token) (raw : Text) (hd : 0 < depth) :
    InStep (Lexer.depthAfter depth c) (c == '"') (inside tokens depth raw c) := by
  by_cases hq : c = '"'
  · simp [inside, InStep, Lexer.depthAfter, hq, hd]
  by_cases ho : c = '('
  · simp [inside, InStep, Lexer.depthAfter, ho]
  by_cases hc : c = ')'
  · by_cases h1 : depth = 1
    · simp [inside, InStep, Lexer.depthAfter, hc, h1]
    · have hd' : 0 < depth - 1 := by omega
      simp [inside, InStep, Lexer.depthAfter, hc, h1, hd']
  · simp [inside, InStep, Lexer.depthAfter, hq, ho, hc, hd]

/-- Outside the strings of a command the automaton takes every character up to the parenthesis that
closes the command. -/
theorem InStep.step_unquoted (hs : s.InStep depth false) (hc : ¬ (c = ')' ∧ depth = 0)) :
    ∃ t, s.step c = .ok t ∧ t.InStep (Lexer.depthAfter depth c) (c == '"') := by
  obtain ⟨tokens, mode⟩ := s
  cases mode with
  | comment => exact ⟨⟨tokens, .comment⟩, rfl, trivial⟩
  | between =>
    obtain ⟨rfl, -⟩ := hs
    exact inStep_between tokens fun h => hc ⟨h, rfl⟩
  | word text =>
    obtain ⟨rfl, -⟩ := hs
    by_cases hd : isDelimiter c
    · have hstep : step ⟨tokens, .word text⟩ c = between (tokens ++ [.literal text]) c := if_pos hd
      rw [hstep]
      exact inStep_between _ fun h => hc ⟨h, rfl⟩
    · have hstep : step ⟨tokens, .word text⟩ c = .ok ⟨tokens, .word (text ++ [c])⟩ := if_neg hd
      simp only [isDelimiter, Bool.or_eq_true, beq_iff_eq, not_or] at hd
      exact ⟨_, hstep, by simp [InStep, Lexer.depthAfter, hd]⟩
  | string value => cases hs.2
  | escape value => exact hs.elim
  | command d raw =>
    obtain ⟨rfl, hd, -⟩ := hs
    exact ⟨_, rfl, inStep_inside tokens raw hd⟩
  | commandString d raw => cases hs.2.2
  | commandEscape d raw => exact hs.elim

/-- In a string of a command the automaton takes every character; a quote ends the string. -/
theorem InStep.step_quoted (hs : s.InStep depth true) (hc : c ≠ '\\') :
    ∃ t, s.step c = .ok t ∧ t.InStep depth (c != '"') := by
  obtain ⟨tokens, mode⟩ := s
  cases mode with
  | comment => exact ⟨⟨tokens, .comment⟩, rfl, trivial⟩
  | between => cases hs.2
  | word text => cases hs.2
  | string value =>
    obtain ⟨rfl, -⟩ := hs
    by_cases hq : c = '"'
    · exact ⟨_, if_pos hq, by simp [InStep, hq]⟩
    · exact ⟨_, (if_neg hq).trans (if_neg hc), by simp [InStep, hq]⟩
  | escape value => exact hs.elim
  | command d raw => cases hs.2.2
  | commandString d raw =>
    obtain ⟨rfl, hd, -⟩ := hs
    by_cases hq : c = '"'
    · exact ⟨_, if_pos hq, by simp [InStep, hq, hd]⟩
    · exact ⟨_, (if_neg hq).trans (if_neg hc), by simp [InStep, hq, hd]⟩
  | commandEscape d raw => exact hs.elim

/-- A backslash in a string of a command takes the next character with it. -/
theorem InStep.step_escape (hs : s.InStep depth true) (e : Char) :
    ∃ t u, s.step '\\' = .ok t ∧ t.step e = .ok u ∧ u.InStep depth true := by
  obtain ⟨tokens, mode⟩ := s
  cases mode with
  | comment => exact ⟨⟨tokens, .comment⟩, ⟨tokens, .comment⟩, rfl, rfl, trivial⟩
  | between => cases hs.2
  | word text => cases hs.2
  | string value => exact ⟨_, _, rfl, rfl, hs⟩
  | escape value => exact hs.elim
  | command d raw => cases hs.2.2
  | commandString d raw => exact ⟨_, _, rfl, rfl, hs⟩
  | commandEscape d raw => exact hs.elim

theorem InStep.finish (hs : s.InStep 0 false) : ∃ tokens, s.finish = .ok tokens := by
  obtain ⟨tokens, mode⟩ := s
  cases mode with
  | between => exact ⟨_, rfl⟩
  | comment => exact ⟨_, rfl⟩
  | word text => exact ⟨_, rfl⟩
  | string value => cases hs.2
  | escape value => exact hs.elim
  | command d raw => exact absurd hs.1 (Nat.ne_of_lt hs.2.1)
  | commandString d raw => cases hs.2.2
  | commandEscape d raw => exact hs.elim

/-- The automaton runs through what the reader of a command has read. -/
theorem runFrom_of_readCommand {cs raw rest : Text} (hs : s.InStep depth quoted)
    (h : Lexer.readCommand depth quoted cs = .ok (raw, rest)) :
    ∃ tokens, s.runFrom raw = .ok tokens := by
  fun_induction Lexer.readCommand depth quoted cs generalizing s raw with
  | case1 => cases h
  | case2 => cases h
  | case3 depth e cs ih =>
    obtain ⟨⟨inner, _⟩, hr, h⟩ := exists_ok_of_map_eq_ok h
    cases h
    obtain ⟨t, u, ht, hu, hin⟩ := hs.step_escape e
    rw [runFrom_of_step_eq_ok ht, runFrom_of_step_eq_ok hu]
    exact ih hin hr
  | case4 depth c cs hc ih =>
    obtain ⟨⟨inner, _⟩, hr, h⟩ := exists_ok_of_map_eq_ok h
    cases h
    obtain ⟨t, ht, hin⟩ := hs.step_quoted hc
    rw [runFrom_of_step_eq_ok ht]
    exact ih hin hr
  | case5 depth quoted c cs hq hc =>
    obtain ⟨-, rfl⟩ := hc
    obtain rfl : quoted = false := by simpa using hq
    cases h
    exact hs.finish
  | case6 depth quoted c cs hq hc ih =>
    obtain rfl : quoted = false := by simpa using hq
    obtain ⟨⟨inner, _⟩, hr, h⟩ := exists_ok_of_map_eq_ok h
    cases h
    obtain ⟨t, ht, hin⟩ := hs.step_unquoted hc
    rw [runFrom_of_step_eq_ok ht]
    exact ih hin hr

end Automaton

/-! ## Commands among the tokens of a line -/

namespace Lexer

/-- A token in parentheses is what the reader of commands has found. -/
theorem exists_readCommand_of_nextToken {cs source rest : Text}
    (h : nextToken cs = .ok (some (.command source, rest))) :
    ∃ tail, readCommand 0 false tail = .ok (source, rest) := by
  unfold nextToken at h
  split at h
  · cases h
  · next c tail hc =>
    split at h
    · obtain ⟨⟨_, _⟩, -, h⟩ := exists_ok_of_map_eq_ok h
      cases h
    · split at h
      · obtain ⟨⟨_, _⟩, hr, h⟩ := exists_ok_of_map_eq_ok h
        cases h
        exact ⟨tail, hr⟩
      · split at h <;> cases h

end Lexer

variable {line source : Text} {tokens : List Token}

/-- The source of a command in parentheses can be tokenized. -/
theorem tokenize_command (h : tokenize line = .ok tokens) (hm : Token.command source ∈ tokens) :
    ∃ inner, tokenize source = .ok inner := by
  fun_induction tokenize line generalizing tokens with
  | case1 => cases h
  | case2 => cases h; cases hm
  | case3 line token rest hn ih =>
    obtain ⟨ts, hts, rfl⟩ := exists_ok_of_map_eq_ok h
    rcases List.mem_cons.1 hm with rfl | hm
    · obtain ⟨tail, hr⟩ := Lexer.exists_readCommand_of_nextToken hn
      have hs : Automaton.start.InStep 0 false := ⟨rfl, rfl⟩
      obtain ⟨inner, hrun⟩ := Automaton.runFrom_of_readCommand hs hr
      have hmap := Automaton.runFrom_eq_map_tokenize [] source
      rw [show (⟨[], .between⟩ : Automaton) = .start from rfl, hrun] at hmap
      obtain ⟨ts', hts', -⟩ := exists_ok_of_map_eq_ok hmap.symm
      exact ⟨ts', hts'⟩
    · exact ih hts hm

/-- The sources of the commands in parentheses among some tokens, and of those inside them, at
every depth. -/
inductive Embeds : List Token → Text → Prop where
  | here {tokens : List Token} {source : Text} (hm : Token.command source ∈ tokens) :
      Embeds tokens source
  | inside {tokens inner : List Token} {source deeper : Text}
      (hm : Token.command source ∈ tokens) (ht : tokenize source = .ok inner)
      (h : Embeds inner deeper) : Embeds tokens deeper

theorem tokenize_of_embeds (h : tokenize line = .ok tokens) (he : Embeds tokens source) :
    ∃ inner, tokenize source = .ok inner := by
  induction he generalizing line with
  | here hm => exact tokenize_command h hm
  | inside hm ht _ ih => exact ih ht

/-! ## Commands from the tokens of a line -/

namespace Argument

variable {depth : Nat} {cause : Cause}

/-- A token of a line is refused for its nesting or for a command in it that has no tokens. -/
theorem cause_of_ofToken {token : Token} (h : tokenize line = .ok tokens) (hm : token ∈ tokens)
    (he : ofToken depth token = .error cause) :
    cause = .nestingTooDeep ∨
      cause = .emptyCommand ∧ ∃ source, Embeds tokens source ∧ tokenize source = .ok [] := by
  induction depth generalizing line tokens token with
  | zero =>
    cases token with
    | literal text => rw [ofToken] at he; cases he
    | command source => rw [ofToken] at he; cases he; exact .inl rfl
  | succ depth ih =>
    cases token with
    | literal text => rw [ofToken] at he; cases he
    | command source =>
      obtain ⟨inner, ht⟩ := tokenize_command h hm
      rw [ofToken_command ht, map_eq_error_iff] at he
      rcases Command.cause_of_ofTokensWith he with ⟨rfl, rfl⟩ | ⟨t, hin, he⟩
      · exact .inr ⟨rfl, source, .here hm, ht⟩
      · rcases ih ht hin he with hc | ⟨hc, deeper, hd, hnil⟩
        · exact .inl hc
        · exact .inr ⟨hc, deeper, .inside hm ht hd, hnil⟩

theorem not_isLexical_of_ofToken {token : Token} (h : tokenize line = .ok tokens)
    (hm : token ∈ tokens) (he : ofToken depth token = .error cause) : ¬ cause.IsLexical := by
  rcases cause_of_ofToken h hm he with rfl | ⟨rfl, -⟩ <;> simp [Cause.IsLexical]

/-- If all tokens are read, no command in them is without tokens. -/
theorem tokenize_ne_nil_of_embeds (hok : ∀ t ∈ tokens, ∃ a, ofToken depth t = .ok a)
    (he : Embeds tokens source) : tokenize source ≠ .ok [] := by
  induction he generalizing depth with
  | @here tokens source hm =>
    intro hnil
    obtain ⟨a, ha⟩ := hok _ hm
    cases depth with
    | zero => rw [ofToken] at ha; cases ha
    | succ depth => rw [ofToken_command hnil] at ha; cases ha
  | @inside tokens inner source deeper hm ht _ ih =>
    obtain ⟨a, ha⟩ := hok _ hm
    cases depth with
    | zero => rw [ofToken] at ha; cases ha
    | succ depth =>
      rw [ofToken_command ht] at ha
      obtain ⟨c, hc, -⟩ := exists_ok_of_map_eq_ok ha
      exact ih fun t hin => Command.exists_ok_of_ofTokensWith hc hin

end Argument

namespace Command

variable {depth : Nat} {cause : Cause}

/-- The tokens of a line are too deep exactly if they enter more levels than are left. -/
theorem ofTokens_eq_nestingTooDeep_iff :
    ofTokens depth tokens = .error .nestingTooDeep ↔ depth < Token.levelsAll tokens := by
  have hne : Cause.nestingTooDeep ≠ .emptyCommand := nofun
  rw [ofTokens, ofTokensWith_eq_error_iff hne, Argument.mapM_ofToken_eq_nestingTooDeep_iff]

/-- The tokens of a line are never refused for what a tokenization can be refused for. -/
theorem not_isLexical_of_ofTokens (h : tokenize line = .ok tokens)
    (he : ofTokens depth tokens = .error cause) : ¬ cause.IsLexical := by
  rcases cause_of_ofTokensWith he with ⟨-, rfl⟩ | ⟨t, hm, ht⟩
  · simp [Cause.IsLexical]
  · exact Argument.not_isLexical_of_ofToken h hm ht

/-- Within the levels that are left, the tokens of a line are refused for a command without tokens
in them. -/
theorem emptyCommand_of_ofTokens (h : tokenize line = .ok tokens) (hne : tokens ≠ [])
    (hd : Token.levelsAll tokens ≤ depth) (he : ofTokens depth tokens = .error cause) :
    cause = .emptyCommand ∧ ∃ source, Embeds tokens source ∧ tokenize source = .ok [] := by
  obtain ⟨t, hm, ht⟩ := (cause_of_ofTokensWith he).resolve_left fun hn => hne hn.1
  refine (Argument.cause_of_ofToken h hm ht).resolve_left fun hc => ?_
  have hdeep : ofTokens depth tokens = .error .nestingTooDeep := hc ▸ he
  rw [ofTokens_eq_nestingTooDeep_iff] at hdeep
  omega

/-- The tokens of a line make no command if a command in them is without tokens. -/
theorem exists_error_of_embeds (hs : Embeds tokens source) (hnil : tokenize source = .ok []) :
    ∃ cause, ofTokens depth tokens = .error cause := by
  cases hc : ofTokens depth tokens with
  | error cause => exact ⟨cause, rfl⟩
  | ok c =>
    have hok : ∀ t ∈ tokens, ∃ a, Argument.ofToken depth t = .ok a :=
      fun t ht => exists_ok_of_ofTokensWith hc ht
    exact absurd hnil (Argument.tokenize_ne_nil_of_embeds hok hs)

end Command

/-- The commands in parentheses on a line that can be tokenized can be tokenized themselves, at
every depth.  So, within the levels that are left, the tokens of a line make no command exactly if
one of these commands has no tokens, and then that is what is wrong; a string or a parenthesis that
is open and a parenthesis that is closed too often are found by the first tokenization only. -/
theorem tokenize_embeds_and_ofTokens_error_iff (line : Text) (tokens : List Token)
    (h : tokenize line = .ok tokens) :
    (∀ source, Embeds tokens source → ∃ inner, tokenize source = .ok inner) ∧
      (tokens ≠ [] → ∀ depth, Token.levelsAll tokens ≤ depth →
        ((∃ cause, Command.ofTokens depth tokens = .error cause) ↔
            ∃ source, Embeds tokens source ∧ tokenize source = .ok []) ∧
          ∀ cause, Command.ofTokens depth tokens = .error cause →
            cause.message = "No tokens in command.".toList) ∧
      (∀ depth cause, Command.ofTokens depth tokens = .error cause → ¬ cause.IsLexical) ∧
      ∀ token ∈ tokens, ∀ depth cause,
        Argument.ofToken depth token = .error cause → ¬ cause.IsLexical := by
  refine ⟨fun source he => tokenize_of_embeds h he, fun hne depth hd => ⟨⟨?_, ?_⟩, ?_⟩, ?_, ?_⟩
  · rintro ⟨cause, he⟩
    exact (Command.emptyCommand_of_ofTokens h hne hd he).2
  · rintro ⟨source, hs, hnil⟩
    exact Command.exists_error_of_embeds hs hnil
  · intro cause he
    rw [(Command.emptyCommand_of_ofTokens h hne hd he).1]
    rfl
  · exact fun depth cause he => Command.not_isLexical_of_ofTokens h he
  · exact fun token hm depth cause he => Argument.not_isLexical_of_ofToken h hm he

/-- Two commands with comments: one that hides parentheses and the beginning of a string, and one
that hides all there is of a command inside. -/
theorem tokenize_embeds_and_ofTokens_error_iff_comment :
    tokenize "x (a # (\")\") ) (b (#c))".toList =
        .ok [.literal ['x'], .command "a # (\")\") ".toList, .command "b (#c)".toList] ∧
      Token.levelsAll [.literal ['x'], .command "a # (\")\") ".toList,
        .command "b (#c)".toList] ≤ 2 ∧
      ∃ cause, Command.ofTokens 2 [.literal ['x'], .command "a # (\")\") ".toList,
        .command "b (#c)".toList] = .error cause ∧
          cause.message = "No tokens in command.".toList := by
  have h : tokenize "x (a # (\")\") ) (b (#c))".toList =
      .ok [.literal ['x'], .command "a # (\")\") ".toList, .command "b (#c)".toList] := by
    cbv
  have hd : Token.levelsAll [.literal ['x'], .command "a # (\")\") ".toList,
      .command "b (#c)".toList] ≤ 2 := by
    cbv
  have hb : tokenize "b (#c)".toList = .ok [.literal ['b'], .command "#c".toList] := by cbv
  have hc : tokenize "#c".toList = .ok [] := by cbv
  obtain ⟨hiff, hmessage⟩ :=
    (tokenize_embeds_and_ofTokens_error_iff _ _ h).2.1 (List.cons_ne_nil _ _) 2 hd
  obtain ⟨cause, he⟩ :=
    hiff.2 ⟨"#c".toList, .inside (by simp) hb (.here (by simp)), hc⟩
  exact ⟨h, hd, cause, he, hmessage cause he⟩

end BlockScript
