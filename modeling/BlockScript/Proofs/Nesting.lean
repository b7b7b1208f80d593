import BlockScript.Proofs.Tokenizing
import BlockScript.Syntax.OfTokens

/-!
# Reading tokens without a limit

The source of a command is shorter than the line that the command stands in, so a token never
needs more levels than it has characters.  Reading it with that many (`Token.argument`) is reading
it without a limit: it follows the recursion of the tokens (`argument_command`), and reading with
fewer levels gives the same unless the levels run out (`ofToken_approximates`).  They run out
exactly if more of them are entered than there are (`ofToken_eq_nestingTooDeep_iff`).
-/

namespace BlockScript

/-! ## Tokens of a line -/

/-- The mistakes that a line can be refused for before its tokens are looked at. -/
def Cause.IsLexical (cause : Cause) : Prop :=
  cause = .unterminatedString ∨ cause = .unclosedParenthesis ∨ cause = .strayParenthesis

/-- The mistakes that can be found in a line of which no other line is known. -/
def Cause.InLine : Cause → Prop
  | .unclosedBody | .danglingContinuation _ => False
  | _ => True

theorem Cause.InLine.ne_unclosedBody {cause : Cause} (h : cause.InLine) :
    cause ≠ .unclosedBody := by
  rintro rfl
  exact h

theorem Cause.IsLexical.inLine {cause : Cause} (h : cause.IsLexical) : cause.InLine := by
  rcases h with rfl | rfl | rfl <;> trivial

namespace Lexer

theorem cause_of_readString {cs : Text} {cause : Cause} (h : readString cs = .error cause) :
    cause = .unterminatedString := by
  fun_induction readString cs with
  | case1 => cases h; rfl
  | case2 => cases h
  | case3 => cases h; rfl
  | case4 e cs hq ih => exact ih (map_eq_error_iff.1 h)
  | case5 c cs hq hb ih => exact ih (map_eq_error_iff.1 h)

theorem cause_of_readCommand {depth : Nat} {quoted : Bool} {cs : Text} {cause : Cause}
    (h : readCommand depth quoted cs = .error cause) :
    cause = .unterminatedString ∨ cause = .unclosedParenthesis := by
  fun_induction readCommand depth quoted cs with
  | case1 depth quoted =>
    cases quoted with
    | true => cases h; exact .inl rfl
    | false => cases h; exact .inr rfl
  | case2 => cases h; exact .inl rfl
  | case3 depth e cs ih => exact ih (map_eq_error_iff.1 h)
  | case4 depth c cs hc ih => exact ih (map_eq_error_iff.1 h)
  | case5 => cases h
  | case6 depth quoted c cs hq hc ih => exact ih (map_eq_error_iff.1 h)

theorem isLexical_of_nextToken {cs : Text} {cause : Cause} (h : nextToken cs = .error cause) :
    cause.IsLexical := by
  unfold nextToken at h
  split at h
  · cases h
  · split at h
    · exact .inl (cause_of_readString (map_eq_error_iff.1 h))
    · split at h
      · exact (cause_of_readCommand (map_eq_error_iff.1 h)).imp_right .inl
      · split at h
        · cases h; exact .inr (.inr rfl)
        · cases h

/-- A command and its two parentheses are part of the text. -/
theorem length_of_nextToken_command {cs source rest : Text}
    (h : nextToken cs = .ok (some (.command source, rest))) :
    source.length + 2 + rest.length ≤ cs.length := by
  have hs := length_skipBlanks_le cs
  unfold nextToken at h
  split at h
  · cases h
  · next c tail hc =>
    rw [hc, List.length_cons] at hs
    split at h
    · obtain ⟨⟨_, _⟩, -, h⟩ := exists_ok_of_map_eq_ok h
      cases h
    · split at h
      · obtain ⟨⟨_, _⟩, hr, h⟩ := exists_ok_of_map_eq_ok h
        cases h
        have := length_of_readCommand hr
        omega
      · split at h <;> cases h

end Lexer

theorem isLexical_of_tokenize {line : Text} {cause : Cause} (h : tokenize line = .error cause) :
    cause.IsLexical := by
  fun_induction tokenize line with
  | case1 line c hn => cases h; exact Lexer.isLexical_of_nextToken hn
  | case2 => cases h
  | case3 line token rest hn ih => exact ih (map_eq_error_iff.1 h)

/-- The source of a command is shorter than the line the command stands in. -/
theorem length_lt_of_mem_tokenize {line source : Text} {tokens : List Token}
    (h : tokenize line = .ok tokens) (hm : Token.command source ∈ tokens) :
    source.length < line.length := by
  fun_induction tokenize line generalizing tokens with
  | case1 => cases h
  | case2 => cases h; cases hm
  | case3 line token rest hn ih =>
    obtain ⟨ts, hts, rfl⟩ := exists_ok_of_map_eq_ok h
    rcases List.mem_cons.1 hm with rfl | hm
    · have := Lexer.length_of_nextToken_command hn
      omega
    · have := ih hts hm
      have := Lexer.length_of_nextToken hn
      omega

/-! ## Readings that may run out of levels -/

/-- The first result is the second one, unless the first has run out of levels. -/
def Approximates {α : Type} (x y : Except Cause α) : Prop := x = .error .nestingTooDeep ∨ x = y

namespace Approximates

variable {α β : Type} {x y : Except Cause α}

theorem refl (x : Except Cause α) : Approximates x x := .inr rfl

theorem bind {f g : α → Except Cause β} (h : Approximates x y)
    (hf : ∀ a, Approximates (f a) (g a)) : Approximates (x >>= f) (y >>= g) := by
  rcases h with rfl | rfl
  · exact .inl rfl
  · cases x with
    | error cause => exact .inr rfl
    | ok a => exact hf a

theorem map (f : α → β) (h : Approximates x y) : Approximates (x.map f) (y.map f) := by
  rcases h with rfl | rfl
  · exact .inl rfl
  · exact .inr rfl

theorem mapM {f g : α → Except Cause β} (h : ∀ a, Approximates (f a) (g a)) (as : List α) :
    Approximates (as.mapM f) (as.mapM g) := by
  induction as with
  | nil => exact refl _
  | cons a as ih =>
    rw [List.mapM_cons, List.mapM_cons]
    exact (h a).bind fun b => ih.bind fun bs => refl _

end Approximates

theorem Command.ofTokensWith_approximates {f g : Token → Except Cause Argument}
    (h : ∀ t, Approximates (f t) (g t)) (tokens : List Token) :
    Approximates (Command.ofTokensWith f tokens) (Command.ofTokensWith g tokens) := by
  cases tokens with
  | nil => exact .refl _
  | cons name args => exact (h name).bind fun a => (Approximates.mapM h args).bind fun as => .refl _

/-- More levels give the same argument, unless the fewer run out. -/
theorem Argument.ofToken_approximates_of_le {d e : Nat} (h : d ≤ e) (token : Token) :
    Approximates (Argument.ofToken d token) (Argument.ofToken e token) := by
  induction d generalizing e token with
  | zero =>
    cases token with
    | literal text => exact .inr (by rw [Argument.ofToken, Argument.ofToken])
    | command source => exact .inl (by rw [Argument.ofToken])
  | succ d ih =>
    obtain ⟨e, rfl⟩ : ∃ k, e = k + 1 := Nat.exists_eq_add_one.2 (by omega)
    cases token with
    | literal text => exact .inr (by rw [Argument.ofToken, Argument.ofToken])
    | command source =>
      have hc : ∀ tokens, Approximates (Command.ofTokensWith (Argument.ofToken d) tokens)
          (Command.ofTokensWith (Argument.ofToken e) tokens) :=
        Command.ofTokensWith_approximates fun t => ih (by omega) t
      rw [Argument.ofToken, Argument.ofToken]
      exact (Approximates.refl _).bind fun tokens => (hc tokens).bind fun c => .refl _

/-! ## Enough levels -/

/-- A number of levels that reading the token never exceeds. -/
def Token.maxLevels : Token → Nat
  | .literal _ => 0
  | .command source => source.length + 1

/-- The argument that a token stands for, however deep the commands in it are nested. -/
def Token.argument (token : Token) : Except Cause Argument :=
  Argument.ofToken token.maxLevels token

theorem maxLevels_le_of_mem_tokenize {line : Text} {tokens : List Token} {token : Token}
    (h : tokenize line = .ok tokens) (hm : token ∈ tokens) : token.maxLevels ≤ line.length := by
  cases token with
  | literal text => exact Nat.zero_le _
  | command source => exact length_lt_of_mem_tokenize h hm

namespace Command

theorem ofTokensWith_cons_eq_error_iff {f : Token → Except Cause Argument} {name : Token}
    {args : List Token} {cause : Cause} :
    ofTokensWith f (name :: args) = .error cause ↔ (name :: args).mapM f = .error cause := by
  rw [mapM_cons_eq_error_iff, ofTokensWith, bind_eq_error_iff]
  simp [bind_eq_error_iff, pure, Except.pure]

theorem ofTokensWith_eq_error_iff {f : Token → Except Cause Argument} {tokens : List Token}
    {cause : Cause} (hc : cause ≠ .emptyCommand) :
    ofTokensWith f tokens = .error cause ↔ tokens.mapM f = .error cause := by
  cases tokens with
  | nil => exact ⟨fun h => absurd (Except.error.inj h).symm hc, nofun⟩
  | cons name args => exact ofTokensWith_cons_eq_error_iff

theorem cause_of_ofTokensWith {f : Token → Except Cause Argument} {tokens : List Token}
    {cause : Cause} (h : ofTokensWith f tokens = .error cause) :
    (tokens = [] ∧ cause = .emptyCommand) ∨ ∃ t ∈ tokens, f t = .error cause := by
  cases tokens with
  | nil => cases h; exact .inl ⟨rfl, rfl⟩
  | cons name args =>
    exact .inr (exists_mem_of_mapM_eq_error (ofTokensWith_cons_eq_error_iff.1 h))

/-- A command is made of tokens each of which is read. -/
theorem exists_ok_of_ofTokensWith {f : Token → Except Cause Argument} {tokens : List Token}
    {c : Command} {t : Token} (h : ofTokensWith f tokens = .ok c) (ht : t ∈ tokens) :
    ∃ a, f t = .ok a := by
  cases tokens with
  | nil => cases ht
  | cons name args =>
    cases hm : (name :: args).mapM f with
    | error cause => rw [ofTokensWith_cons_eq_error_iff.2 hm] at h; cases h
    | ok as => exact exists_ok_of_mem_of_mapM_eq_ok hm ht

theorem ofTokensWith_congr {f g : Token → Except Cause Argument} {tokens : List Token}
    (h : ∀ t ∈ tokens, f t = g t) : ofTokensWith f tokens = ofTokensWith g tokens := by
  have hm : ∀ ts : List Token, (∀ t ∈ ts, f t = g t) → ts.mapM f = ts.mapM g := by
    intro ts hts
    induction ts with
    | nil => rfl
    | cons t ts ih =>
      rw [List.mapM_cons, List.mapM_cons, hts t (by simp), ih fun u hu => hts u (by simp [hu])]
  cases tokens with
  | nil => rfl
  | cons name args =>
    rw [ofTokensWith, ofTokensWith, h name (by simp), hm args fun t ht => h t (by simp [ht])]

end Command

theorem Argument.ofToken_command {depth : Nat} {source : Text} {inner : List Token}
    (h : tokenize source = .ok inner) :
    Argument.ofToken (depth + 1) (.command source) =
      (Command.ofTokensWith (Argument.ofToken depth) inner).map .ofCommand := by
  rw [Argument.ofToken, h]
  rfl

theorem Argument.inLine_of_ofToken {depth : Nat} {token : Token} {cause : Cause}
    (h : Argument.ofToken depth token = .error cause) : cause.InLine := by
  induction depth generalizing token with
  | zero =>
    cases token with
    | literal text => rw [Argument.ofToken] at h; cases h
    | command source => rw [Argument.ofToken] at h; cases h; trivial
  | succ depth ih =>
    cases token with
    | literal text => rw [Argument.ofToken] at h; cases h
    | command source =>
      cases ht : tokenize source with
      | error lexical =>
        rw [Argument.ofToken, ht] at h
        cases h
        exact (isLexical_of_tokenize ht).inLine
      | ok inner =>
        rw [Argument.ofToken_command ht, map_eq_error_iff] at h
        rcases Command.cause_of_ofTokensWith h with ⟨-, rfl⟩ | ⟨t, -, h⟩
        · trivial
        · exact ih h

/-- A command in parentheses is too deep if one of its tokens is, one level further in. -/
theorem Argument.ofToken_command_eq_nestingTooDeep_iff {depth : Nat} {source : Text} :
    Argument.ofToken (depth + 1) (.command source) = .error .nestingTooDeep ↔
      ∃ tokens, tokenize source = .ok tokens ∧
        tokens.mapM (Argument.ofToken depth) = .error .nestingTooDeep := by
  have hl : tokenize source ≠ .error .nestingTooDeep := fun h => by
    simpa [Cause.IsLexical] using isLexical_of_tokenize h
  have hc : ∀ tokens,
      Command.ofTokensWith (Argument.ofToken depth) tokens = .error .nestingTooDeep ↔
        tokens.mapM (Argument.ofToken depth) = .error .nestingTooDeep :=
    fun tokens => Command.ofTokensWith_eq_error_iff nofun
  rw [Argument.ofToken, bind_eq_error_iff]
  simp [hl, hc, bind_eq_error_iff, pure, Except.pure]

theorem Argument.ofToken_ne_nestingTooDeep {depth : Nat} {token : Token}
    (h : token.maxLevels ≤ depth) : Argument.ofToken depth token ≠ .error .nestingTooDeep := by
  induction depth generalizing token with
  | zero =>
    cases token with
    | literal text => rw [Argument.ofToken]; exact nofun
    | command source => exact absurd h (by simp [Token.maxLevels])
  | succ depth ih =>
    cases token with
    | literal text => rw [Argument.ofToken]; exact nofun
    | command source =>
      have hd : source.length ≤ depth := Nat.le_of_succ_le_succ h
      intro he
      obtain ⟨tokens, ht, hm⟩ := Argument.ofToken_command_eq_nestingTooDeep_iff.1 he
      obtain ⟨t, hmem, ht'⟩ := exists_mem_of_mapM_eq_error hm
      exact ih (Nat.le_trans (maxLevels_le_of_mem_tokenize ht hmem) hd) ht'

theorem Argument.ofToken_approximates (depth : Nat) (token : Token) :
    Approximates (Argument.ofToken depth token) token.argument := by
  have hd := Argument.ofToken_approximates_of_le (Nat.le_max_left depth token.maxLevels) token
  have hm := Argument.ofToken_approximates_of_le (Nat.le_max_right depth token.maxLevels) token
  have hne := Argument.ofToken_ne_nestingTooDeep (Nat.le_refl token.maxLevels)
  rw [Token.argument, hm.resolve_left hne]
  exact hd

namespace Token

/-- The argument of a token in parentheses is made of those of the tokens inside. -/
theorem argument_command (source : Text) :
    (command source).argument = do
      let tokens ← tokenize source
      return .ofCommand (← Command.ofTokensWith argument tokens) := by
  rw [argument, maxLevels, Argument.ofToken]
  cases ht : tokenize source with
  | error cause => rfl
  | ok tokens =>
    have ha : ∀ t ∈ tokens, Argument.ofToken source.length t = t.argument := fun t hm =>
      (Argument.ofToken_approximates source.length t).resolve_left
        (Argument.ofToken_ne_nestingTooDeep (maxLevels_le_of_mem_tokenize ht hm))
    show (Command.ofTokensWith (Argument.ofToken source.length) tokens >>= _) = _
    rw [Command.ofTokensWith_congr ha]
    rfl

end Token

/-! ## Levels that are entered -/

namespace Token

/-- How many levels are entered in reading tokens up to the first that is refused, by how many are
entered in each. -/
def levelsAllWith (levels : Token → Nat) : List Token → Nat
  | [] => 0
  | token :: tokens =>
    match token.argument with
    | .ok _ => max (levels token) (levelsAllWith levels tokens)
    | .error _ => levels token

/-- How many levels are entered, one inside the other, in reading a token with `depth` levels and
one more to see that they have run out. -/
def levelsWithin : Nat → Token → Nat
  | _, .literal _ => 0
  | 0, .command _ => 1
  | depth + 1, .command source =>
    match tokenize source with
    | .ok tokens => levelsAllWith (levelsWithin depth) tokens + 1
    | .error _ => 1

/-- How many levels are entered in reading a token without a limit. -/
def levels (token : Token) : Nat := token.levelsWithin token.maxLevels

/-- How many levels are entered in reading tokens up to the first that is refused. -/
def levelsAll (tokens : List Token) : Nat := levelsAllWith levels tokens

end Token

namespace Argument

variable {depth : Nat}

/-- If each token is too deep exactly if it enters more levels than are left, so are several. -/
theorem mapM_ofToken_of_forall {levels : Token → Nat}
    (h : ∀ t, ofToken depth t = .error .nestingTooDeep ↔ depth < levels t) (tokens : List Token) :
    tokens.mapM (ofToken depth) = .error .nestingTooDeep ↔
      depth < Token.levelsAllWith levels tokens := by
  induction tokens with
  | nil => simp [Token.levelsAllWith, pure, Except.pure]
  | cons t ts ih =>
    rw [mapM_cons_eq_error_iff, h t, ih, Token.levelsAllWith]
    by_cases hd : depth < levels t
    · refine ⟨fun _ => ?_, fun _ => .inl hd⟩
      split
      · exact Nat.lt_of_lt_of_le hd (Nat.le_max_left _ _)
      · exact hd
    · have ha : ofToken depth t = t.argument :=
        (ofToken_approximates depth t).resolve_left fun ht => hd ((h t).1 ht)
      rw [ha]
      cases t.argument with
      | ok a =>
        have hm : depth < max (levels t) (Token.levelsAllWith levels ts) ↔
            depth < Token.levelsAllWith levels ts := by
          omega
        simp [hd, hm]
      | error cause => simp [hd]

theorem ofToken_eq_nestingTooDeep_iff_of_le {limit : Nat} (h : depth ≤ limit) {token : Token} :
    ofToken depth token = .error .nestingTooDeep ↔ depth < token.levelsWithin limit := by
  induction depth generalizing limit token with
  | zero =>
    cases token with
    | literal text => cases limit <;> simp [ofToken, Token.levelsWithin]
    | command source =>
      rw [ofToken]
      cases limit with
      | zero => simp [Token.levelsWithin]
      | succ limit =>
        rw [Token.levelsWithin]
        split <;> simp
  | succ depth ih =>
    obtain ⟨limit, rfl⟩ : ∃ k, limit = k + 1 := Nat.exists_eq_add_one.2 (by omega)
    cases token with
    | literal text => simp [ofToken, Token.levelsWithin]
    | command source =>
      have hm := mapM_ofToken_of_forall fun t => @ih limit (Nat.le_of_succ_le_succ h) t
      rw [ofToken_command_eq_nestingTooDeep_iff, Token.levelsWithin]
      cases tokenize source with
      | ok tokens => simp [hm]
      | error cause => simp

/-- A token is too deep exactly if reading it enters more levels than are left. -/
theorem ofToken_eq_nestingTooDeep_iff {token : Token} :
    ofToken depth token = .error .nestingTooDeep ↔ depth < token.levels := by
  rcases Nat.le_total depth token.maxLevels with h | h
  · exact ofToken_eq_nestingTooDeep_iff_of_le h
  · have hne := ofToken_ne_nestingTooDeep (Nat.le_refl token.maxLevels)
    rw [Ne, ofToken_eq_nestingTooDeep_iff_of_le (Nat.le_refl _), Nat.not_lt] at hne
    exact ⟨fun ht => absurd ht (ofToken_ne_nestingTooDeep h),
      fun ht => absurd ht (Nat.not_lt.2 (Nat.le_trans hne h))⟩

theorem mapM_ofToken_eq_nestingTooDeep_iff {tokens : List Token} :
    tokens.mapM (ofToken depth) = .error .nestingTooDeep ↔ depth < Token.levelsAll tokens :=
  mapM_ofToken_of_forall (fun _ => ofToken_eq_nestingTooDeep_iff) tokens

end Argument

namespace Token

theorem levels_le_maxLevels (token : Token) : token.levels ≤ token.maxLevels := by
  rw [← Nat.not_lt, ← Argument.ofToken_eq_nestingTooDeep_iff]
  exact Argument.ofToken_ne_nestingTooDeep (Nat.le_refl token.maxLevels)

theorem levelsWithin_eq_levels {token : Token} {limit : Nat} (h : token.maxLevels ≤ limit) :
    token.levelsWithin limit = token.levels := by
  have hiff : ∀ d, d ≤ limit → (d < token.levelsWithin limit ↔ d < token.levels) := fun d hd => by
    rw [← Argument.ofToken_eq_nestingTooDeep_iff_of_le hd, Argument.ofToken_eq_nestingTooDeep_iff]
  have hl := Nat.le_trans token.levels_le_maxLevels h
  have hw : ¬ limit < token.levelsWithin limit := by
    rw [hiff limit (Nat.le_refl limit), Nat.not_lt]
    exact hl
  have h₁ := hiff token.levels hl
  have h₂ := hiff (token.levelsWithin limit) (Nat.not_lt.1 hw)
  omega

theorem levelsAllWith_congr {f g : Token → Nat} {tokens : List Token}
    (h : ∀ t ∈ tokens, f t = g t) : levelsAllWith f tokens = levelsAllWith g tokens := by
  induction tokens with
  | nil => rfl
  | cons t ts ih =>
    rw [levelsAllWith, levelsAllWith, h t (by simp), ih fun u hu => h u (by simp [hu])]

/-- The levels of a token in parentheses are those of the tokens inside and one more. -/
theorem levels_command {source : Text} {tokens : List Token} (h : tokenize source = .ok tokens) :
    (command source).levels = levelsAll tokens + 1 := by
  have hc : levelsAllWith (levelsWithin source.length) tokens = levelsAllWith levels tokens :=
    levelsAllWith_congr fun t hm => levelsWithin_eq_levels (maxLevels_le_of_mem_tokenize h hm)
  rw [levels, maxLevels, levelsWithin, h, levelsAll, ← hc]

end Token

end BlockScript
