import BlockScript.Proofs.Shape
import BlockScript.Proofs.Tokenizing
import BlockScript.Syntax.OfTokens
import BlockScript.Syntax.Source

/-!
# Arguments read back from source

The source form of an argument is read as one token (`nextToken_toSource`), and that token stands
for the argument again (`ofToken_token`).  The reader of commands looks for the closing
parenthesis in the raw text, so the source of an argument has to be one that it reads through and
comes out of at the depth at which it went in (`Lexer.Balanced`).
-/

namespace BlockScript

/-! ## Quoted text -/

namespace Lexer

theorem readString_escapeSource (text rest : Text) :
    readString (text.flatMap Text.escapeSource ++ '"' :: rest) = .ok (text, rest) := by
  induction text with
  | nil => exact readString_quote rest
  | cons c cs ih =>
    rw [List.flatMap_cons, List.append_assoc]
    rcases Text.escapeSource_cases c with ⟨hs, -, -, hq, hb⟩ | ⟨e, hs, -, -, he⟩
    · rw [hs, List.singleton_append, readString_of_ne hq hb, ih]
      rfl
    · rw [hs, List.cons_append, List.singleton_append, readString_escape, ih, he]
      rfl

/-! ## Text that a command can contain -/

/-- The reader of a command goes through the text and is then where it was. -/
def Balanced (text : Text) : Prop :=
  ∀ depth rest, readCommand depth false (text ++ rest) =
    (readCommand depth false rest).map fun (raw, rest) => (text ++ raw, rest)

theorem balanced_nil : Balanced [] := by
  intro depth rest
  cases h : readCommand depth false rest <;> simp [h, Except.map]

theorem Balanced.append {s t : Text} (hs : Balanced s) (ht : Balanced t) : Balanced (s ++ t) := by
  intro depth rest
  rw [List.append_assoc, hs, ht]
  cases readCommand depth false rest <;> simp [Except.map]

theorem balanced_singleton {c : Char} (hq : c ≠ '"') (ho : c ≠ '(') (hc : c ≠ ')') :
    Balanced [c] := by
  intro depth rest
  have hd : depthAfter depth c = depth := by rw [depthAfter, if_neg ho, if_neg hc]
  have hf : (c == '"') = false := by simp [hq]
  rw [List.singleton_append, readCommand_of_not_close fun h => hc h.1, hd, hf]
  rfl

theorem balanced_of_forall_not_isDelimiter {text : Text} (h : ∀ c ∈ text, isDelimiter c = false) :
    Balanced text := by
  induction text with
  | nil => exact balanced_nil
  | cons c cs ih =>
    have hc : isDelimiter c = false := h c (by simp)
    simp only [isDelimiter, Bool.or_eq_false_iff, beq_eq_false_iff_ne] at hc
    exact (balanced_singleton hc.1.1.2 hc.1.2 hc.2).append (ih fun d hd => h d (by simp [hd]))

/-- Inside a string the reader of a command keeps the escapes, up to the closing quote. -/
theorem readCommand_escapeSource (text : Text) (depth : Nat) (rest : Text) :
    readCommand depth true (text.flatMap Text.escapeSource ++ '"' :: rest) =
      (readCommand depth false rest).map fun (raw, rest) =>
        (text.flatMap Text.escapeSource ++ '"' :: raw, rest) := by
  induction text with
  | nil => exact readCommand_quoted_of_ne (by decide)
  | cons c cs ih =>
    rw [List.flatMap_cons, List.append_assoc]
    rcases Text.escapeSource_cases c with ⟨hs, -, -, hq, hb⟩ | ⟨e, hs, -⟩
    · have ht : (c != '"') = true := by simp [hq]
      rw [hs, List.singleton_append, readCommand_quoted_of_ne hb, ht, ih]
      cases readCommand depth false rest <;> rfl
    · rw [hs, List.cons_append, List.singleton_append, readCommand_escape, ih]
      cases readCommand depth false rest <;> rfl

theorem balanced_quoted (text : Text) :
    Balanced ('"' :: (text.flatMap Text.escapeSource ++ ['"'])) := by
  intro depth rest
  have hd : depthAfter depth '"' = depth := rfl
  simp only [List.cons_append, List.append_assoc, List.nil_append]
  rw [readCommand_of_not_close (by simp), hd, BEq.rfl, readCommand_escapeSource]
  cases readCommand depth false rest <;> rfl

theorem Balanced.parenthesized {text : Text} (h : Balanced text) :
    Balanced ('(' :: (text ++ [')'])) := by
  intro depth rest
  have ho : depthAfter depth '(' = depth + 1 := rfl
  have hc : depthAfter (depth + 1) ')' = depth := rfl
  simp only [List.cons_append, List.append_assoc, List.nil_append]
  rw [readCommand_of_not_close (by simp), ho, show ('(' == '"') = false from rfl, h (depth + 1),
    readCommand_of_not_close (by simp), hc, show (')' == '"') = false from rfl]
  cases readCommand depth false rest <;> rfl

end Lexer

/-! ## Literal text -/

namespace Text

variable {text : Text}

theorem balanced_toSource (text : Text) : Lexer.Balanced text.toSource := by
  by_cases h : needsQuotes text
  · rw [toSource_of_needsQuotes h]
    exact Lexer.balanced_quoted text
  · rw [toSource_of_not_needsQuotes h]
    exact Lexer.balanced_of_forall_not_isDelimiter fun c hc => ((not_needsQuotes_iff.1 h).2 c hc).1

theorem nextToken_toSource (text : Text) {rest : Text} (hr : Lexer.EndsWord rest) :
    Lexer.nextToken (text.toSource ++ rest) = .ok (some (.literal text, rest)) := by
  by_cases h : needsQuotes text
  · rw [toSource_of_needsQuotes h]
    simp only [List.cons_append, List.append_assoc, List.nil_append]
    exact Lexer.nextToken_quote (Lexer.readString_escapeSource text rest)
  · rw [toSource_of_not_needsQuotes h]
    obtain ⟨hne, hplain⟩ := not_needsQuotes_iff.1 h
    refine Lexer.nextToken_word hne (fun c hc => (hplain c hc).1) (fun hc => ?_) hr
    exact (hplain _ (List.mem_of_mem_head? hc)).2.1 rfl

end Text

/-! ## Arguments -/

mutual

theorem Argument.balanced_toSource : ∀ a : Argument, Lexer.Balanced a.toSource
  | .literal text => by
    rw [Argument.toSource]
    exact text.balanced_toSource
  | .nested name args => by
    rw [Argument.toSource]
    exact (name.balanced_toSource.append (Argument.balanced_trailing args)).parenthesized

theorem Argument.balanced_trailing : ∀ as : List Argument, Lexer.Balanced (Argument.trailing as)
  | [] => by
    rw [Argument.trailing]
    exact Lexer.balanced_nil
  | a :: as => by
    have hs : Lexer.Balanced [' '] :=
      Lexer.balanced_singleton (by decide) (by decide) (by decide)
    rw [Argument.trailing]
    exact hs.append (a.balanced_toSource.append (Argument.balanced_trailing as))

end

namespace Argument

/-- The token that the source of an argument is read as. -/
def token : Argument → Token
  | .literal text => .literal text
  | .nested name args => .command (Command.toSource ⟨name, args⟩)

theorem nextToken_toSource (a : Argument) {rest : Text} (hr : Lexer.EndsWord rest) :
    Lexer.nextToken (a.toSource ++ rest) = .ok (some (a.token, rest)) := by
  cases a with
  | literal text =>
    rw [toSource, token]
    exact text.nextToken_toSource hr
  | nested name args =>
    have hb : Lexer.Balanced (Command.toSource ⟨name, args⟩) :=
      name.balanced_toSource.append (balanced_trailing args)
    have hc : Lexer.readCommand 0 false (Command.toSource ⟨name, args⟩ ++ ')' :: rest) =
        .ok (Command.toSource ⟨name, args⟩, rest) := by
      rw [hb 0, Lexer.readCommand_close]
      simp [Except.map]
    rw [toSource, token, List.cons_append, List.append_assoc, List.singleton_append]
    exact Lexer.nextToken_parenthesis hc

theorem endsWord_trailing (as : List Argument) : Lexer.EndsWord (trailing as) := by
  cases as with
  | nil =>
    rw [trailing]
    exact Lexer.endsWord_nil
  | cons a as =>
    rw [trailing]
    exact Lexer.endsWord_cons (by decide)

theorem tokenize_trailing (as : List Argument) : tokenize (trailing as) = .ok (as.map token) := by
  induction as with
  | nil => rw [trailing, tokenize_nil, List.map_nil]
  | cons a as ih =>
    rw [trailing, tokenize_of_isBlank (by decide),
      tokenize_of_some (a.nextToken_toSource (endsWord_trailing as)), ih, List.map_cons]
    rfl

theorem tokenize_toSource_append_trailing (a : Argument) (as : List Argument) :
    tokenize (a.toSource ++ trailing as) = .ok ((a :: as).map token) := by
  rw [tokenize_of_some (a.nextToken_toSource (endsWord_trailing as)), tokenize_trailing]
  rfl

theorem join_toSource (a : Argument) (as : List Argument) :
    Text.join [' '] ((a :: as).map toSource) = a.toSource ++ trailing as := by
  induction as generalizing a with
  | nil => rw [trailing, List.append_nil]; rfl
  | cons b bs ih =>
    rw [List.map_cons, List.map_cons, Text.join_cons_cons, ← List.map_cons, ih b, trailing]
    simp

theorem tokenize_join_toSource (as : List Argument) :
    tokenize (Text.join [' '] (as.map toSource)) = .ok (as.map token) := by
  cases as with
  | nil => exact tokenize_nil
  | cons a as => rw [join_toSource, tokenize_toSource_append_trailing]

end Argument

/-! ## Tokens of arguments -/

mutual

/-- The token of an argument stands for it, if as many levels may be open as the argument has. -/
theorem Argument.ofToken_token :
    ∀ (a : Argument) {depth : Nat}, a.levels ≤ depth → Argument.ofToken depth a.token = .ok a
  | .literal text, depth, _ => by
    rw [Argument.token, Argument.ofToken]
  | .nested name args, 0, h => by
    rw [Argument.levels] at h
    omega
  | .nested name args, depth + 1, h => by
    rw [Argument.levels] at h
    have hn : Argument.ofToken depth name.token = .ok name :=
      name.ofToken_token (by omega)
    have ha : Argument.ofTokens depth (args.map Argument.token) = .ok args :=
      Argument.ofTokens_map_token args (by omega)
    rw [Argument.ofTokens] at ha
    rw [Argument.token, Argument.ofToken, Command.toSource,
      Argument.tokenize_toSource_append_trailing, List.map_cons]
    simp only [Command.ofTokensWith, hn, ha, bind, Except.bind, pure, Except.pure]
    rfl

theorem Argument.ofTokens_map_token :
    ∀ (as : List Argument) {depth : Nat}, Argument.levelsAll as ≤ depth →
      Argument.ofTokens depth (as.map Argument.token) = .ok as
  | [], _, _ => rfl
  | a :: as, depth, h => by
    rw [Argument.levelsAll_cons_le_iff] at h
    have ha : Argument.ofToken depth a.token = .ok a := a.ofToken_token h.1
    have has : Argument.ofTokens depth (as.map Argument.token) = .ok as :=
      Argument.ofTokens_map_token as h.2
    rw [Argument.ofTokens] at has ⊢
    rw [List.map_cons, List.mapM_cons, ha, has]
    rfl

end

namespace Command

variable {c : Command} {depth : Nat}

theorem tokenize_toSource (c : Command) :
    tokenize c.toSource = .ok ((c.name :: c.args).map Argument.token) :=
  Argument.tokenize_toSource_append_trailing c.name c.args

theorem ofTokens_map_token (h : c.levels ≤ depth) :
    Command.ofTokens depth ((c.name :: c.args).map Argument.token) = .ok c := by
  rw [levels, Argument.levelsAll_cons_le_iff] at h
  have hn : Argument.ofToken depth c.name.token = .ok c.name := c.name.ofToken_token h.1
  have ha : Argument.ofTokens depth (c.args.map Argument.token) = .ok c.args :=
    Argument.ofTokens_map_token c.args h.2
  rw [Argument.ofTokens] at ha
  rw [List.map_cons, ofTokens, ofTokensWith, hn, ha]
  rfl

theorem ofTokens_tokenize_toSource (h : c.levels ≤ depth) :
    (tokenize c.toSource).bind (Command.ofTokens depth) = .ok c := by
  rw [tokenize_toSource]
  exact ofTokens_map_token h

theorem toSource_injective : Function.Injective Command.toSource := by
  intro c d h
  have hc := ofTokens_tokenize_toSource (Nat.le_max_left c.levels d.levels)
  have hd := ofTokens_tokenize_toSource (Nat.le_max_right c.levels d.levels)
  rw [h, hd] at hc
  exact (Except.ok.inj hc).symm

end Command

/-! ## Round trip -/

/-- Arguments written one after the other, with a space between neighbours, are read as one token
each, and these tokens stand for the arguments again; so a command is read back from its source,
and no two commands are written alike. -/
theorem tokenize_toSource_roundTrip :
    (∀ args : List Argument, ∃ tokens,
      tokenize (Text.join [' '] (args.map Argument.toSource)) = .ok tokens ∧
        tokens.length = args.length ∧
        ∀ depth, Argument.levelsAll args ≤ depth → Argument.ofTokens depth tokens = .ok args) ∧
      (∀ (c : Command) (depth : Nat), c.levels ≤ depth →
        (tokenize c.toSource).bind (Command.ofTokens depth) = .ok c) ∧
      Function.Injective Command.toSource := by
  refine ⟨fun args => ⟨args.map Argument.token, ?_, ?_, ?_⟩, ?_, ?_⟩
  · exact Argument.tokenize_join_toSource args
  · exact List.length_map Argument.token
  · exact fun depth h => Argument.ofTokens_map_token args h
  · exact fun c depth h => Command.ofTokens_tokenize_toSource h
  · exact Command.toSource_injective

/-- A command inside another, with an empty text and one that holds a parenthesis, a quote, a
backslash and a line feed. -/
theorem tokenize_toSource_roundTrip_nested :
    Command.levels ⟨.literal "a#".toList, [.nested (.literal []) [.literal ")\"\\\n".toList]]⟩ ≤ 1 ∧
      (tokenize "\"a#\" (\"\" \")\\\"\\\\\\n\")".toList).bind (Command.ofTokens 1) =
        .ok ⟨.literal "a#".toList, [.nested (.literal []) [.literal ")\"\\\n".toList]]⟩ :=
  ⟨by decide, tokenize_toSource_roundTrip.2.1 ⟨.literal "a#".toList,
    [.nested (.literal []) [.literal ")\"\\\n".toList]]⟩ 1 (by decide)⟩

end BlockScript
