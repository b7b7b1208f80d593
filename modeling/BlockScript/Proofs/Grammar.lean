import BlockScript.Proofs.Shape
import BlockScript.Proofs.Statement

/-!
# The grammar of blocks

`Block.WrittenOn` says which blocks some lines are made of, line by line and without a reader: a
line without tokens is none, a line that says a command is that command, and a loop is the line
that says its header, the lines of its body and a line of nothing but the closing mark.  The
readers give the blocks of the grammar that have no more levels than are left, and no others
(`Block.keepsGrammar_readBody`, `Block.readBodyWith_of_writtenOn`, `Block.readAll_eq_ok_iff`).
-/

namespace BlockScript

/-! ## Levels of what is read -/

/-- Tokens that are all read enter as many levels as their arguments have. -/
theorem Token.levelsAll_of_mapM {tokens : List Token} {as : List Argument}
    (h : tokens.mapM argument = .ok as)
    (hlevels : ∀ t ∈ tokens, ∀ a, t.argument = .ok a → t.levels = a.levels) :
    levelsAll tokens = Argument.levelsAll as := by
  unfold levelsAll at *
  induction tokens generalizing as with
  | nil => cases h; rfl
  | cons t ts ih =>
    obtain ⟨a, as, ha, has, rfl⟩ := mapM_cons_eq_ok_iff.1 h
    rw [levelsAllWith, ha, Argument.levelsAll, ← ih has fun u hu => hlevels u (by simp [hu]),
      hlevels t (by simp) a ha]

theorem Command.mapM_of_ofTokensWith {f : Token → Except Cause Argument} {tokens : List Token}
    {c : Command} (h : ofTokensWith f tokens = .ok c) : tokens.mapM f = .ok (c.name :: c.args) := by
  cases tokens with
  | nil => cases h
  | cons name args =>
    obtain ⟨a, ha, h⟩ := bind_eq_ok_iff.1 h
    obtain ⟨as, has, h⟩ := bind_eq_ok_iff.1 h
    cases h
    exact mapM_cons_eq_ok_iff.2 ⟨a, as, ha, has, rfl⟩

/-- A token that is read enters as many levels as its argument has. -/
theorem Token.levels_of_argument : ∀ {t : Token} {a : Argument}, t.argument = .ok a →
    t.levels = a.levels
  | .literal text, a, h => by
    cases h
    rfl
  | .command source, a, h => by
    rw [argument_command] at h
    obtain ⟨tokens, ht, h⟩ := bind_eq_ok_iff.1 h
    obtain ⟨c, hc, h⟩ := bind_eq_ok_iff.1 h
    cases h
    have hlevels : levelsAll tokens = Argument.levelsAll (c.name :: c.args) :=
      levelsAll_of_mapM (Command.mapM_of_ofTokensWith hc) fun t hm b hb =>
        -- for the recursion: the source around is longer
        have : t.maxLevels < (command source).maxLevels :=
          Nat.lt_succ_of_le (maxLevels_le_of_mem_tokenize ht hm)
        levels_of_argument hb
    rw [levels_command ht, hlevels]
    rfl
termination_by t => t.maxLevels

theorem Token.argument_eq_literal_iff {t : Token} {text : Text} :
    t.argument = .ok (.literal text) ↔ t = .literal text := by
  cases t with
  | literal s =>
    show Except.ok (Argument.literal s) = .ok (.literal text) ↔ _
    simp
  | command source =>
    refine iff_of_false (fun h => ?_) nofun
    rw [argument_command] at h
    obtain ⟨tokens, -, h⟩ := bind_eq_ok_iff.1 h
    obtain ⟨c, -, h⟩ := bind_eq_ok_iff.1 h
    cases h

/-- With `depth` levels left, a token is read as the argument it stands for if that has no more. -/
theorem Argument.ofToken_eq_ok_iff {depth : Nat} {t : Token} {a : Argument} :
    ofToken depth t = .ok a ↔ t.argument = .ok a ∧ a.levels ≤ depth := by
  have hdeep := @ofToken_eq_nestingTooDeep_iff depth t
  rcases ofToken_approximates depth t with h | h
  · refine iff_of_false (by rw [h]; nofun) ?_
    rintro ⟨ha, hle⟩
    have hlt := hdeep.1 h
    rw [Token.levels_of_argument ha] at hlt
    omega
  · rw [h] at hdeep ⊢
    refine ⟨fun ha => ⟨ha, ?_⟩, And.left⟩
    rw [ha, Token.levels_of_argument ha] at hdeep
    simpa using hdeep

/-- The arguments in a header. -/
def LoopHeader.arguments : LoopHeader → List Argument
  | .forEach key? value => key?.toList ++ [value]
  | .whileLoop condition => condition

theorem LoopHeader.levels_block (header : LoopHeader) (body : List Block) :
    (header.block body).levels =
      max (Argument.levelsAll header.arguments) (Block.levelsAll body + 1) := by
  cases header <;> rw [block, Block.levels, arguments]

namespace Statement

variable {f : Token → Except Cause Argument} {tokens : List Token} {statement : Statement}

/-- The arguments on a line, the name of a command among them. -/
def arguments : Statement → List Argument
  | .opening header => header.arguments
  | .command c => c.name :: c.args

/-- What a line says has the arguments that its tokens are read as. -/
theorem mapM_operands (h : ofTokensWith f tokens = .ok statement) :
    (operands tokens).mapM f = .ok statement.arguments := by
  have hfor : ∀ header, LoopHeader.ofForTokens f tokens = .ok header →
      (LoopHeader.forOperands tokens).mapM f = .ok header.arguments := by
    unfold LoopHeader.ofForTokens LoopHeader.forOperands
    intro header h
    split at h
    · cases h
    · next hb =>
      rw [if_neg hb]
      split at h
      · obtain ⟨value, hv, h⟩ := bind_eq_ok_iff.1 h
        cases h
        exact mapM_cons_eq_ok_iff.2 ⟨value, [], hv, rfl, rfl⟩
      · obtain ⟨key, hk, h⟩ := bind_eq_ok_iff.1 h
        obtain ⟨value, hv, h⟩ := bind_eq_ok_iff.1 h
        cases h
        exact mapM_cons_eq_ok_iff.2
          ⟨key, [value], hk, mapM_cons_eq_ok_iff.2 ⟨value, [], hv, rfl, rfl⟩, rfl⟩
      · cases h
  have hwhile : ∀ header, LoopHeader.ofWhileTokens f tokens = .ok header →
      (LoopHeader.whileOperands tokens).mapM f = .ok header.arguments := by
    unfold LoopHeader.ofWhileTokens LoopHeader.whileOperands
    intro header h
    split at h
    · cases h
    · next hb =>
      obtain ⟨condition, hc, h⟩ := bind_eq_ok_iff.1 h
      cases h
      rw [if_neg hb]
      exact hc
  unfold ofTokensWith at h
  unfold operands
  split at h
  · next hf =>
    obtain ⟨header, hh, rfl⟩ := exists_ok_of_map_eq_ok h
    rw [if_pos hf]
    exact hfor header hh
  · next hf =>
    rw [if_neg hf]
    split at h
    · next hw =>
      obtain ⟨header, hh, rfl⟩ := exists_ok_of_map_eq_ok h
      rw [if_pos hw]
      exact hwhile header hh
    · next hw =>
      obtain ⟨c, hc, rfl⟩ := exists_ok_of_map_eq_ok h
      rw [if_neg hw]
      exact Command.mapM_of_ofTokensWith hc

/-- A line that is understood enters as many levels as its arguments have. -/
theorem levels_of_ofTokensWith (h : ofTokensWith Token.argument tokens = .ok statement) :
    levels tokens = Argument.levelsAll statement.arguments :=
  Token.levelsAll_of_mapM (mapM_operands h) fun _ _ _ => Token.levels_of_argument

/-- With `depth` levels left, a line is understood if its arguments have no more. -/
theorem ofTokensWith_ofToken_eq_ok_iff {depth : Nat} :
    ofTokensWith (Argument.ofToken depth) tokens = .ok statement ↔
      ofTokensWith Token.argument tokens = .ok statement ∧
        Argument.levelsAll statement.arguments ≤ depth := by
  have hdeep := @ofTokensWith_ofToken_eq_nestingTooDeep_iff depth tokens
  rcases ofTokensWith_approximates (Argument.ofToken_approximates depth) tokens with h | h
  · refine iff_of_false (by rw [h]; nofun) ?_
    rintro ⟨hs, hle⟩
    have hlt := hdeep.1 h
    rw [levels_of_ofTokensWith hs] at hlt
    omega
  · rw [h] at hdeep ⊢
    refine ⟨fun hs => ⟨hs, ?_⟩, And.left⟩
    rw [hs, levels_of_ofTokensWith hs] at hdeep
    simpa using hdeep

end Statement

/-! ## The grammar -/

/-- The line has tokens and they say the statement. -/
def Line.Means (line : Line) (statement : Statement) : Prop :=
  ∃ tokens, tokenize line.text = .ok tokens ∧
    Statement.ofTokensWith Token.argument tokens = .ok statement

namespace Block

/-- The blocks that some lines are made of.  In a body no line begins with the closing mark. -/
inductive WrittenOn : (inBody : Bool) → List Line → List Block → Prop where
  | nil {inBody : Bool} : WrittenOn inBody [] []
  | blank {inBody : Bool} {line : Line} {lines : List Line} {bs : List Block}
      (hline : tokenize line.text = .ok []) (hrest : WrittenOn inBody lines bs) :
      WrittenOn inBody (line :: lines) bs
  | command {inBody : Bool} {line : Line} {lines : List Line} {c : Command} {bs : List Block}
      (hline : line.Means (.command c)) (hopen : inBody → closing? line = none)
      (hrest : WrittenOn inBody lines bs) : WrittenOn inBody (line :: lines) (.command c :: bs)
  | loop {inBody : Bool} {line close : Line} {inner lines : List Line} {header : LoopHeader}
      {body bs : List Block} (hline : line.Means (.opening header))
      (hbody : WrittenOn true inner body) (hclose : closing? close = some [])
      (hrest : WrittenOn inBody lines bs) :
      WrittenOn inBody (line :: (inner ++ close :: lines)) (header.block body :: bs)

theorem WrittenOn.append {inBody : Bool} {front lines : List Line} {bs cs : List Block}
    (h : WrittenOn inBody front bs) (hrest : WrittenOn inBody lines cs) :
    WrittenOn inBody (front ++ lines) (bs ++ cs) := by
  induction h with
  | nil => exact hrest
  | blank hline _ ih => exact .blank hline (ih hrest)
  | command hline hopen _ ih => exact .command hline hopen (ih hrest)
  | loop hline hbody hclose _ _ ih =>
    rw [List.cons_append, List.append_assoc, List.cons_append, List.cons_append]
    exact .loop hline hbody hclose (ih hrest)

/-- The name of a command is the first token of its line if it is a text, and not a word that
opens a loop. -/
theorem tokens_of_means_command {line : Line} {c : Command} (h : line.Means (.command c)) :
    ∃ first rest, tokenize line.text = .ok (first :: rest) ∧
      first ≠ .forWord ∧ first ≠ .whileWord ∧
      ∀ text, c.name = .literal text ↔ first = .literal text := by
  obtain ⟨tokens, ht, hs⟩ := h
  unfold Statement.ofTokensWith at hs
  split at hs
  · obtain ⟨header, -, hh⟩ := exists_ok_of_map_eq_ok hs
    cases hh
  · next hfor =>
    split at hs
    · obtain ⟨header, -, hh⟩ := exists_ok_of_map_eq_ok hs
      cases hh
    · next hwhile =>
      obtain ⟨d, hd, hh⟩ := exists_ok_of_map_eq_ok hs
      cases hh
      cases tokens with
      | nil => cases hd
      | cons first rest =>
        obtain ⟨name, args, hname, -, hc⟩ := mapM_cons_eq_ok_iff.1 (Command.mapM_of_ofTokensWith hd)
        obtain rfl : c.name = name := (List.cons.inj hc).1
        refine ⟨first, rest, ht, by simpa using hfor, by simpa using hwhile, fun text => ?_⟩
        rw [← Token.argument_eq_literal_iff, hname, Except.ok.injEq]

/-- A line that is a command closes the body it stands in exactly if the command is named like the
closing mark. -/
theorem closing?_eq_none_iff_of_means_command {line : Line} {c : Command}
    (h : line.Means (.command c)) : closing? line = none ↔ c.name ≠ .literal ['\x7d'] := by
  obtain ⟨first, rest, ht, -, -, hname⟩ := tokens_of_means_command h
  rw [Ne, hname, Option.eq_none_iff_forall_ne_some]
  refine ⟨fun hc hf => hc rest ?_, fun hf extra hc => hf ?_⟩
  · rw [closing?_eq_some_iff, ht, hf]
    rfl
  · rw [closing?_eq_some_iff, ht] at hc
    exact (List.cons.inj (Except.ok.inj hc)).1

/-- A line that opens a loop does not close the body it stands in. -/
theorem closing?_of_means_opening {line : Line} {header : LoopHeader}
    (h : line.Means (.opening header)) : closing? line = none := by
  obtain ⟨tokens, ht, hs⟩ := h
  rw [Option.eq_none_iff_forall_ne_some]
  intro extra hc
  rw [closing?_eq_some_iff, ht] at hc
  cases hc
  have hcommand : Statement.ofTokensWith Token.argument (.bodyMark :: extra) =
      (Command.ofTokensWith Token.argument (.bodyMark :: extra)).map .command := rfl
  rw [hcommand] at hs
  obtain ⟨c, -, hc⟩ := exists_ok_of_map_eq_ok hs
  cases hc

/-! ## What a reader of a block can give -/

section Reading

variable {depth : Nat} {body : List Line → Reading (List Block)} {line : Line} {lines : List Line}

theorem readWith_of_means_command {c : Command} (h : line.Means (.command c))
    (hd : c.levels ≤ depth) :
    readWith depth body (line :: lines) = ⟨.ok (some (.command c)), 1⟩ := by
  obtain ⟨tokens, ht, hs⟩ := h
  have hread := Statement.ofTokensWith_ofToken_eq_ok_iff.2 ⟨hs, hd⟩
  cases tokens with
  | nil => cases hs
  | cons first rest =>
    rw [readWith_of_cons ht, readStatement_eq, hread, Reading.ofExcept_ok_andThen]
    rfl

theorem readWith_of_means_opening {header : LoopHeader} {bs : List Block} {n : Nat}
    (h : line.Means (.opening header)) (hd : Argument.levelsAll header.arguments ≤ depth)
    (hb : body lines = ⟨.ok bs, n⟩) :
    readWith depth body (line :: lines) = ⟨.ok (some (header.block bs)), n + 1⟩ := by
  obtain ⟨tokens, ht, hs⟩ := h
  have hread := Statement.ofTokensWith_ofToken_eq_ok_iff.2 ⟨hs, hd⟩
  cases tokens with
  | nil => cases hs
  | cons first rest =>
    rw [readWith_of_cons ht, readStatement_eq, hread, Reading.ofExcept_ok_andThen,
      Statement.reading, hb, Nat.add_comm]
    rfl

/-- Where a block is read or a line passed over, the line has no tokens, is a command or opens a
loop whose body is read behind it. -/
theorem readWith_cases {block : Option Block} {n : Nat}
    (h : readWith depth body (line :: lines) = ⟨.ok block, n⟩) :
    (tokenize line.text = .ok [] ∧ block = none ∧ n = 1) ∨
      (∃ c, line.Means (.command c) ∧ c.levels ≤ depth ∧ block = some (.command c) ∧ n = 1) ∨
      ∃ header bs k, line.Means (.opening header) ∧
        Argument.levelsAll header.arguments ≤ depth ∧ body lines = ⟨.ok bs, k⟩ ∧
        block = some (header.block bs) ∧ n = k + 1 := by
  cases ht : tokenize line.text with
  | error cause => rw [readWith_of_error ht] at h; cases h
  | ok tokens =>
    cases tokens with
    | nil =>
      rw [readWith_of_nil ht] at h
      cases h
      exact .inl ⟨rfl, rfl, rfl⟩
    | cons first rest =>
      rw [readWith_of_cons ht, readStatement_eq] at h
      cases hs : Statement.ofTokensWith (Argument.ofToken depth) (first :: rest) with
      | error cause => rw [hs] at h; cases h
      | ok statement =>
        rw [hs, Reading.ofExcept_ok_andThen] at h
        obtain ⟨hst, hd⟩ := Statement.ofTokensWith_ofToken_eq_ok_iff.1 hs
        cases statement with
        | command c =>
          cases h
          exact .inr (.inl ⟨c, ⟨_, ht, hst⟩, hd, rfl, rfl⟩)
        | opening header =>
          rw [Statement.reading] at h
          cases hb : body lines with
          | mk result k =>
            rw [hb] at h
            cases result with
            | error e => cases h
            | ok bs =>
              cases h
              exact .inr (.inr ⟨header, bs, k, ⟨_, ht, hst⟩, hd, rfl, rfl, Nat.add_comm 1 k⟩)

end Reading

/-! ## Readers keep to the grammar -/

section Sound

variable {depth : Nat} {body : List Line → Reading (List Block)} {line : Line} {lines : List Line}

/-- A reader of bodies that gives blocks of the grammar with fewer levels than `depth`, and passes
them and the line that closes them. -/
def KeepsGrammar (depth : Nat) (body : List Line → Reading (List Block)) : Prop :=
  ∀ lines bs n, body lines = ⟨.ok bs, n⟩ →
    ∃ inner close rest, lines = inner ++ close :: rest ∧ n = inner.length + 1 ∧
      closing? close = some [] ∧ WrittenOn true inner bs ∧ levelsAll bs < depth

/-- A block that is read is written on the lines that are passed. -/
theorem writtenOn_of_readWith (hbody : KeepsGrammar depth body) {inBody : Bool}
    {block : Option Block} {n : Nat} (hopen : inBody → closing? line = none)
    (h : readWith depth body (line :: lines) = ⟨.ok block, n + 1⟩) :
    n ≤ lines.length ∧ WrittenOn inBody (line :: lines.take n) block.toList ∧
      levelsAll block.toList ≤ depth := by
  rcases readWith_cases h with
    ⟨ht, rfl, hn⟩ | ⟨c, hs, hd, rfl, hn⟩ | ⟨header, bs, k, hs, hd, hb, rfl, hn⟩
  · obtain rfl : n = 0 := Nat.succ.inj hn
    exact ⟨Nat.zero_le _, .blank ht .nil, Nat.zero_le _⟩
  · obtain rfl : n = 0 := Nat.succ.inj hn
    refine ⟨Nat.zero_le _, .command hs hopen .nil, ?_⟩
    rw [Option.toList_some, levelsAll_cons_le_iff, levels]
    exact ⟨hd, Nat.zero_le _⟩
  · obtain ⟨inner, close, rest, rfl, rfl, hclose, hw, hlt⟩ := hbody lines bs k hb
    obtain rfl : n = inner.length + 1 := Nat.succ.inj hn
    have htake : (inner ++ close :: rest).take (inner.length + 1) = inner ++ [close] := by
      rw [List.append_cons]
      exact List.take_left' (by simp)
    rw [Option.toList_some, levelsAll_cons_le_iff, header.levels_block, htake]
    refine ⟨by simp, .loop hs hw hclose .nil, Nat.max_le.2 ⟨hd, hlt⟩, Nat.zero_le _⟩

theorem keepsGrammar_readBodyWith (hbody : KeepsGrammar depth body) :
    ∀ (lines : List Line) (bs : List Block) (n : Nat),
      readBodyWith (readWith depth body) false lines = ⟨.ok bs, n⟩ →
      ∃ inner close rest, lines = inner ++ close :: rest ∧ n = inner.length + 1 ∧
        closing? close = some [] ∧ WrittenOn true inner bs ∧ levelsAll bs ≤ depth
  | [], bs, n, h => by
    rw [readBodyWith_nil] at h
    cases h
  | line :: lines, bs, n, h => by
    cases hc : closing? line with
    | some extra =>
      rw [readBodyWith_of_closing hc] at h
      split at h
      · cases h
      · next he =>
        cases h
        obtain rfl : extra = [] := by simpa using he
        exact ⟨[], line, lines, rfl, rfl, hc, .nil, Nat.zero_le _⟩
    | none =>
      cases hr : (readWith depth body (line :: lines)).result with
      | error e =>
        rw [readBodyWith_of_error hc hr] at h
        cases h
      | ok block =>
        obtain ⟨k, hk⟩ := exists_passed_of_readWith hr
        obtain ⟨hle, hw, hd⟩ := writtenOn_of_readWith hbody (fun _ => hc) hk
        rw [readBodyWith_of_ok hc hk] at h
        cases hrest : readBodyWith (readWith depth body) false (lines.drop k) with
        | mk result m =>
          rw [hrest] at h
          cases result with
          | error e => cases h
          | ok cs =>
            rw [Reading.map_ok, Reading.after_mk] at h
            cases h
            obtain ⟨inner, close, rest, hl, rfl, hclose, hws, hds⟩ :=
              keepsGrammar_readBodyWith hbody (lines.drop k) cs m hrest
            refine ⟨line :: lines.take k ++ inner, close, rest, ?_, ?_, hclose, hw.append hws, ?_⟩
            · rw [List.append_assoc, ← hl, List.cons_append, List.take_append_drop]
            · rw [List.length_append, List.length_cons, List.length_take, Nat.min_eq_left hle]
              omega
            · rw [levelsAll_append]
              exact Nat.max_le.2 ⟨hd, hds⟩
termination_by lines => lines.length
decreasing_by simp only [List.length_drop, List.length_cons]; omega

theorem keepsGrammar_readBody (depth : Nat) : KeepsGrammar depth (readBody depth) := by
  induction depth with
  | zero => exact fun lines bs n h => nomatch h
  | succ depth ih =>
    intro lines bs n h
    rw [readBody_succ] at h
    obtain ⟨inner, close, rest, hl, hn, hclose, hw, hd⟩ :=
      keepsGrammar_readBodyWith ih lines bs n h
    exact ⟨inner, close, rest, hl, hn, hclose, hw, Nat.lt_succ_of_le hd⟩

/-- All blocks that are read are written on the lines. -/
theorem writtenOn_of_readAll : ∀ {lines : List Line} {bs : List Block},
    (readAll lines).result = .ok bs → WrittenOn false lines bs ∧ levelsAll bs ≤ maxNesting
  | [], bs, h => by
    rw [readAll_nil] at h
    cases h
    exact ⟨.nil, Nat.zero_le _⟩
  | line :: lines, bs, h => by
    cases hr : (read (line :: lines)).result with
    | error e =>
      rw [readAll_of_error hr] at h
      cases h
    | ok block =>
      obtain ⟨k, hk⟩ := exists_passed_of_readWith hr
      have hopen : false = true → closing? line = none := nofun
      obtain ⟨-, hw, hd⟩ := writtenOn_of_readWith (keepsGrammar_readBody maxNesting) hopen hk
      rw [readAll_of_ok hk] at h
      obtain ⟨cs, hcs, rfl⟩ := exists_ok_of_map_eq_ok h
      obtain ⟨hws, hds⟩ := writtenOn_of_readAll hcs
      have hall := hw.append hws
      rw [List.cons_append, List.take_append_drop] at hall
      rw [levelsAll_append]
      exact ⟨hall, Nat.max_le.2 ⟨hd, hds⟩⟩
termination_by lines => lines.length
decreasing_by simp only [List.length_drop, List.length_cons]; omega

end Sound

/-! ## The grammar is read -/

/-- The blocks of a body are read from the lines they are written on, up to the line that closes
the body, if as many levels are left as they have. -/
theorem readBodyWith_of_writtenOn {inBody : Bool} {inner : List Line} {bs : List Block}
    (h : WrittenOn inBody inner bs) :
    ∀ {depth : Nat} {close : Line} (rest : List Line), inBody = true → levelsAll bs ≤ depth →
      closing? close = some [] →
      readBodyWith (readWith depth (readBody depth)) false (inner ++ close :: rest) =
        ⟨.ok bs, inner.length + 1⟩ := by
  induction h with
  | nil =>
    intro depth close rest _ _ hclose
    rw [List.nil_append, readBodyWith_of_closing hclose]
    rfl
  | @blank inBody line lines bs ht _ ih =>
    intro depth close rest hi hd hclose
    have hc : closing? line = none := by rw [closing?, ht]
    rw [List.cons_append, readBodyWith_of_ok hc (readWith_of_nil ht), List.drop_zero,
      ih rest hi hd hclose]
    simp [Reading.map_ok, Reading.after_mk, Nat.add_comm]
  | @command inBody line lines c bs hs hopen _ ih =>
    intro depth close rest hi hd hclose
    rw [levelsAll_cons_le_iff, levels] at hd
    rw [List.cons_append, readBodyWith_of_ok (hopen hi) (readWith_of_means_command hs hd.1),
      List.drop_zero, ih rest hi hd.2 hclose]
    simp [Reading.map_ok, Reading.after_mk, Nat.add_comm]
  | @loop inBody line last inner lines header body bs hs _ hlast _ ihbody ih =>
    intro depth close rest hi hd hclose
    rw [levelsAll_cons_le_iff, header.levels_block, Nat.max_le] at hd
    obtain ⟨d, rfl⟩ : ∃ d, depth = d + 1 := Nat.exists_eq_add_one.2 (by omega)
    have hb : readBody (d + 1) (inner ++ last :: (lines ++ close :: rest)) =
        ⟨.ok body, inner.length + 1⟩ :=
      ihbody (lines ++ close :: rest) rfl (by omega) hlast
    have hdrop : (inner ++ last :: (lines ++ close :: rest)).drop (inner.length + 1) =
        lines ++ close :: rest := by
      rw [List.append_cons]
      exact List.drop_left' (by simp)
    rw [List.cons_append, List.append_assoc, List.cons_append,
      readBodyWith_of_ok (closing?_of_means_opening hs) (readWith_of_means_opening hs hd.1.1 hb),
      hdrop, ih rest hi hd.2 hclose]
    simp [Reading.map_ok, Reading.after_mk]
    omega

/-- The blocks that lines are made of are read if they have no more levels than there are. -/
theorem readAll_of_writtenOn {inBody : Bool} {lines : List Line} {bs : List Block}
    (h : WrittenOn inBody lines bs) (hd : levelsAll bs ≤ maxNesting) :
    readAll lines = ⟨.ok bs, lines.length⟩ := by
  induction h with
  | nil => exact readAll_nil
  | @blank inBody line lines bs ht _ ih =>
    have hread : read (line :: lines) = ⟨.ok none, 1⟩ := readWith_of_nil ht
    rw [readAll_of_ok hread, List.drop_zero, ih hd]
    simp [Reading.map_ok, Reading.after_mk, Nat.add_comm]
  | @command inBody line lines c bs hs _ _ ih =>
    rw [levelsAll_cons_le_iff, levels] at hd
    have hread : read (line :: lines) = ⟨.ok (some (.command c)), 1⟩ :=
      readWith_of_means_command hs hd.1
    rw [readAll_of_ok hread, List.drop_zero, ih hd.2]
    simp [Reading.map_ok, Reading.after_mk, Nat.add_comm]
  | @loop inBody line last inner lines header body bs hs hbody hlast _ _ ih =>
    rw [levelsAll_cons_le_iff, header.levels_block, Nat.max_le] at hd
    obtain ⟨d, hmax⟩ : ∃ d, maxNesting = d + 1 := ⟨255, rfl⟩
    have hb : readBody maxNesting (inner ++ last :: lines) = ⟨.ok body, inner.length + 1⟩ := by
      rw [hmax] at hd ⊢
      exact readBodyWith_of_writtenOn hbody lines rfl (by omega) hlast
    have hread : read (line :: (inner ++ last :: lines)) =
        ⟨.ok (some (header.block body)), inner.length + 1 + 1⟩ :=
      readWith_of_means_opening hs hd.1.1 hb
    rw [readAll_of_ok hread, List.append_cons, List.drop_left' (by simp), ih hd.2]
    simp [Reading.map_ok, Reading.after_mk]
    omega

/-- The blocks of some lines are those that the lines are made of, unless these have more levels
than there are. -/
theorem readAll_eq_ok_iff {lines : List Line} {bs : List Block} :
    (readAll lines).result = .ok bs ↔ WrittenOn false lines bs ∧ levelsAll bs ≤ maxNesting :=
  ⟨writtenOn_of_readAll, fun h => by rw [readAll_of_writtenOn h.1 h.2]⟩

end Block

end BlockScript
