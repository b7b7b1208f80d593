import BlockScript.Proofs.ArgumentRoundTrip
import BlockScript.Proofs.Reading
import BlockScript.Proofs.SourceLines

/-!
# Programs read back from source

The lines that a well-formed block is written on are read as that block, whatever lines follow
them and whatever their numbers are, if as many levels are left as the block has.  By induction on
the blocks the same holds for bodies up to the line that closes them and for whole programs
(`parse_toSource_roundTrip`).
-/

namespace BlockScript

/-! ## Headers -/

namespace Argument

theorem tokenize_header (word : Text) (hw : word.toSource = word) (as : List Argument) :
    tokenize (word ++ trailing as ++ " \x7d".toList) =
      .ok (.literal word :: (as.map token ++ [.bodyMark])) := by
  have hl : (literal word).toSource = word := by rw [toSource, hw]
  have hm : " \x7d".toList = trailing [literal ['\x7d']] := rfl
  have ht := tokenize_toSource_append_trailing (literal word) (as ++ [literal ['\x7d']])
  rw [hl, trailing_append, ← hm, ← List.append_assoc] at ht
  rw [ht, List.map_cons, List.map_append]
  rfl

theorem eq_literal_of_token {a : Argument} {text : Text} (h : a.token = .literal text) :
    a = .literal text := by
  cases a with
  | literal t =>
    rw [token] at h
    rw [Token.literal.inj h]
  | nested name args => cases h

end Argument

namespace Block

variable {depth : Nat} {body : List Line → Reading (List Block)} {lines : List Line}

theorem opensBody_header (first : Token) (ts : List Token) :
    opensBody (first :: (ts ++ [.bodyMark])) = true := by
  rw [opensBody, ← List.cons_append, List.getLast?_concat]
  simp

theorem tail_dropLast_header (first : Token) (ts : List Token) :
    (first :: (ts ++ [Token.bodyMark])).tail.dropLast = ts := by
  rw [List.tail_cons, List.dropLast_concat]

theorem readForEach_header {key? : Option Argument} {value : Argument}
    (body : List Line → Reading (List Block)) (lines : List Line) (first : Token)
    (h : Argument.levelsAll (key?.toList ++ [value]) ≤ depth) :
    readForEach depth body (first :: ((key?.toList ++ [value]).map Argument.token ++ [.bodyMark]))
      lines = (body lines).map (.forEach key? value) := by
  rw [readForEach, opensBody_header, tail_dropLast_header]
  cases key? with
  | none =>
    rw [Option.toList_none, List.nil_append, Argument.levelsAll_cons_le_iff] at h
    have hv : Argument.ofToken depth value.token = .ok value := value.ofToken_token h.1
    simp [hv, Reading.ofExcept_ok_andThen]
  | some key =>
    rw [Option.toList_some, List.singleton_append, Argument.levelsAll_cons_le_iff,
      Argument.levelsAll_cons_le_iff] at h
    have hk : Argument.ofToken depth key.token = .ok key := key.ofToken_token h.1
    have hv : Argument.ofToken depth value.token = .ok value := value.ofToken_token h.2.1
    simp [hk, hv, Reading.ofExcept_ok_andThen]

theorem readWhile_header {condition : List Argument} (body : List Line → Reading (List Block))
    (lines : List Line) (first : Token) (h : Argument.levelsAll condition ≤ depth) :
    readWhile depth body (first :: (condition.map Argument.token ++ [.bodyMark])) lines =
      (body lines).map (.whileLoop condition) := by
  rw [readWhile, opensBody_header, headerArguments, tail_dropLast_header,
    Argument.ofTokens_map_token condition h, Reading.ofExcept_ok_andThen]
  rfl

theorem readStatement_command {c : Command} (hf : c.name ≠ .literal "for".toList)
    (hw : c.name ≠ .literal "while".toList) (h : c.levels ≤ depth) :
    readStatement depth body ((c.name :: c.args).map Argument.token) lines =
      ⟨.ok (.command c), 0⟩ := by
  have hf' : c.name.token ≠ .forWord := fun e => hf (Argument.eq_literal_of_token e)
  have hw' : c.name.token ≠ .whileWord := fun e => hw (Argument.eq_literal_of_token e)
  rw [readStatement, Command.ofTokens_map_token h, List.map_cons, List.head?_cons,
    if_neg (by simpa using hf'), if_neg (by simpa using hw')]
  rfl

/-! ## Blocks -/

theorem readWith_loop {line : Line} {tokens : List Token} {first : Token} {bs : List Block}
    {n : Nat} (loop : List Block → Block) (ht : tokenize line.text = .ok (first :: tokens))
    (hs : readStatement depth body (first :: tokens) lines = (body lines).map loop)
    (hb : body lines = ⟨.ok bs, n⟩) :
    readWith depth body (line :: lines) = ⟨.ok (some (loop bs)), n + 1⟩ := by
  rw [readWith_of_cons ht, hs, hb, Reading.map_ok, Reading.within_ok, Reading.map_ok,
    Reading.after_mk, Nat.add_comm]

theorem sourceLines_eq_cons (b : Block) : ∃ l ls, b.sourceLines = l :: ls := by
  cases b <;> rw [sourceLines] <;> exact ⟨_, _, rfl⟩

/-- The first line of a block does not close the body that the block stands in. -/
theorem closing?_of_sourceLines {b : Block} (hb : b.WellFormed true) {line : Line} {ls : List Text}
    (h : b.sourceLines = line.text :: ls) : closing? line = none := by
  have hne : ∀ {first : Token} {rest : List Token}, tokenize line.text = .ok (first :: rest) →
      first ≠ .bodyMark → closing? line = none := by
    intro first rest ht hf
    rw [Option.eq_none_iff_forall_ne_some]
    intro extra he
    rw [closing?_eq_some_iff, ht] at he
    exact hf (List.cons.inj (Except.ok.inj he)).1
  cases b with
  | command c =>
    rw [sourceLines] at h
    have ht := c.tokenize_toSource
    rw [(List.cons.inj h).1, List.map_cons] at ht
    rw [WellFormed] at hb
    exact hne ht fun e => hb.2.2 rfl (Argument.eq_literal_of_token e)
  | forEach key? value body =>
    rw [sourceLines] at h
    have ht := Argument.tokenize_header "for".toList rfl (key?.toList ++ [value])
    rw [(List.cons.inj h).1] at ht
    exact hne ht (by decide)
  | whileLoop condition body =>
    rw [sourceLines] at h
    have ht := Argument.tokenize_header "while".toList rfl condition
    rw [(List.cons.inj h).1] at ht
    exact hne ht (by decide)

theorem exists_loop_lines {header : Text} {inner : List Text} {lines : List Line}
    (h : lines.map Line.text = header :: (inner ++ [['\x7d']])) :
    ∃ line mid close, lines = line :: (mid ++ [close]) ∧ line.text = header ∧
      mid.map Line.text = inner ∧ close.text = ['\x7d'] := by
  obtain ⟨line, tail, rfl, hline, h⟩ := List.map_eq_cons_iff.1 h
  obtain ⟨mid, last, rfl, hmid, hlast⟩ := List.map_eq_append_iff.1 h
  obtain ⟨close, rfl, hclose⟩ := List.map_eq_singleton_iff.1 hlast
  exact ⟨line, mid, close, rfl, hline, hmid, hclose⟩

mutual

/-- A block is read from its lines, and nothing else is. -/
theorem readWith_sourceLines :
    ∀ (b : Block) {inBody : Bool} {depth : Nat} {lines : List Line} (rest : List Line),
      b.WellFormed inBody → b.levels ≤ depth → lines.map Line.text = b.sourceLines →
      readWith depth (readBody depth) (lines ++ rest) = ⟨.ok (some b), lines.length⟩
  | .command c, inBody, depth, lines, rest, hw, hd, hl => by
    rw [sourceLines] at hl
    obtain ⟨line, rfl, hline⟩ := List.map_eq_singleton_iff.1 hl
    rw [WellFormed] at hw
    rw [levels] at hd
    have ht := c.tokenize_toSource
    rw [← hline] at ht
    rw [List.singleton_append, readWith_of_cons ht, ← List.map_cons,
      readStatement_command hw.1 hw.2.1 hd]
    rfl
  | .forEach key? value body, inBody, depth, lines, rest, hw, hd, hl => by
    rw [sourceLines] at hl
    obtain ⟨line, mid, close, rfl, hline, hmid, hclose⟩ := exists_loop_lines hl
    rw [WellFormed] at hw
    rw [levels, Nat.max_le] at hd
    obtain ⟨d, rfl⟩ : ∃ d, depth = d + 1 := Nat.exists_eq_add_one.2 (by omega)
    have ht := Argument.tokenize_header "for".toList rfl (key?.toList ++ [value])
    rw [← hline] at ht
    have hb : readBody (d + 1) (mid ++ close :: rest) = ⟨.ok body, mid.length + 1⟩ :=
      readBodyWith_allSourceLines body rest hw (by omega) hmid hclose
    have hs := readForEach_header (readBody (d + 1)) (mid ++ close :: rest) .forWord hd.1
    rw [List.cons_append, List.append_assoc, List.singleton_append, readWith_loop _ ht hs hb]
    simp
  | .whileLoop condition body, inBody, depth, lines, rest, hw, hd, hl => by
    rw [sourceLines] at hl
    obtain ⟨line, mid, close, rfl, hline, hmid, hclose⟩ := exists_loop_lines hl
    rw [WellFormed] at hw
    rw [levels, Nat.max_le] at hd
    obtain ⟨d, rfl⟩ : ∃ d, depth = d + 1 := Nat.exists_eq_add_one.2 (by omega)
    have ht := Argument.tokenize_header "while".toList rfl condition
    rw [← hline] at ht
    have hb : readBody (d + 1) (mid ++ close :: rest) = ⟨.ok body, mid.length + 1⟩ :=
      readBodyWith_allSourceLines body rest hw (by omega) hmid hclose
    have hs := readWhile_header (readBody (d + 1)) (mid ++ close :: rest) .whileWord hd.1
    rw [List.cons_append, List.append_assoc, List.singleton_append, readWith_loop _ ht hs hb]
    simp

/-- The blocks of a body are read from their lines up to the line that closes the body. -/
theorem readBodyWith_allSourceLines :
    ∀ (bs : List Block) {depth : Nat} {lines : List Line} {close : Line} (rest : List Line),
      AllWellFormed true bs → levelsAll bs ≤ depth → lines.map Line.text = allSourceLines bs →
      close.text = ['\x7d'] →
      readBodyWith (readWith depth (readBody depth)) false (lines ++ close :: rest) =
        ⟨.ok bs, lines.length + 1⟩
  | [], depth, lines, close, rest, _, _, hl, hc => by
    rw [allSourceLines] at hl
    obtain rfl := List.map_eq_nil_iff.1 hl
    rw [List.nil_append, readBodyWith_of_closing (closing?_of_text_eq hc)]
    rfl
  | b :: bs, depth, lines, close, rest, hw, hd, hl, hc => by
    rw [allSourceLines] at hl
    rw [AllWellFormed] at hw
    rw [levelsAll_cons_le_iff] at hd
    obtain ⟨front, back, rfl, hfront, hback⟩ := List.map_eq_append_iff.1 hl
    obtain ⟨l, ls, hb⟩ := b.sourceLines_eq_cons
    obtain ⟨line, tail, rfl, hline, htail⟩ := List.map_eq_cons_iff.1 (hfront.trans hb)
    have hclosing : closing? line = none := closing?_of_sourceLines hw.1 (hline ▸ hb)
    have hfirst := readWith_sourceLines b (back ++ close :: rest) hw.1 hd.1 hfront
    have hrest := readBodyWith_allSourceLines bs rest hw.2 hd.2 hback hc
    have hlen : (line :: tail).length + (back.length + 1) = (line :: tail ++ back).length + 1 := by
      rw [List.length_append, Nat.add_assoc]
    rw [List.cons_append] at hfirst
    rw [List.append_assoc, List.cons_append, readBodyWith_of_ok hclosing hfirst, List.drop_left,
      hrest, Reading.map_ok, Reading.after_mk, ← hlen]
    rfl

end

/-- Blocks at top level are read from their lines. -/
theorem readAll_allSourceLines {bs : List Block} {lines : List Line}
    (hw : AllWellFormed false bs) (hd : levelsAll bs ≤ maxNesting)
    (hl : lines.map Line.text = allSourceLines bs) : readAll lines = ⟨.ok bs, lines.length⟩ := by
  induction bs generalizing lines with
  | nil =>
    rw [allSourceLines] at hl
    obtain rfl := List.map_eq_nil_iff.1 hl
    exact readAll_nil
  | cons b bs ih =>
    rw [allSourceLines] at hl
    rw [AllWellFormed] at hw
    rw [levelsAll_cons_le_iff] at hd
    obtain ⟨front, back, rfl, hfront, hback⟩ := List.map_eq_append_iff.1 hl
    obtain ⟨l, ls, hb⟩ := b.sourceLines_eq_cons
    obtain ⟨line, tail, rfl, hline, htail⟩ := List.map_eq_cons_iff.1 (hfront.trans hb)
    have hfirst : read (line :: (tail ++ back)) = ⟨.ok (some b), tail.length + 1⟩ :=
      readWith_sourceLines b back hw.1 hd.1 hfront
    rw [List.cons_append, readAll_of_ok hfirst, List.drop_left, ih hw.2 hd.2 hback,
      Reading.map_ok, Reading.after_mk, ← List.cons_append, List.length_append]
    rfl

end Block

/-! ## Programs -/

/-- A well-formed program within the nesting limit is read back from its source. -/
theorem parse_toSource_roundTrip (bs : List Block) (hw : Block.AllWellFormed false bs)
    (hd : Block.levelsAll bs ≤ maxNesting) : parse (Block.toSource bs) = .ok bs := by
  cases bs with
  | nil =>
    -- the empty source still has a line, but no block stands on it
    have hr : Block.read [⟨[], 1⟩] = ⟨.ok none, 1⟩ := Block.readWith_of_nil tokenize_nil
    show (Block.readAll [⟨[], 1⟩]).result = .ok []
    rw [Block.readAll_of_ok hr, List.drop_nil, Block.readAll_nil]
    rfl
  | cons b bs =>
    obtain ⟨l, ls, hb⟩ := b.sourceLines_eq_cons
    have hne : Block.allSourceLines (b :: bs) ≠ [] := by
      rw [Block.allSourceLines, hb]
      exact List.cons_ne_nil _ _
    obtain ⟨lines, hs, hl⟩ := Script.ofSource_unlines hne (Block.oneLine_allSourceLines (b :: bs))
    rw [parse, Block.toSource, hs]
    show (Block.readAll lines).result = .ok (b :: bs)
    rw [Block.readAll_allSourceLines hw hd hl]

/-- A loop in a loop, whose texts hold a line feed, a comment mark and a backslash at the end of a
line, in front of a command named like the mark that closes a body. -/
theorem parse_toSource_roundTrip_nested :
    parse "for \"a\\nb\" \x7d\nwhile \x7d\n(\"\") \"#\\\\\"\n\x7d\n\x7d\n\x7d".toList =
      .ok [.forEach none (.literal "a\nb".toList)
        [.whileLoop [] [.command ⟨.nested (.literal []) [], [.literal "#\\".toList]⟩]],
        .command ⟨.literal ['\x7d'], []⟩] :=
  parse_toSource_roundTrip [.forEach none (.literal "a\nb".toList)
    [.whileLoop [] [.command ⟨.nested (.literal []) [], [.literal "#\\".toList]⟩]],
    .command ⟨.literal ['\x7d'], []⟩] (by simp [Block.AllWellFormed, Block.WellFormed]) (by decide)

end BlockScript
