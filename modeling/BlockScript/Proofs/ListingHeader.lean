import Mathlib.Data.List.DropRight
import BlockScript.Proofs.ArgumentRoundTrip
import BlockScript.Syntax.Listing

/-!
# Headers read back from a listing

The line of a block in a listing is the source form of the kind of the block and of the arguments
in its header, so it is read as these arguments again.  The exception is a loop under a condition:
its line is cut at the white space at its end, and a bare text may end in white space that the
lexer does not take for a blank.  `Argument.seen` is what is left of the condition then, and every
line is read as the kind and what is left (`Block.ofTokens_tokenize_listingLine`).  So a header is
read back exactly if it does not lose its end (`listing_header_readBack_iff`).
-/

namespace BlockScript

namespace Text

theorem trimEnd_append (s t : Text) :
    trimEnd (s ++ t) = if trimEnd t = [] then trimEnd s else s ++ trimEnd t := by
  rw [trimEnd, List.reverse_append, List.dropWhile_append]
  by_cases h : t.reverse.dropWhile isWhitespace = []
  · simp [trimEnd, h]
  · simp [trimEnd, h]

theorem trimEnd_concat {c : Char} (h : isWhitespace c = false) (s : Text) :
    trimEnd (s ++ [c]) = s ++ [c] :=
  List.rdropWhile_concat_neg isWhitespace s c (by simp [h])

theorem trimEnd_eq_self_iff {text : Text} :
    text.trimEnd = text ↔ ∀ c ∈ text.getLast?, isWhitespace c = false := by
  refine List.rdropWhile_eq_self_iff.trans ⟨fun h c hc => ?_, fun h hne hl => ?_⟩
  · have hne : text ≠ [] := fun hn => by simp [hn] at hc
    have hl := h hne
    rw [List.getLast?_eq_getLast_of_ne_nil hne] at hc
    cases hc
    simpa using hl
  · have hf := h _ (List.getLast?_eq_getLast_of_ne_nil hne)
    rw [hl] at hf
    cases hf

theorem not_needsQuotes_trimEnd {text : Text} (h : ¬ needsQuotes text) (hne : text.trimEnd ≠ []) :
    ¬ needsQuotes text.trimEnd := by
  have hp : text.trimEnd <+: text := List.rdropWhile_prefix isWhitespace text
  rw [not_needsQuotes_iff] at h ⊢
  exact ⟨hne, fun c hc => h.2 c (hp.subset hc)⟩

end Text

/-! ## What is left of a line -/

namespace Argument

/-- What is left of an argument when the line it ends is cut at the white space at its end. -/
def cut? : Argument → Option Argument
  | .literal text =>
    if text.needsQuotes then some (.literal text)
    else if text.trimEnd = [] then none
    else some (.literal text.trimEnd)
  | .nested name args => some (.nested name args)

/-- What is left of some arguments when their line is cut, from the last to the first. -/
def seenFromEnd : List Argument → List Argument
  | [] => []
  | a :: as =>
    match a.cut? with
    | some b => b :: as
    | none => seenFromEnd as

/-- What is left of some arguments when the line they stand on is cut at the white space at its
end. -/
def seen (as : List Argument) : List Argument := (seenFromEnd as.reverse).reverse

theorem seen_nil : seen [] = [] := rfl

theorem seen_concat_of_some {a b : Argument} (h : a.cut? = some b) (as : List Argument) :
    seen (as ++ [a]) = as ++ [b] := by
  rw [seen, List.reverse_append, List.reverse_singleton, List.singleton_append, seenFromEnd, h]
  simp

theorem seen_concat_of_none {a : Argument} (h : a.cut? = none) (as : List Argument) :
    seen (as ++ [a]) = seen as := by
  rw [seen, List.reverse_append, List.reverse_singleton, List.singleton_append, seenFromEnd, h, seen]

theorem trailing_singleton (a : Argument) : trailing [a] = ' ' :: a.toSource := by
  rw [trailing, trailing, List.append_nil]

theorem trimEnd_append_trailing_of_some {a b : Argument} (h : a.cut? = some b) (front : Text) :
    (front ++ trailing [a]).trimEnd = front ++ trailing [b] := by
  rw [trailing_singleton, trailing_singleton]
  cases a with
  | nested name args =>
    cases h
    have hp : front ++ ' ' :: (nested name args).toSource =
        (front ++ ' ' :: '(' :: (name.toSource ++ trailing args)) ++ [')'] := by
      simp [toSource]
    rw [hp, Text.trimEnd_concat (by decide)]
  | literal text =>
    rw [cut?] at h
    split at h
    · next hq =>
      cases h
      have hp : front ++ ' ' :: (literal text).toSource =
          (front ++ ' ' :: '"' :: text.flatMap Text.escapeSource) ++ ['"'] := by
        simp [toSource, Text.toSource_of_needsQuotes hq]
      rw [hp, Text.trimEnd_concat (by decide)]
    · next hq =>
      split at h
      · cases h
      · next hne =>
        cases h
        rw [toSource, toSource, Text.toSource_of_not_needsQuotes hq,
          Text.toSource_of_not_needsQuotes (Text.not_needsQuotes_trimEnd hq hne),
          List.append_cons, Text.trimEnd_append, if_neg hne, ← List.append_cons]

theorem trimEnd_append_trailing_of_none {a : Argument} (h : a.cut? = none) (front : Text) :
    (front ++ trailing [a]).trimEnd = front.trimEnd := by
  cases a with
  | nested name args => cases h
  | literal text =>
    rw [cut?] at h
    split at h
    · cases h
    · next hq =>
      split at h
      · next he =>
        rw [trailing_singleton, toSource, Text.toSource_of_not_needsQuotes hq, List.append_cons,
          Text.trimEnd_append, if_pos he, Text.trimEnd_append]
        exact if_pos (by decide)
      · cases h

/-- Cutting the end of a line is leaving out what is not seen of its arguments. -/
theorem trimEnd_append_trailing {front : Text} (hf : front.trimEnd = front) (as : List Argument) :
    (front ++ trailing as).trimEnd = front ++ trailing (seen as) := by
  induction as using List.reverseRecOn with
  | nil => rw [seen_nil, trailing, List.append_nil, hf]
  | append_singleton as a ih =>
    rw [trailing_append, ← List.append_assoc]
    cases h : a.cut? with
    | none => rw [trimEnd_append_trailing_of_none h, ih, seen_concat_of_none h]
    | some b =>
      rw [trimEnd_append_trailing_of_some h, seen_concat_of_some h, trailing_append,
        List.append_assoc]

theorem levels_of_cut? {a b : Argument} (h : a.cut? = some b) : b.levels ≤ a.levels := by
  cases a with
  | nested name args => cases h; exact Nat.le_refl _
  | literal text =>
    rw [cut?] at h
    split at h
    · cases h; exact Nat.le_refl _
    · split at h
      · cases h
      · cases h
        rw [levels]
        exact Nat.zero_le _

theorem levelsAll_append (as bs : List Argument) :
    levelsAll (as ++ bs) = max (levelsAll as) (levelsAll bs) := by
  induction as with
  | nil => rw [List.nil_append, levelsAll, Nat.zero_max]
  | cons a as ih => rw [List.cons_append, levelsAll, ih, levelsAll, Nat.max_assoc]

theorem levelsAll_seen_le (as : List Argument) : levelsAll (seen as) ≤ levelsAll as := by
  induction as using List.reverseRecOn with
  | nil => exact Nat.le_refl _
  | append_singleton as a ih =>
    rw [levelsAll_append]
    cases h : a.cut? with
    | none =>
      rw [seen_concat_of_none h]
      exact Nat.le_trans ih (Nat.le_max_left _ _)
    | some b =>
      have hb := levels_of_cut? h
      rw [seen_concat_of_some h, levelsAll_append, levelsAll, levelsAll, levelsAll, levelsAll]
      omega

/-- A text without quotes that ends in white space loses it when its line is cut. -/
def LosesEnd : Argument → Prop
  | .literal text => ¬ text.needsQuotes ∧ ∃ c ∈ text.getLast?, isWhitespace c
  | .nested _ _ => False

theorem cut?_eq_self_iff {a : Argument} : a.cut? = some a ↔ ¬ a.LosesEnd := by
  cases a with
  | nested name args => simp [cut?, LosesEnd]
  | literal text =>
    have ht : text.trimEnd = text ↔ ¬ ∃ c ∈ text.getLast?, isWhitespace c := by
      rw [Text.trimEnd_eq_self_iff]
      simp
    rw [cut?, LosesEnd]
    split
    · next hq => simp [hq]
    · next hq =>
      have hne : text ≠ [] := (Text.not_needsQuotes_iff.1 hq).1
      rw [and_iff_right hq, ← ht]
      split
      · next he => simp [he, hne.symm]
      · simp

theorem length_seen_le (as : List Argument) : (seen as).length ≤ as.length := by
  induction as using List.reverseRecOn with
  | nil => exact Nat.le_refl _
  | append_singleton as a ih =>
    cases h : a.cut? with
    | none =>
      rw [seen_concat_of_none h, List.length_append]
      omega
    | some b => rw [seen_concat_of_some h, List.length_append, List.length_append]; rfl

/-- Nothing is cut off exactly if the last argument does not lose its end. -/
theorem seen_eq_self_iff {as : List Argument} :
    seen as = as ↔ ∀ a ∈ as.getLast?, ¬ a.LosesEnd := by
  induction as using List.reverseRecOn with
  | nil => simp [seen_nil]
  | append_singleton as a _ =>
    have hl : (∀ b ∈ (as ++ [a]).getLast?, ¬ b.LosesEnd) ↔ a.cut? = some a := by
      rw [List.getLast?_concat, cut?_eq_self_iff]
      simp
    rw [hl]
    cases h : a.cut? with
    | none =>
      rw [seen_concat_of_none h]
      have hlength := length_seen_le as
      refine ⟨fun hs => ?_, nofun⟩
      rw [hs, List.length_append, List.length_singleton] at hlength
      omega
    | some b => rw [seen_concat_of_some h]; simp

end Argument

/-! ## Lines -/

namespace Block

/-- What is seen of the header of a block in its line. -/
def seenHeader : Block → List Argument
  | .whileLoop condition _ => Argument.seen condition
  | b => b.header

/-- The condition of a loop loses its end in the line of the loop. -/
def LosesEnd : Block → Prop
  | .whileLoop condition _ => ∃ a ∈ condition.getLast?, a.LosesEnd
  | _ => False

theorem seenHeader_eq_iff {b : Block} : b.seenHeader = b.header ↔ ¬ b.LosesEnd := by
  cases b with
  | command c => simp [seenHeader, LosesEnd]
  | forEach key? value body => simp [seenHeader, LosesEnd]
  | whileLoop condition body =>
    rw [seenHeader, header, Argument.seen_eq_self_iff, LosesEnd]
    simp

theorem listingLine_eq (indent : Int) (b : Block) :
    listingLine indent b = Text.spaces indent ++ (b.kind ++ Argument.trailing b.seenHeader) := by
  cases b with
  | command c => exact List.append_assoc _ _ _
  | forEach key? value body => exact List.append_assoc _ _ _
  | whileLoop condition body =>
    have hf : (Text.spaces indent ++ "while".toList).trimEnd =
        Text.spaces indent ++ "while".toList := by
      have he : Text.spaces indent ++ "while".toList =
          (Text.spaces indent ++ "whil".toList) ++ ['e'] := by
        rw [List.append_assoc]
        rfl
      rw [he, Text.trimEnd_concat (by decide)]
    rw [← List.append_assoc]
    exact Argument.trimEnd_append_trailing hf condition

theorem tokenize_spaces_append (indent : Int) (line : Text) :
    tokenize (Text.spaces indent ++ line) = tokenize line := by
  rw [Text.spaces]
  induction indent.toNat with
  | zero => rfl
  | succ n ih => rw [List.replicate_succ, List.cons_append, tokenize_of_isBlank (by decide), ih]

theorem toSource_kind (b : Block) : b.kind.toSource = b.kind := by
  cases b <;> rfl

/-- A line of a listing is read as the kind of the block and what is seen of its header. -/
theorem ofTokens_tokenize_listingLine {b : Block} {depth : Nat}
    (h : Argument.levelsAll b.header ≤ depth) (indent : Int) :
    (tokenize (listingLine indent b)).bind (Argument.ofTokens depth) =
      .ok (.literal b.kind :: b.seenHeader) := by
  have hs : Argument.levelsAll b.seenHeader ≤ depth := by
    cases b with
    | command c => exact h
    | forEach key? value body => exact h
    | whileLoop condition body => exact Nat.le_trans (Argument.levelsAll_seen_le condition) h
  have hk : (Argument.literal b.kind).toSource = b.kind := by rw [Argument.toSource, b.toSource_kind]
  have ht := Argument.tokenize_toSource_append_trailing (.literal b.kind) b.seenHeader
  rw [hk] at ht
  rw [listingLine_eq, tokenize_spaces_append, ht]
  refine Argument.ofTokens_map_token _ ?_
  rw [Argument.levelsAll_cons_le_iff, Argument.levels]
  exact ⟨Nat.zero_le _, hs⟩

theorem head?_listing (indent : Int) (b : Block) :
    (listing indent b).head? = some (listingLine indent b) := by
  cases b <;> rw [listing] <;> rfl

end Block

/-- The first line of the listing of a block, at any indent, is read as the kind of the block and
the arguments in its header, unless the header is a condition that loses its end. -/
theorem listing_header_readBack_iff (b : Block) (indent : Int) (depth : Nat)
    (h : Argument.levelsAll b.header ≤ depth) :
    ∃ line, (Block.listing indent b).head? = some line ∧
      ((tokenize line).bind (Argument.ofTokens depth) = .ok (.literal b.kind :: b.header) ↔
        ¬ b.LosesEnd) := by
  refine ⟨Block.listingLine indent b, Block.head?_listing indent b, ?_⟩
  rw [Block.ofTokens_tokenize_listingLine h, ← Block.seenHeader_eq_iff]
  simp

/-- A condition of a bare text with a no-break space inside and a command that ends in one. -/
theorem listing_header_readBack_iff_nested :
    Argument.levelsAll [.literal "a\u00a0b".toList,
        .nested (.literal ['f']) [.literal "x\u00a0".toList]] ≤ 1 ∧
      (tokenize "  while a\u00a0b (f x\u00a0)".toList).bind (Argument.ofTokens 1) =
        .ok [.literal "while".toList, .literal "a\u00a0b".toList,
          .nested (.literal ['f']) [.literal "x\u00a0".toList]] := by
  refine ⟨by decide, ?_⟩
  obtain ⟨line, hl, hr⟩ := listing_header_readBack_iff (.whileLoop [.literal "a\u00a0b".toList,
    .nested (.literal ['f']) [.literal "x\u00a0".toList]] []) 2 1 (by decide)
  cases hl
  refine hr.2 ?_
  rintro ⟨a, ha, hlost⟩
  cases ha
  exact hlost

/-- A condition that is a bare text ending in a no-break space is read back without the space. -/
theorem listing_header_not_readBack_noBreakSpace :
    ∃ line, (Block.listing 0 (.whileLoop [.literal "a\u00a0".toList] [])).head? = some line ∧
      (tokenize line).bind (Argument.ofTokens 0) =
        .ok [.literal "while".toList, .literal ['a']] ∧
      (tokenize line).bind (Argument.ofTokens 0) ≠
        .ok [.literal "while".toList, .literal "a\u00a0".toList] := by
  have hlevels : Argument.levelsAll (Block.header (.whileLoop [.literal "a\u00a0".toList] [])) ≤ 0 :=
    by decide
  have hread := Block.ofTokens_tokenize_listingLine hlevels 0
  exact ⟨_, rfl, hread, by rw [hread]; decide⟩

end BlockScript
