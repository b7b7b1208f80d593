import BlockScript.Proofs.SourceLines
import BlockScript.Syntax.Listing

/-!
# Lines of a listing

Each line of a tree listing is the line of one block (`Block.exists_eq_listingLine`): it begins
with the indent and the kind of the block and breaks nowhere.  So cutting the text of a listing at
its line feeds gives its lines again (`Block.lines_tree`).
-/

namespace BlockScript

namespace Text

theorem trimEnd_isPrefix (text : Text) : text.trimEnd <+: text := by
  have h : text.reverse.dropWhile isWhitespace <:+ text.reverse := List.dropWhile_suffix _
  have hr := List.reverse_prefix.2 h
  rwa [List.reverse_reverse] at hr

end Text

namespace Block

theorem listingLine_isPrefix (indent : Int) (b : Block) :
    listingLine indent b <+: Text.spaces indent ++ b.kind ++ Argument.trailing b.header := by
  cases b with
  | command c => exact List.prefix_rfl
  | forEach key? value body => exact List.prefix_rfl
  | whileLoop condition body => exact Text.trimEnd_isPrefix _

theorem kind_cases (b : Block) :
    b.kind = "command".toList ∨ b.kind = "for".toList ∨ b.kind = "while".toList := by
  cases b with
  | command c => exact .inl rfl
  | forEach key? value body => exact .inr (.inl rfl)
  | whileLoop condition body => exact .inr (.inr rfl)

theorem not_mem_listingLine (indent : Int) (b : Block) : '\n' ∉ listingLine indent b := by
  intro h
  have hkind : '\n' ∉ b.kind := by
    rcases b.kind_cases with hk | hk | hk <;> rw [hk] <;> decide
  rcases List.mem_append.1 ((listingLine_isPrefix indent b).subset h) with h | h
  · rcases List.mem_append.1 h with h | h
    · exact absurd (List.eq_of_mem_replicate h) (by decide)
    · exact hkind h
  · exact (Argument.oneLine_trailing b.header).noLineFeed h

/-- What stands behind the indent of a line is the kind of a block. -/
theorem not_isPrefix_listingLine {c : Char} {cs : Text} (hs : c ≠ ' ')
    (hc : c ≠ 'c' ∧ c ≠ 'f' ∧ c ≠ 'w') (indent : Int) (b : Block) :
    ¬ c :: cs <+: listingLine indent b := by
  intro h
  obtain ⟨tail, htail⟩ := h.trans (listingLine_isPrefix indent b)
  rw [Text.spaces] at htail
  cases hn : indent.toNat with
  | zero =>
    rw [hn, List.replicate_zero, List.nil_append] at htail
    rcases b.kind_cases with hk | hk | hk
    · rw [hk] at htail
      exact hc.1 (List.cons.inj htail).1
    · rw [hk] at htail
      exact hc.2.1 (List.cons.inj htail).1
    · rw [hk] at htail
      exact hc.2.2 (List.cons.inj htail).1
  | succ n =>
    rw [hn, List.replicate_succ] at htail
    exact hs (List.cons.inj htail).1

mutual

/-- Each line of the listing of a block is the line of a block. -/
theorem exists_eq_listingLine :
    ∀ (b : Block) (indent : Int), ∀ l ∈ listing indent b, ∃ n c, l = listingLine n c
  | .command c, indent, l, hl => by
    rw [listing, List.mem_singleton] at hl
    exact ⟨indent, .command c, hl⟩
  | .forEach key? value body, indent, l, hl => by
    rw [listing] at hl
    rcases List.mem_cons.1 hl with rfl | hl
    · exact ⟨indent, .forEach key? value body, rfl⟩
    · exact exists_eq_listingLine_all body (indent + 2) l hl
  | .whileLoop condition body, indent, l, hl => by
    rw [listing] at hl
    rcases List.mem_cons.1 hl with rfl | hl
    · exact ⟨indent, .whileLoop condition body, rfl⟩
    · exact exists_eq_listingLine_all body (indent + 2) l hl

theorem exists_eq_listingLine_all :
    ∀ (bs : List Block) (indent : Int), ∀ l ∈ listingAll indent bs, ∃ n c, l = listingLine n c
  | [], indent, l, hl => by
    rw [listingAll] at hl
    cases hl
  | b :: bs, indent, l, hl => by
    rw [listingAll] at hl
    rcases List.mem_append.1 hl with hl | hl
    · exact exists_eq_listingLine b indent l hl
    · exact exists_eq_listingLine_all bs indent l hl

end

theorem listing_ne_nil (indent : Int) (b : Block) : listing indent b ≠ [] := by
  cases b <;> rw [listing] <;> exact List.cons_ne_nil _ _

/-- The lines of the text of a listing are the lines that it is made of. -/
theorem lines_tree {bs : List Block} (h : bs ≠ []) : Text.lines (tree bs) = listingAll 0 bs := by
  obtain ⟨b, bs, rfl⟩ := List.exists_cons_of_ne_nil h
  refine Text.pieces_join ?_ fun l hl => ?_
  · rw [listingAll]
    exact List.append_ne_nil_of_left_ne_nil (listing_ne_nil 0 b) _
  · obtain ⟨n, c, rfl⟩ := exists_eq_listingLine_all _ 0 l hl
    exact not_mem_listingLine n c

end Block

end BlockScript
