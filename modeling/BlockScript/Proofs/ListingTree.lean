import BlockScript.Proofs.ListingHeader
import BlockScript.Proofs.ListingLines

/-!
# Trees told from their listing

The blocks of a program in the order in which they begin, each with the number of loops around it,
are its outline.  A listing has one line for each entry of the outline, and the spaces in front
tell the number of loops (`lines_tree_eq_map`).  The outline with kinds and headers only already
determines the blocks (`eq_of_map_heading_append`), and a line that keeps its end determines the
kind and the header, so programs whose lines keep their ends are told apart by their listings
(`tree_outline_and_injective`).
-/

namespace BlockScript

namespace Text

/-- How many spaces a line begins with. -/
def indentation (line : Text) : Nat := (line.takeWhile (· == ' ')).length

end Text

namespace Block

/-! ## Outlines -/

mutual

/-- A block and the blocks inside it in the order in which they begin, each with the number of
loops around it, when there are `depth` around the block itself. -/
def outline (depth : Nat) : Block → List (Nat × Block)
  | .command c => [(depth, .command c)]
  | .forEach key? value body => (depth, .forEach key? value body) :: outlineAll (depth + 1) body
  | .whileLoop condition body => (depth, .whileLoop condition body) :: outlineAll (depth + 1) body

/-- Some blocks and the blocks inside them in the order in which they begin. -/
def outlineAll (depth : Nat) : List Block → List (Nat × Block)
  | [] => []
  | b :: bs => outline depth b ++ outlineAll depth bs

end

/-- The blocks inside a block, one level further in. -/
def body : Block → List Block
  | .command _ => []
  | .forEach _ _ body => body
  | .whileLoop _ body => body

theorem outline_eq (depth : Nat) (b : Block) :
    outline depth b = (depth, b) :: outlineAll (depth + 1) b.body := by
  cases b <;> rw [outline] <;> simp [body, outlineAll]

/-- What a line of a listing shows of an entry of the outline. -/
def heading (entry : Nat × Block) : Nat × Text × List Argument :=
  (entry.1, entry.2.kind, entry.2.header)

/-- A block is made of its kind, its header and its body. -/
theorem eq_of_kind_header_body :
    ∀ {a b : Block}, a.kind = b.kind → a.header = b.header → a.body = b.body → a = b
  | .command ⟨_, _⟩, .command ⟨_, _⟩, _, hh, _ => by
    cases hh
    rfl
  | .forEach k _ _, .forEach l _ _, _, hh, hb => by
    cases hb
    cases k <;> cases l <;> cases hh <;> rfl
  | .whileLoop _ _, .whileLoop _ _, _, hh, hb => by
    cases hb
    cases hh
    rfl
  | .command _, .forEach _ _ _, hk, _, _ | .command _, .whileLoop _ _, hk, _, _
  | .forEach _ _ _, .command _, hk, _, _ | .forEach _ _ _, .whileLoop _ _, hk, _, _
  | .whileLoop _ _, .command _, hk, _, _ | .whileLoop _ _, .forEach _ _ _, hk, _, _ => by
    cases hk

theorem sizeOf_body_lt (b : Block) : sizeOf b.body < sizeOf b := by
  cases b with
  | command c =>
    cases c
    simp only [body, List.nil.sizeOf_spec, command.sizeOf_spec, Command.mk.sizeOf_spec]
    omega
  | forEach key? value body =>
    simp only [Block.body, forEach.sizeOf_spec]
    omega
  | whileLoop condition body =>
    simp only [Block.body, whileLoop.sizeOf_spec]
    omega

/-- The headings of some blocks and of what follows them further out do not begin further in. -/
theorem head_map_heading_append {depth : Nat} {rest : List (Nat × Text × List Argument)}
    (hr : ∀ h ∈ rest.head?, h.1 < depth) (bs : List Block) :
    ∀ h ∈ ((outlineAll depth bs).map heading ++ rest).head?, h.1 < depth + 1 := by
  cases bs with
  | nil => exact fun h hh => Nat.lt_succ_of_lt (hr h hh)
  | cons b bs =>
    rw [outlineAll, outline_eq]
    intro h hh
    cases hh
    exact Nat.lt_succ_self depth

/-- The headings of some blocks, up to one that stands further out, determine the blocks. -/
theorem eq_of_map_heading_append :
    ∀ (as bs : List Block) (depth : Nat) (rest rest' : List (Nat × Text × List Argument)),
      (∀ h ∈ rest.head?, h.1 < depth) → (∀ h ∈ rest'.head?, h.1 < depth) →
        (outlineAll depth as).map heading ++ rest = (outlineAll depth bs).map heading ++ rest' →
          as = bs ∧ rest = rest'
  | [], [], depth, rest, rest', hr, hr', h => ⟨rfl, h⟩
  | [], b :: bs, depth, rest, rest', hr, hr', h => by
    have hb : rest.head? = some (heading (depth, b)) := by
      rw [outlineAll, List.map_nil, List.nil_append] at h
      rw [h, outlineAll, outline_eq]
      rfl
    exact absurd (hr _ hb) (Nat.lt_irrefl depth)
  | a :: as, [], depth, rest, rest', hr, hr', h => by
    have ha : rest'.head? = some (heading (depth, a)) := by
      rw [outlineAll.eq_def depth [], List.map_nil, List.nil_append] at h
      rw [← h, outlineAll, outline_eq]
      rfl
    exact absurd (hr' _ ha) (Nat.lt_irrefl depth)
  | a :: as, b :: bs, depth, rest, rest', hr, hr', h => by
    simp only [outlineAll, outline_eq, List.map_append, List.map_cons, List.cons_append,
      List.append_assoc, List.cons.injEq] at h
    obtain ⟨hhead, htail⟩ := h
    obtain ⟨hk, hh⟩ : a.kind = b.kind ∧ a.header = b.header :=
      Prod.mk.inj (Prod.mk.inj hhead).2
    obtain ⟨hbody, hrest⟩ := eq_of_map_heading_append a.body b.body (depth + 1) _ _
      (head_map_heading_append hr as) (head_map_heading_append hr' bs) htail
    obtain ⟨hs, hout⟩ := eq_of_map_heading_append as bs depth rest rest' hr hr' hrest
    exact ⟨by rw [eq_of_kind_header_body hk hh hbody, hs], hout⟩
termination_by as => sizeOf as
decreasing_by
  · have := sizeOf_body_lt a
    simp only [List.cons.sizeOf_spec]
    omega
  · simp only [List.cons.sizeOf_spec]
    omega

/-! ## Lines of a listing -/

/-- The line of an entry of the outline. -/
def outlineLine (entry : Nat × Block) : Text := listingLine (2 * entry.1 : Nat) entry.2

mutual

theorem listing_eq_map_outline :
    ∀ (b : Block) (depth : Nat), listing (2 * depth : Nat) b = (outline depth b).map outlineLine
  | .command c, depth => by
    rw [listing, outline]
    rfl
  | .forEach key? value body, depth => by
    rw [listing, outline, List.map_cons, ← listingAll_eq_map_outlineAll body (depth + 1)]
    rfl
  | .whileLoop condition body, depth => by
    rw [listing, outline, List.map_cons, ← listingAll_eq_map_outlineAll body (depth + 1)]
    rfl

theorem listingAll_eq_map_outlineAll :
    ∀ (bs : List Block) (depth : Nat),
      listingAll (2 * depth : Nat) bs = (outlineAll depth bs).map outlineLine
  | [], depth => by
    rw [listingAll, outlineAll]
    rfl
  | b :: bs, depth => by
    rw [listingAll, outlineAll, List.map_append, listing_eq_map_outline b depth,
      listingAll_eq_map_outlineAll bs depth]

end

theorem indentation_outlineLine (entry : Nat × Block) :
    (outlineLine entry).indentation = 2 * entry.1 := by
  have hspaces : ∀ c ∈ Text.spaces (2 * entry.1 : Nat), (c == ' ') = true := by
    intro c hc
    rw [List.eq_of_mem_replicate hc]
    rfl
  have hkind : (entry.2.kind ++ Argument.trailing entry.2.seenHeader).takeWhile (· == ' ') = [] := by
    cases entry.2 <;> rfl
  rw [Text.indentation, outlineLine, listingLine_eq, List.takeWhile_append_of_pos hspaces, hkind,
    List.append_nil, Text.spaces, List.length_replicate]
  rfl

/-- A line that keeps its end tells the number of loops around its block, its kind and its
header. -/
theorem heading_eq_of_outlineLine_eq {p q : Nat × Block} (hp : ¬ p.2.LosesEnd)
    (hq : ¬ q.2.LosesEnd) (h : outlineLine p = outlineLine q) : heading p = heading q := by
  have hdepth : p.1 = q.1 := by
    have hi := indentation_outlineLine p
    rw [h, indentation_outlineLine q] at hi
    omega
  have hread := ofTokens_tokenize_listingLine (Nat.le_max_left (Argument.levelsAll p.2.header)
    (Argument.levelsAll q.2.header)) (2 * p.1 : Nat)
  have hread' := ofTokens_tokenize_listingLine (Nat.le_max_right (Argument.levelsAll p.2.header)
    (Argument.levelsAll q.2.header)) (2 * q.1 : Nat)
  rw [← outlineLine, seenHeader_eq_iff.2 hp] at hread
  rw [← outlineLine, seenHeader_eq_iff.2 hq, ← h, hread] at hread'
  obtain ⟨hk, hh⟩ := List.cons.inj (Except.ok.inj hread')
  rw [heading, heading, hdepth, Argument.literal.inj hk, hh]

theorem map_heading_eq_of_map_outlineLine_eq :
    ∀ {ps qs : List (Nat × Block)}, (∀ p ∈ ps, ¬ p.2.LosesEnd) → (∀ q ∈ qs, ¬ q.2.LosesEnd) →
      ps.map outlineLine = qs.map outlineLine → ps.map heading = qs.map heading
  | [], [], _, _, _ => rfl
  | p :: ps, q :: qs, hp, hq, h => by
    rw [List.forall_mem_cons] at hp hq
    rw [List.map_cons, List.map_cons, List.cons.injEq] at h
    rw [List.map_cons, List.map_cons, heading_eq_of_outlineLine_eq hp.1 hq.1 h.1,
      map_heading_eq_of_map_outlineLine_eq hp.2 hq.2 h.2]

theorem outlineLine_ne_nil (entry : Nat × Block) : outlineLine entry ≠ [] := by
  intro h
  rw [outlineLine, listingLine_eq] at h
  have hk := (List.append_eq_nil_iff.1 (List.append_eq_nil_iff.1 h).2).1
  cases hb : entry.2 <;> rw [hb] at hk <;> cases hk

theorem lines_tree_eq_map {bs : List Block} (h : bs ≠ []) :
    Text.lines (tree bs) = (outlineAll 0 bs).map outlineLine := by
  rw [lines_tree h, ← listingAll_eq_map_outlineAll]
  rfl

theorem tree_ne_nil {bs : List Block} (h : bs ≠ []) : tree bs ≠ [] := by
  intro ht
  have hlines := lines_tree_eq_map h
  rw [ht] at hlines
  have hnil : ([] : Text) ∈ (outlineAll 0 bs).map outlineLine := by
    rw [← hlines]
    exact List.mem_singleton_self []
  obtain ⟨entry, -, hentry⟩ := List.mem_map.1 hnil
  exact outlineLine_ne_nil entry hentry

/-! ## Programs told apart -/

/-- The condition of a loop ends in a text whose last character is white space, but not one of
the blanks that the lexer skips. -/
def EndsInWideSpace : Block → Prop
  | .whileLoop condition _ =>
    ∃ text, condition.getLast? = some (.literal text) ∧
      ∃ c ∈ text.getLast?, isWhitespace c ∧ ¬ isBlank c
  | _ => False

theorem not_losesEnd_of_not_endsInWideSpace {b : Block} (h : ¬ b.EndsInWideSpace) :
    ¬ b.LosesEnd := by
  cases b with
  | command c => exact id
  | forEach key? value body => exact id
  | whileLoop condition body =>
    rintro ⟨a, ha, hlost⟩
    cases a with
    | nested name args => exact hlost
    | literal text =>
      obtain ⟨hq, c, hc, hw⟩ := hlost
      -- A text without quotes has no blanks inside.
      have hd := ((Text.not_needsQuotes_iff.1 hq).2 c (List.mem_of_getLast? hc)).1
      have hb : ¬ isBlank c := fun hb => by simp [isDelimiter, hb] at hd
      exact h ⟨text, ha, c, hc, hw, hb⟩

/-- Programs whose lines keep their ends are told apart by their listings. -/
theorem eq_of_tree_eq {as bs : List Block} (ha : ∀ entry ∈ outlineAll 0 as, ¬ entry.2.LosesEnd)
    (hb : ∀ entry ∈ outlineAll 0 bs, ¬ entry.2.LosesEnd) (h : tree as = tree bs) : as = bs := by
  by_cases has : as = []
  · by_contra hne
    rw [has] at h hne
    exact tree_ne_nil (Ne.symm hne) h.symm
  by_cases hbs : bs = []
  · rw [hbs] at h
    exact absurd h (tree_ne_nil has)
  have hlines : (outlineAll 0 as).map outlineLine = (outlineAll 0 bs).map outlineLine := by
    rw [← lines_tree_eq_map has, h, lines_tree_eq_map hbs]
  have hheadings := map_heading_eq_of_map_outlineLine_eq ha hb hlines
  refine (eq_of_map_heading_append as bs 0 [] [] nofun nofun ?_).1
  rw [hheadings]

end Block

/-- The listing of a program has one line for each block in the order in which the blocks begin,
indented by two spaces for each loop around the block; and programs without a condition that ends
in white space other than the blanks are equal if their listings are. -/
theorem tree_outline_and_injective :
    (∀ bs : List Block, bs ≠ [] →
      Text.lines (Block.tree bs) = (Block.outlineAll 0 bs).map Block.outlineLine ∧
        (Text.lines (Block.tree bs)).map Text.indentation =
          (Block.outlineAll 0 bs).map fun entry => 2 * entry.1) ∧
      ∀ as bs : List Block, (∀ entry ∈ Block.outlineAll 0 as, ¬ entry.2.EndsInWideSpace) →
        (∀ entry ∈ Block.outlineAll 0 bs, ¬ entry.2.EndsInWideSpace) →
          Block.tree as = Block.tree bs → as = bs := by
  refine ⟨fun bs hne => ?_, fun as bs ha hb h => ?_⟩
  · have hlines := Block.lines_tree_eq_map hne
    refine ⟨hlines, ?_⟩
    rw [hlines, List.map_map]
    exact List.map_congr_left fun entry _ => Block.indentation_outlineLine entry
  · exact Block.eq_of_tree_eq
      (fun entry he => Block.not_losesEnd_of_not_endsInWideSpace (ha entry he))
      (fun entry he => Block.not_losesEnd_of_not_endsInWideSpace (hb entry he)) h

/-- A loop over `k v` in a loop without a condition, and the same with `k` and `v` apart. -/
theorem tree_outline_and_injective_nested :
    Text.lines (Block.tree [.whileLoop [] [.forEach none (.literal "k v".toList) []]]) =
        ["while".toList, "  for \"k v\"".toList] ∧
      Block.tree [.whileLoop [] [.forEach none (.literal "k v".toList) []]] ≠
        Block.tree [.whileLoop [] [.forEach (some (.literal ['k'])) (.literal ['v']) []]] := by
  refine ⟨((tree_outline_and_injective.1 _ (List.cons_ne_nil _ _)).1).trans rfl, fun h => ?_⟩
  have hwide : ∀ key? value,
      ∀ entry ∈ Block.outlineAll 0 [.whileLoop [] [.forEach key? value []]],
        ¬ entry.2.EndsInWideSpace := by
    intro key? value entry he
    simp only [Block.outlineAll, Block.outline, List.append_nil, List.mem_cons, List.not_mem_nil,
      or_false] at he
    rcases he with rfl | rfl <;> simp [Block.EndsInWideSpace]
  have heq := tree_outline_and_injective.2 _ _ (hwide _ _) (hwide _ _) h
  simp at heq

end BlockScript
